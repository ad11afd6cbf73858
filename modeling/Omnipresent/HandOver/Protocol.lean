import Omnipresent.Transition

/-! What the two hand-over messages are for, with nothing else about a machine:
where its input goes, and the words still in flight on each ordered channel. -/
namespace Omnipresent
variable {M : Type*}

/-- "You have the cursor", or "I have it again". -/
inductive Word where
  | yours
  | mine
deriving DecidableEq

/-- Where the machine that reads a word sends its input from then on: home, or to
the sender. -/
def Word.target (sender : M) : Word → Option M
  | yours => none
  | mine => some sender

/-- The machines that share one cursor. -/
@[ext] structure Room (M : Type*) where
  /-- Where each machine's input goes; `none` is its own screen. -/
  target : M → Option M
  /-- Said by the first, not yet heard by the second, oldest first. -/
  flight : M → M → List Word

inductive Move (M : Type*) where
  /-- The cursor of a machine leaves for a neighbor's screen. -/
  | out (a p : M)
  /-- It comes back. -/
  | home (a : M)
  | read (sender a : M)

def Move.onto : Move M → Option M
  | out _ p => some p
  | home a => some a
  | read _ _ => none

namespace Room

def Quiet (room : Room M) : Prop := ∀ a b, room.flight a b = []

/-- Whoever gets a machine's input uses its own at home. -/
def Held (room : Room M) : Prop := ∀ a b, room.target a = some b → room.target b = none

/-- Everything in flight is these words on this channel. -/
def Only (room : Room M) (a b : M) (words : List Word) : Prop :=
  room.flight a b = words ∧ ∀ x y, ¬ (x = a ∧ y = b) → room.flight x y = []

def Follows (linked : M → M → Prop) (room : Room M) : Prop :=
  ∀ a b, room.target a = some b → linked a b

open scoped Classical in
noncomputable def say (room : Room M) (word : Word) (channel : M → M → Prop) : Room M :=
  { room with flight := fun x y => if channel x y then room.flight x y ++ [word] else room.flight x y }

open scoped Classical in
noncomputable def turn (room : Room M) (a : M) (target : Option M) : Room M :=
  { room with target := fun x => if x = a then target else room.target x }

open scoped Classical in
noncomputable def hear (room : Room M) (sender a : M) (rest : List Word) : Room M :=
  { room with flight := fun x y => if x = sender ∧ y = a then rest else room.flight x y }

noncomputable def out (room : Room M) (a p : M) : Room M :=
  (room.turn a (some p)).say .yours fun x y => x = a ∧ y = p

/-- The way home is told to every machine there is a channel to. -/
noncomputable def home (linked : M → M → Prop) (room : Room M) (a : M) : Room M :=
  (room.turn a none).say .mine fun x y => x = a ∧ linked a y

noncomputable def read (room : Room M) (sender a : M) (word : Word) (rest : List Word) : Room M :=
  (room.turn a (word.target sender)).hear sender a rest

/-- The cursor leaves a machine that has it, or comes back to one that lent it, or
a word is heard. -/
inductive Step (linked : M → M → Prop) : Room M → Move M → Room M → Prop where
  | out {a p : M} : room.target a = none → linked a p → Step linked room (.out a p) (room.out a p)
  | home {a : M} : room.target a ≠ none → Step linked room (.home a) (room.home linked a)
  | read {sender a : M} {word : Word} {rest : List Word} : room.flight sender a = word :: rest →
      Step linked room (.read sender a) (room.read sender a word rest)

variable {room : Room M}

@[simp] theorem say_target (room : Room M) (word : Word) (channel : M → M → Prop) :
    (room.say word channel).target = room.target := rfl

open scoped Classical in
@[simp] theorem say_flight (room : Room M) (word : Word) (channel : M → M → Prop) (x y : M) :
    (room.say word channel).flight x y =
      if channel x y then room.flight x y ++ [word] else room.flight x y := rfl

open scoped Classical in
@[simp] theorem turn_target (room : Room M) (a : M) (target : Option M) (x : M) :
    (room.turn a target).target x = if x = a then target else room.target x := rfl

@[simp] theorem turn_flight (room : Room M) (a : M) (target : Option M) :
    (room.turn a target).flight = room.flight := rfl

@[simp] theorem hear_target (room : Room M) (sender a : M) (rest : List Word) :
    (room.hear sender a rest).target = room.target := rfl

open scoped Classical in
@[simp] theorem hear_flight (room : Room M) (sender a : M) (rest : List Word) (x y : M) :
    (room.hear sender a rest).flight x y = if x = sender ∧ y = a then rest else room.flight x y := rfl

theorem Only.heard (only : room.Only a b [word]) (read : room.flight x y = word' :: rest) :
    x = a ∧ y = b ∧ word' = word ∧ rest = [] := by
  by_cases same : x = a ∧ y = b
  · obtain ⟨rfl, rfl⟩ := same
    obtain ⟨rfl, rfl⟩ := List.cons.inj (only.1.symm.trans read)
    exact ⟨rfl, rfl, rfl, rfl⟩
  · exact nomatch (only.2 x y same).symm.trans read

theorem Only.read_quiet (only : room.Only a b [word]) : (room.read a b word []).Quiet := by
  intro x y
  rw [read, hear_flight]
  split
  · rfl
  · exact only.2 x y ‹_›

theorem Only.say (quiet : room.Quiet) (only : ∀ x y, channel x y ↔ x = a ∧ y = b) (word : Word) :
    (room.say word channel).Only a b [word] := by
  constructor
  · rw [say_flight, if_pos ((only a b).mpr ⟨rfl, rfl⟩), quiet, List.nil_append]
  · intro x y other
    rw [say_flight, if_neg (mt (only x y).mp other), quiet]

/-- Words only travel, and input only goes, where there is a channel. -/
structure Connected (linked : M → M → Prop) (room : Room M) : Prop where
  target : room.Follows linked
  flight : ∀ {a b}, room.flight a b ≠ [] → linked b a

theorem Connected.out (symmetric : ∀ {a b}, linked a b → linked b a) (connected : room.Connected linked)
    (link : linked a p) : (room.out a p).Connected linked := by
  constructor
  · intro x y target
    simp only [Room.out, say_target, turn_target] at target
    split at target
    · obtain rfl := Option.some.inj target
      exact ‹x = a› ▸ link
    · exact connected.target x y target
  · intro x y busy
    simp only [Room.out, say_flight, turn_flight] at busy
    split at busy
    · obtain ⟨rfl, rfl⟩ := ‹x = a ∧ y = p›
      exact symmetric link
    · exact connected.flight busy

theorem Connected.home (symmetric : ∀ {a b}, linked a b → linked b a) (connected : room.Connected linked)
    (a : M) : (room.home linked a).Connected linked := by
  constructor
  · intro x y target
    simp only [Room.home, say_target, turn_target] at target
    split at target
    · simp at target
    · exact connected.target x y target
  · intro x y busy
    simp only [Room.home, say_flight, turn_flight] at busy
    split at busy
    · obtain ⟨rfl, link⟩ := ‹x = a ∧ _›
      exact symmetric link
    · exact connected.flight busy

theorem Connected.read (connected : room.Connected linked) (heard : room.flight sender a = word :: rest) :
    (room.read sender a word rest).Connected linked := by
  have link : linked a sender := connected.flight (by simp [heard])
  constructor
  · intro x y target
    simp only [Room.read, hear_target, turn_target] at target
    split at target
    · cases word with
      | yours => simp [Word.target] at target
      | mine =>
        obtain rfl := Option.some.inj target
        exact ‹x = a› ▸ link
    · exact connected.target x y target
  · intro x y busy
    simp only [Room.read, hear_flight, turn_flight] at busy
    split at busy
    · obtain ⟨rfl, rfl⟩ := ‹x = sender ∧ y = a›
      exact link
    · exact connected.flight busy

theorem Connected.step (symmetric : ∀ {a b}, linked a b → linked b a) (connected : room.Connected linked)
    (step : Step linked room move room') : room'.Connected linked := by
  cases step with
  | out _ link => exact connected.out symmetric link
  | home => exact connected.home symmetric _
  | read heard => exact connected.read heard

end Room
end Omnipresent
