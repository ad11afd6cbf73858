import Omnipresent.HandOver.Protocol

/-! Two machines with one channel each way. What decides is the word each will
have heard last: the newest in flight, or where its input goes now. -/
namespace Omnipresent
open Transition
variable {M : Type*}

def pair (a b x y : M) : Prop := (x = a ∧ y = b) ∨ (x = b ∧ y = a)

theorem pair_symmetric {a b x y : M} (link : pair a b x y) : pair a b y x :=
  link.elim (fun ⟨first, second⟩ => .inr ⟨second, first⟩) fun ⟨first, second⟩ => .inl ⟨second, first⟩

namespace Room

/-- Where a machine sends its input once it has heard the sender out. -/
def settled (room : Room M) (sender a : M) : Option M :=
  ((room.flight sender a).getLast?.map (·.target sender)).getD (room.target a)

/-- No machine takes the cursor back while the last thing in flight to it is
another's claim to have it. -/
def Uncontested (room : Room M) : Move M → Prop
  | .home a => ∀ p, (room.flight p a).getLast? ≠ some .mine
  | _ => True

/-- Once both have heard everything, one of the two keeps its input at home. -/
def Settles (a b : M) (room : Room M) : Prop := room.settled b a = none ∨ room.settled a b = none

/-- Once both have heard everything, each sends its input to the other. -/
def Clashes (a b : M) (room : Room M) : Prop :=
  room.settled b a = some b ∧ room.settled a b = some a

variable {room : Room M} {a b : M}

theorem settled_quiet (quiet : room.flight b a = []) : room.settled b a = room.target a := by
  simp [settled, quiet]

theorem settled_congr {room' : Room M} (target : room'.target a = room.target a)
    (flight : room'.flight b a = room.flight b a) : room'.settled b a = room.settled b a := by
  rw [settled, settled, target, flight]

theorem settled_append {room' : Room M} (word : Word) (earlier : List Word)
    (flight : room'.flight b a = earlier ++ [word]) : room'.settled b a = word.target b := by
  simp [settled, flight]

theorem settled_read (heard : room.flight b a = word :: rest) :
    (room.read b a word rest).settled b a = room.settled b a := by
  cases rest with
  | nil => simp [settled, read, heard]
  | cons next rest =>
    have newest : (word :: next :: rest).getLast? = (next :: rest).getLast? := List.getLast?_cons_cons
    cases same : (next :: rest).getLast? with
    | none => simp at same
    | some last => simp [settled, read, heard, newest, same]

theorem settled_home (link : linked a b) :
    (room.home linked a).settled a b = some a := by
  refine settled_append .mine (room.flight a b) ?_
  simp [home, link]

theorem settled_own (distinct : a ≠ b) (uncontested : (room.flight b a).getLast? ≠ some .mine) :
    (room.home linked a).settled b a = none := by
  have unheard : (room.home linked a).flight b a = room.flight b a := by
    simp [home, Ne.symm distinct]
  rw [settled, unheard]
  cases newest : (room.flight b a).getLast? with
  | none => simp [home]
  | some word =>
    cases word with
    | yours => rfl
    | mine => exact absurd newest uncontested

theorem settled_contested (distinct : a ≠ b) (contested : (room.flight b a).getLast? = some .mine) :
    (room.home linked a).settled b a = some b := by
  have unheard : (room.home linked a).flight b a = room.flight b a := by
    simp [home, Ne.symm distinct]
  rw [settled, unheard, contested]
  rfl

theorem Settles.swap (settles : room.Settles a b) : room.Settles b a := settles.symm

theorem Settles.out : (room.out a b).Settles a b := by
  right
  refine settled_append .yours (room.flight a b) ?_
  simp [Room.out]

theorem Settles.home (distinct : a ≠ b) (uncontested : room.Uncontested (.home a)) :
    (room.home linked a).Settles a b :=
  .inl (settled_own distinct (uncontested b))

theorem Settles.read (distinct : a ≠ b) (heard : room.flight b a = word :: rest)
    (settles : room.Settles a b) : (room.read b a word rest).Settles a b := by
  refine settles.imp (fun own => (settled_read heard).trans own) fun other => ?_
  refine (settled_congr ?_ ?_).trans other
  · simp [Room.read, Ne.symm distinct]
  · simp [Room.read, distinct]

/-- In every room of two, however their moves interleave, as long as no way home
is contested. -/
theorem Settles.step (distinct : a ≠ b) (uncontested : room.Uncontested move)
    (connected : room.Connected (pair a b)) (settles : room.Settles a b)
    (step : Step (pair a b) room move room') : room'.Settles a b := by
  cases step with
  | out own link =>
    obtain ⟨rfl, rfl⟩ | ⟨rfl, rfl⟩ := link
    · exact .out
    · exact Settles.out.swap
  | home away =>
    obtain ⟨p, target⟩ := Option.ne_none_iff_exists'.mp away
    obtain ⟨rfl, rfl⟩ | ⟨rfl, rfl⟩ := connected.target _ _ target
    · exact .home distinct uncontested
    · exact (Settles.home (Ne.symm distinct) uncontested).swap
  | read heard =>
    obtain ⟨rfl, rfl⟩ | ⟨rfl, rfl⟩ := connected.flight (List.ne_nil_of_mem (heard ▸ List.mem_cons_self))
    · exact settles.read distinct heard
    · exact (settles.swap.read (Ne.symm distinct) heard).swap

theorem Clashes.swap (clashes : room.Clashes a b) : room.Clashes b a := clashes.symm

theorem Clashes.home (distinct : a ≠ b) (contested : (room.flight b a).getLast? = some .mine) (link : linked a b) :
    (room.home linked a).Clashes a b :=
  ⟨settled_contested distinct contested, settled_home link⟩

theorem Clashes.read (distinct : a ≠ b) (heard : room.flight b a = word :: rest)
    (clashes : room.Clashes a b) : (room.read b a word rest).Clashes a b := by
  refine ⟨(settled_read heard).trans clashes.1, (settled_congr ?_ ?_).trans clashes.2⟩
  · simp [Room.read, Ne.symm distinct]
  · simp [Room.read, distinct]

/-- A contested way home clashes. -/
theorem Clashes.contested (distinct : a ≠ b) (connected : room.Connected (pair a b))
    (contested : ¬ room.Uncontested move) (step : Step (pair a b) room move room') :
    room'.Clashes a b := by
  cases step with
  | out => exact absurd trivial contested
  | read => exact absurd trivial contested
  | @home x away =>
    obtain ⟨p, newest⟩ := not_forall.mp contested
    have newest := not_not.mp newest
    have busy : room.flight p x ≠ [] := fun quiet => by simp [quiet] at newest
    obtain ⟨rfl, rfl⟩ | ⟨rfl, rfl⟩ := connected.flight busy
    · exact .home distinct newest (.inl ⟨rfl, rfl⟩)
    · exact (Clashes.home (Ne.symm distinct) newest (.inr ⟨rfl, rfl⟩)).swap

theorem Clashes.step (distinct : a ≠ b) (connected : room.Connected (pair a b)) (clashes : room.Clashes a b)
    (still : move.onto = none) (step : Step (pair a b) room move room') : room'.Clashes a b := by
  cases step with
  | out => simp [Move.onto] at still
  | home => simp [Move.onto] at still
  | read heard =>
    obtain ⟨rfl, rfl⟩ | ⟨rfl, rfl⟩ := connected.flight (List.ne_nil_of_mem (heard ▸ List.mem_cons_self))
    · exact clashes.read distinct heard
    · exact (clashes.swap.read (Ne.symm distinct) heard).swap

/-- Two machines that start at home and contest no way home never both end up
sending their input away. -/
theorem settles_of_uncontested (distinct : a ≠ b) (quiet : start.Quiet) (here : ∀ x, start.target x = none)
    (run : Reaches (guarded (Step (pair a b)) Uncontested) start moves room) :
    room.Connected (pair a b) ∧ room.Settles a b := by
  refine run.invariant (P := fun room => room.Connected (pair a b) ∧ room.Settles a b) ?_ ?_
  · rintro room move room' ⟨connected, settles⟩ ⟨uncontested, step⟩
    exact ⟨connected.step pair_symmetric step, settles.step distinct uncontested connected step⟩
  · refine ⟨⟨fun x y target => ?_, fun busy => absurd (quiet _ _) busy⟩, .inl ?_⟩
    · simp [here] at target
    · rw [settled_quiet (quiet _ _), here]

theorem Settles.quiet (settles : room.Settles a b) (quiet : room.Quiet) :
    room.target a = none ∨ room.target b = none := by
  rwa [Settles, settled_quiet (quiet _ _), settled_quiet (quiet _ _)] at settles

theorem Clashes.quiet (clashes : room.Clashes a b) (quiet : room.Quiet) :
    room.target a = some b ∧ room.target b = some a := by
  rwa [Clashes, settled_quiet (quiet _ _), settled_quiet (quiet _ _)] at clashes

end Room
end Omnipresent
