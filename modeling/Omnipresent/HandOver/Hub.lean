import Omnipresent.HandOver.Protocol

/-! A hub with a channel to each of its peers, which have none to each other, and
cursors that only move when everything said has been heard. -/
namespace Omnipresent
open Transition
variable {M : Type*}

def star (hub : M) (peers : Set M) (x y : M) : Prop := (x = hub ∧ y ∈ peers) ∨ (y = hub ∧ x ∈ peers)

theorem star_symmetric {hub x y : M} {peers : Set M} (link : star hub peers x y) : star hub peers y x :=
  Or.symm link

namespace Room

/-- The cursor moves only when nothing is in flight. -/
def RaceFree (room : Room M) (move : Move M) : Prop := move.onto ≠ none → room.Quiet

/-- No cursor moves onto a peer while another peer sends its input to the hub. -/
def Vacant (hub : M) (room : Room M) (move : Move M) : Prop :=
  ∀ p, move.onto = some p → p ≠ hub → ∀ q, q ≠ p → room.target q ≠ some hub

/-- Where the hand-over of one move of the cursor stands. -/
inductive Phase (hub : M) (peers : Set M) (room : Room M) : Prop where
  | settled : room.Quiet → room.Held → Phase hub peers room
  | toPeer (p : M) : p ∈ peers → room.Only hub p [.yours] → room.target hub = some p →
      (∀ q, q ≠ p → room.target q ≠ some hub) → Phase hub peers room
  | homeHub : room.target hub = none → (∀ x y, room.flight x y ≠ [] → x = hub) →
      (∀ y, room.flight hub y = [] ∨ room.flight hub y = [.mine]) → Phase hub peers room
  | toHub (p : M) : p ∈ peers → room.Only p hub [.yours] → Phase hub peers room
  | homePeer (p : M) : p ∈ peers → room.Only p hub [.mine] → room.target p = none →
      (∀ q, q ≠ p → room.target q ≠ some hub) → Phase hub peers room

section
variable {hub : M} {peers : Set M} {room : Room M}

/-- A hub at home is enough: every machine that sends its input away sends it there,
or is the hub. -/
theorem Held.of_hub (follows : room.Follows (star hub peers)) (own : room.target hub = none) :
    room.Held := by
  intro x y target
  obtain ⟨rfl, _⟩ | ⟨rfl, _⟩ := follows x y target
  · exact nomatch own.symm.trans target
  · exact own

theorem Held.of_peer (follows : room.Follows (star hub peers)) (away : room.target hub = some p)
    (own : room.target p = none) (others : ∀ q, q ≠ p → room.target q ≠ some hub) : room.Held := by
  intro x y target
  obtain ⟨rfl, _⟩ | ⟨rfl, _⟩ := follows x y target
  · obtain rfl := Option.some.inj (away.symm.trans target)
    exact own
  · by_cases same : x = p
    · subst same
      exact nomatch own.symm.trans target
    · exact absurd target (others x same)

theorem Only.homePeer (quiet : room.Quiet) (distinct : a ≠ hub) (member : a ∈ peers) :
    (room.home (star hub peers) a).Only a hub [.mine] := by
  have turned : (room.turn a none).Quiet := quiet
  refine .say turned (fun x y => ?_) .mine
  constructor
  · rintro ⟨rfl, ⟨rfl, _⟩ | ⟨rfl, _⟩⟩
    · exact absurd rfl distinct
    · exact ⟨rfl, rfl⟩
  · rintro ⟨rfl, rfl⟩
    exact ⟨rfl, .inr ⟨rfl, member⟩⟩

theorem Phase.moved (outside : hub ∉ peers) (follows : room.Follows (star hub peers))
    (quiet : room.Quiet) (vacant : room.Vacant hub move) (moves : move.onto ≠ none)
    (step : Step (star hub peers) room move room') : room'.Phase hub peers := by
  cases step with
  | read => exact absurd rfl moves
  | @out a p own link =>
    have only : (room.out a p).Only a p [.yours] := .say quiet (fun _ _ => .rfl) .yours
    obtain ⟨rfl, member⟩ | ⟨rfl, member⟩ := link
    · have distinct : p ≠ a := fun same => outside (same ▸ member)
      refine .toPeer p member only (by simp [Room.out]) fun q other => ?_
      simp only [Room.out, say_target, turn_target]
      split
      · exact fun target => distinct (Option.some.inj target)
      · exact vacant p rfl distinct q other
    · exact .toHub a member only
  | @home a away =>
    obtain ⟨y, target⟩ := Option.ne_none_iff_exists'.mp away
    obtain ⟨rfl, _⟩ | ⟨rfl, member⟩ := follows a y target
    · refine .homeHub (by simp [Room.home]) (fun x y busy => ?_) fun y => ?_
      · by_contra other
        simp [Room.home, other, quiet x y] at busy
      · simp only [Room.home, say_flight, turn_flight, quiet a y, List.nil_append]
        split
        · exact .inr rfl
        · exact .inl rfl
    · have distinct : a ≠ y := fun same => outside (same ▸ member)
      refine .homePeer a member (.homePeer quiet distinct member) (by simp [Room.home]) fun q other => ?_
      simp only [Room.home, say_target, turn_target, if_neg other]
      exact vacant a rfl distinct q other

theorem Phase.heard_home (outside : hub ∉ peers) (connected : room.Connected (star hub peers))
    (own : room.target hub = none) (senders : ∀ x y, room.flight x y ≠ [] → x = hub)
    (words : ∀ y, room.flight hub y = [] ∨ room.flight hub y = [.mine])
    (heard : room.flight sender a = word :: rest) :
    (room.read sender a word rest).Phase hub peers ∧ (room.read sender a word rest).target hub = none := by
  obtain rfl := senders sender a (by simp [heard])
  have distinct : sender ≠ a := by
    rintro rfl
    obtain ⟨_, member⟩ | ⟨_, member⟩ := connected.flight (a := sender) (b := sender) (by simp [heard])
    · exact outside member
    · exact outside member
  have home : (room.read sender a word rest).target sender = none := by
    simpa [Room.read, distinct] using own
  refine ⟨.homeHub home (fun x y busy => ?_) fun y => ?_, home⟩
  · simp only [Room.read, hear_flight, turn_flight] at busy
    split at busy
    · exact And.left ‹x = sender ∧ y = a›
    · exact senders x y busy
  · simp only [Room.read, hear_flight, turn_flight]
    split
    · obtain quiet | one := words a
      · exact absurd (heard.symm.trans quiet) (List.cons_ne_nil word rest)
      · exact .inl (List.cons.inj (one.symm.trans heard)).2.symm
    · exact words y

theorem Phase.heard (outside : hub ∉ peers) (connected : room.Connected (star hub peers))
    (phase : room.Phase hub peers) (heard : room.flight sender a = word :: rest)
    (after : (room.read sender a word rest).Follows (star hub peers)) :
    (room.read sender a word rest).Phase hub peers ∧ (room.read sender a word rest).Held := by
  cases phase with
  | settled quiet _ => exact nomatch (quiet sender a).symm.trans heard
  | toPeer p member only away others =>
    obtain ⟨rfl, rfl, rfl, rfl⟩ := only.heard heard
    have distinct : sender ≠ a := fun same => outside (same ▸ member)
    have held := Held.of_peer after (p := a) (by simpa [Room.read, distinct] using away)
      (by simp [Room.read, Word.target]) fun q other => by simpa [Room.read, other] using others q other
    exact ⟨.settled only.read_quiet held, held⟩
  | homeHub own senders words =>
    obtain ⟨phase, home⟩ := Phase.heard_home outside connected own senders words heard
    exact ⟨phase, .of_hub after home⟩
  | toHub p member only =>
    obtain ⟨rfl, rfl, rfl, rfl⟩ := only.heard heard
    have held := Held.of_hub after (by simp [Room.read, Word.target])
    exact ⟨.settled only.read_quiet held, held⟩
  | homePeer p member only own others =>
    obtain ⟨rfl, rfl, rfl, rfl⟩ := only.heard heard
    have distinct : sender ≠ a := fun same => outside (same ▸ member)
    have held := Held.of_peer after (p := sender) (by simp [Room.read, Word.target])
      (by simpa [Room.read, distinct] using own) fun q other => by
        simp only [Room.read, hear_target, turn_target]
        split
        · intro target
          exact distinct (Option.some.inj target)
        · exact others q other
    exact ⟨.settled only.read_quiet held, held⟩

theorem Phase.step (outside : hub ∉ peers) (connected : room.Connected (star hub peers))
    (raceFree : room.RaceFree move) (vacant : room.Vacant hub move) (phase : room.Phase hub peers)
    (step : Step (star hub peers) room move room') :
    room'.Phase hub peers ∧ (move.onto = none → room'.Held) := by
  by_cases still : move.onto = none
  · have after := (connected.step star_symmetric step).target
    cases step with
    | out => simp [Move.onto] at still
    | home => simp [Move.onto] at still
    | read heard =>
      obtain ⟨phase, held⟩ := phase.heard outside connected heard after
      exact ⟨phase, fun _ => held⟩
  · exact ⟨.moved outside connected.target (raceFree still) vacant still step, fun same => absurd same still⟩

/-- A hub and its peers that start at home, and that only move a cursor when all is
heard and onto a peer when no other follows the hub. -/
theorem phase_of_vacant (outside : hub ∉ peers) (quiet : start.Quiet) (here : ∀ x, start.target x = none)
    (run : Reaches (guarded (Step (star hub peers)) fun room move => room.RaceFree move ∧ room.Vacant hub move)
      start moves room) : room.Connected (star hub peers) ∧ room.Phase hub peers := by
  refine run.invariant (P := fun room => room.Connected (star hub peers) ∧ room.Phase hub peers) ?_ ?_
  · rintro room move room' ⟨connected, phase⟩ ⟨⟨raceFree, vacant⟩, step⟩
    exact ⟨connected.step star_symmetric step, (phase.step outside connected raceFree vacant step).1⟩
  · refine ⟨⟨fun x y target => ?_, fun busy => absurd (quiet _ _) busy⟩, .settled quiet fun x y target => ?_⟩
    · simp [here] at target
    · simp [here] at target

/-- The hub sends its input to a peer, or is about to, while another peer's comes
to the hub. -/
structure Crowds (hub p q : M) (room : Room M) : Prop where
  distinct : p ≠ hub
  others : q ≠ p ∧ q ≠ hub
  follower : room.target q = some hub
  holder : (room.target hub = some p ∧ ∀ x y, room.flight x y ≠ [] → x = hub ∧ y = p) ∨
    room.Only p hub [.mine]

theorem Crowds.of_move (outside : hub ∉ peers) (follows : room.Follows (star hub peers)) (quiet : room.Quiet)
    (crowded : ¬ room.Vacant hub move) (step : Step (star hub peers) room move room') :
    ∃ p q, room'.Crowds hub p q := by
  simp only [Vacant, not_forall, not_not] at crowded
  obtain ⟨p, onto, distinct, q, other, follower⟩ := crowded
  have away : q ≠ hub := by
    rintro rfl
    obtain ⟨_, member⟩ | ⟨_, member⟩ := follows _ _ follower <;> exact outside member
  cases step with
  | read => simp [Move.onto] at onto
  | @out a p' own link =>
    obtain rfl := Option.some.inj onto
    obtain ⟨rfl, _⟩ | ⟨same, _⟩ := link
    · refine ⟨p', q, distinct, ⟨other, away⟩, ?_, .inl ⟨?_, fun x y busy => ?_⟩⟩
      · simpa [Room.out, away] using follower
      · simp [Room.out]
      · by_contra elsewhere
        simp [Room.out, elsewhere, quiet x y] at busy
    · exact absurd same distinct
  | @home a lent =>
    obtain rfl := Option.some.inj onto
    obtain ⟨y, target⟩ := Option.ne_none_iff_exists'.mp lent
    obtain ⟨same, _⟩ | ⟨rfl, member⟩ := follows a y target
    · exact absurd same distinct
    · refine ⟨a, q, distinct, ⟨other, away⟩, ?_, .inr (.homePeer quiet distinct member)⟩
      simpa [Room.home, other] using follower

theorem Crowds.heard (crowds : room.Crowds hub p q) (heard : room.flight sender a = word :: rest) :
    (room.read sender a word rest).Crowds hub p q ∧ ¬ (room.read sender a word rest).Held := by
  obtain ⟨distinct, ⟨other, away⟩, follower, ⟨lent, channels⟩ | only⟩ := crowds
  · obtain ⟨rfl, rfl⟩ := channels sender a (by simp [heard])
    have kept : (room.read sender a word rest).target q = some sender := by simpa [Room.read, other] using follower
    have still : (room.read sender a word rest).target sender = some a := by
      simpa [Room.read, Ne.symm distinct] using lent
    refine ⟨⟨distinct, ⟨other, away⟩, kept, .inl ⟨still, fun x y busy => ?_⟩⟩, fun held => ?_⟩
    · by_contra elsewhere
      simp only [Room.read, hear_flight, turn_flight, if_neg elsewhere] at busy
      exact elsewhere (channels x y busy)
    · exact Option.some_ne_none a (still.symm.trans (held q sender kept))
  · obtain ⟨rfl, rfl, rfl, rfl⟩ := only.heard heard
    have kept : (room.read sender a .mine []).target q = some a := by simpa [Room.read, away] using follower
    have taken : (room.read sender a .mine []).target a = some sender := by simp [Room.read, Word.target]
    refine ⟨⟨distinct, ⟨other, away⟩, kept, .inl ⟨taken, fun x y busy => ?_⟩⟩, fun held => ?_⟩
    · exact absurd (only.read_quiet x y) busy
    · exact Option.some_ne_none sender (taken.symm.trans (held q a kept))

theorem Crowds.step (crowds : room.Crowds hub p q) (still : move.onto = none)
    (step : Step linked room move room') : room'.Crowds hub p q ∧ ¬ room'.Held := by
  cases step with
  | read heard => exact crowds.heard heard
  | _ => simp [Move.onto] at still

end
end Room
end Omnipresent
