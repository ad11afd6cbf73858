import Omnipresent.HandOver.Pair
import Omnipresent.Network.Refinement

/-! Two daemons that share one session: which of them is in control once every
hand-over message has arrived. -/
namespace Omnipresent
open Transition

namespace Network
variable {n m : Network} {a b : MachineId}

/-- No cursor comes home while the newest hand-over message on its way to that
machine is a peer's claim to have it. -/
def Uncontested (n : Network) : NetworkOp → Prop
  | .captured a event os => (n.daemon a).Crosses event os a → ∀ b, (n.flight b a).getLast? ≠ some .mine
  | _ => True

theorem pair_irreflexive (distinct : a ≠ b) (x : MachineId) : ¬ pair a b x x := by
  rintro (⟨rfl, same⟩ | ⟨rfl, same⟩)
  · exact distinct same
  · exact distinct same.symm

theorem Uncontested.room (makes : n.Makes op move) (uncontested : n.Uncontested op) :
    n.room.Uncontested move := by
  cases makes with
  | out => trivial
  | home crosses => exact uncontested crosses
  | read => trivial

theorem Uncontested.of_room (makes : n.Makes op move) (uncontested : n.room.Uncontested move) :
    n.Uncontested op := by
  cases makes with
  | out crosses away => exact fun home => absurd (crosses.unique home) away
  | home => exact fun _ => uncontested
  | read => trivial

theorem Uncontested.of_idle (idle : ∀ move, ¬ n.Makes op move) : n.Uncontested op := by
  cases op with
  | captured a event os => exact fun home => absurd (.home home) (idle _)
  | _ => trivial

/-- While no way home is contested, at most one of the two sends its input away
whenever no hand-over message is in flight. After a contested one both do, from the
first such moment until a cursor crosses again. -/
theorem one_in_control (distinct : a ≠ b) (ready : n.Ready (pair a b)) :
    (∀ {ops m}, Reaches (guarded Step Uncontested) n ops m → m.Quiet →
      m.active a = .here ∨ m.active b = .here) ∧
    ∀ {ops m op t ops' u}, Reaches Step n ops m → Step m op t → ¬ m.Uncontested op →
      Reaches (guarded Step Still) t ops' u → u.Quiet →
        u.active a = .remote b ∧ u.active b = .remote a := by
  obtain ⟨quiet, here⟩ := ready.start
  have irreflexive := pair_irreflexive distinct
  constructor
  · intro ops m run arrived
    obtain ⟨_, moves, path⟩ := ready.toWired.refines irreflexive Uncontested.room run
    obtain ⟨_, settles⟩ := Room.settles_of_uncontested distinct quiet here path
    exact (settles.quiet arrived).imp ActiveTarget.peer_eq_none.mp ActiveTarget.peer_eq_none.mp
  · intro ops m op t ops' u run step contested still arrived
    have wired := ready.toWired.along irreflexive run
    obtain ⟨after, mirrors⟩ := wired.step irreflexive step
    have clashes : t.room.Clashes a b := by
      cases mirrors with
      | silent idle => exact absurd (.of_idle idle) contested
      | moves move makes moved =>
        refine .contested distinct (wired.connected pair_symmetric) ?_ moved
        exact fun uncontested => contested (.of_room makes uncontested)
    obtain ⟨_, clashes⟩ := after.still irreflexive (P := Room.Clashes a b)
      (fun connected clashes still step => clashes.step distinct connected still step)
      pair_symmetric still clashes
    exact (clashes.quiet arrived).imp ActiveTarget.peer_eq_some.mp ActiveTarget.peer_eq_some.mp

def deskAndLaptop : Network := assembled fun a =>
  if a = desk then [.dialled "laptop" (.filled 2) ⟨7⟩ ⟨100, 100⟩ .done [laptop]]
  else if a = laptop then [.incoming "desk" (.filled 1) ⟨7⟩ ⟨100, 100⟩ [desk]]
  else []

theorem deskAndLaptop_ready : deskAndLaptop.Ready (pair desk laptop) := by
  refine @assembled_ready _ (fun a => if a = desk then {laptop} else if a = laptop then {desk} else ∅)
    (fun _ _ => ⟨7⟩) _ (fun a => ?_) (fun a b => ?_) pair_symmetric fun _ _ => rfl
  · by_cases first : a = desk
    · subst first
      decide +kernel
    · by_cases second : a = laptop
      · subst second
        decide +kernel
      · simp only [if_neg first, if_neg second]
        exact ⟨rfl, rfl, rfl, by simp⟩
  · by_cases first : a = desk
    · simp [pair, first, desk_ne_laptop]
    · by_cases second : a = laptop
      · simp [pair, second, desk_ne_laptop.symm]
      · simp [pair, first, second]

theorem pair_quiet (wired : n.Wired (pair a b)) (sent : n.flight a b = []) (received : n.flight b a = []) :
    n.Quiet := by
  refine wired.quiet ?_
  rintro x y (⟨rfl, rfl⟩ | ⟨rfl, rfl⟩)
  · exact sent
  · exact received

theorem one_in_control_crossed : ∃ ops m, Reaches (guarded Step Uncontested) deskAndLaptop ops m ∧
    m.Quiet ∧ m.active desk = .remote laptop ∧ m.active laptop = .here := by
  have ready := deskAndLaptop_ready
  have first : deskAndLaptop.Uncontested (.captured desk (.motion ⟨150, 0⟩) none) := fun _ p => by
    simp [ready.quiet p desk]
  have rest : ∀ op ∈ [NetworkOp.written desk laptop 1, .delivered desk laptop],
      ∀ m : Network, m.Uncontested op := by simp [Uncontested]
  obtain ⟨m, run, test⟩ := Reaches.of_any_guarded Step.of_run first rest
    (show ([.captured desk (.motion ⟨150, 0⟩) none, .written desk laptop 1, .delivered desk laptop].foldlM
        Network.run deskAndLaptop).any (fun m => m.flight desk laptop = [] ∧ m.flight laptop desk = [] ∧
          m.active desk = .remote laptop) = true by decide +kernel)
  obtain ⟨sent, received, away⟩ := of_decide_eq_true test
  have quiet := pair_quiet (ready.toWired.along (pair_irreflexive desk_ne_laptop) run.unguarded) sent received
  refine ⟨_, m, run, quiet, away, ?_⟩
  exact ((one_in_control desk_ne_laptop ready).1 run quiet).resolve_left fun own => nomatch own.symm.trans away

/-- Both cursors go out and come back before either machine hears of it: each then
hears last that the other has the cursor. -/
theorem both_sent_away : ∃ n a b, a ≠ b ∧ n.Ready (pair a b) ∧ ∃ ops m, Reaches Step n ops m ∧ m.Quiet ∧
    m.active a = .remote b ∧ m.active b = .remote a := by
  obtain ⟨m, run, test⟩ := Reaches.of_any Step.of_run
    (show ([.captured desk (.motion ⟨150, 0⟩) none, .captured desk (.motion ⟨-150, 0⟩) none,
        .captured laptop (.motion ⟨-10, 0⟩) none, .captured laptop (.motion ⟨110, 0⟩) none,
        .written desk laptop 2, .written laptop desk 2,
        .delivered desk laptop, .delivered laptop desk, .delivered desk laptop, .delivered laptop desk].foldlM
        Network.run deskAndLaptop).any (fun m => m.flight desk laptop = [] ∧ m.flight laptop desk = [] ∧
          m.active desk = .remote laptop ∧ m.active laptop = .remote desk) = true by decide +kernel)
  obtain ⟨sent, received, first, second⟩ := of_decide_eq_true test
  have ready := deskAndLaptop_ready
  have wired := ready.toWired.along (pair_irreflexive desk_ne_laptop) run
  have quiet := pair_quiet wired sent received
  exact ⟨deskAndLaptop, desk, laptop, desk_ne_laptop, ready, _, m, run, quiet, first, second⟩

end Network
end Omnipresent
