import Omnipresent.HandOver.Hub
import Omnipresent.Network.Refinement

/-! A hub that shares a session with each of its peers, and cursors that cross one at
a time: whether whoever gets a machine's input holds the cursor itself. -/
namespace Omnipresent
open Transition

namespace Network
variable {n m : Network} {hub : MachineId} {peers : Set MachineId}

/-- A cursor crosses only when every hand-over message has been delivered. -/
def RaceFree (n : Network) (op : NetworkOp) : Prop := ∀ peer, n.Crosses op peer → n.Quiet

/-- No cursor crosses onto a peer while another one sends its input to the hub. -/
def Vacant (hub : MachineId) (n : Network) (op : NetworkOp) : Prop :=
  ∀ p, n.Crosses op p → p ≠ hub → ∀ q, q ≠ p → n.active q ≠ .remote hub

theorem star_irreflexive (outside : hub ∉ peers) (x : MachineId) : ¬ star hub peers x x := by
  rintro (⟨rfl, member⟩ | ⟨rfl, member⟩) <;> exact outside member

theorem Makes.crosses (makes : n.Makes op move) (onto : move.onto = some p) : n.Crosses op p := by
  cases makes with
  | out crosses => exact Option.some.inj onto ▸ ⟨_, _, _, rfl, crosses⟩
  | home crosses => exact Option.some.inj onto ▸ ⟨_, _, _, rfl, crosses⟩
  | read => simp [Move.onto] at onto

theorem Makes.of_crosses (crosses : n.Crosses op p) : ∃ move, n.Makes op move ∧ move.onto = some p := by
  obtain ⟨a, event, os, rfl, crosses⟩ := crosses
  by_cases own : p = a
  · subst own
    exact ⟨.home p, .home crosses, rfl⟩
  · exact ⟨.out a p, .out crosses own, rfl⟩

theorem RaceFree.room (makes : n.Makes op move) (raceFree : n.RaceFree op) : n.room.RaceFree move := by
  intro moves
  obtain ⟨p, onto⟩ := Option.ne_none_iff_exists'.mp moves
  exact raceFree p (makes.crosses onto)

theorem Vacant.room (makes : n.Makes op move) (vacant : n.Vacant hub op) : n.room.Vacant hub move := by
  intro p onto away q other target
  exact vacant p (makes.crosses onto) away q other (ActiveTarget.peer_eq_some.mp target)

/-- Cursors that cross one at a time, and onto a peer only while no other follows the
hub, leave every machine's input with one that holds the cursor itself. A crossing
onto a peer while another follows the hub does not: once it is told, the follower's
input goes to a hub that sends its own away. -/
theorem holder_at_home (outside : hub ∉ peers) (ready : n.Ready (star hub peers)) :
    (∀ {ops m op t}, Reaches (guarded Step fun n op => n.RaceFree op ∧ n.Vacant hub op) n ops m →
      Step m op t → m.HandsOver op → ∀ x y, t.active x = .remote y → t.active y = .here) ∧
    ∀ {ops m op t ops' u op' v}, Reaches (guarded Step RaceFree) n ops m →
      m.RaceFree op → ¬ m.Vacant hub op → Step m op t →
      Reaches (guarded Step Still) t ops' u → Step u op' v → u.HandsOver op' →
        ∃ x y, v.active x = .remote y ∧ v.active y ≠ .here := by
  obtain ⟨quiet, here⟩ := ready.start
  have irreflexive := star_irreflexive outside
  constructor
  · intro ops m op t run step hands x y target
    have refined : m.Wired (star hub peers) ∧ ∃ moves,
        Reaches (guarded (Room.Step (star hub peers)) fun room move => room.RaceFree move ∧ room.Vacant hub move)
          n.room moves m.room :=
      ready.toWired.refines irreflexive
        (fun makes ⟨raceFree, vacant⟩ => ⟨raceFree.room makes, vacant.room makes⟩) run
    obtain ⟨wired, moves, path⟩ := refined
    obtain ⟨connected, phase⟩ := Room.phase_of_vacant outside quiet here path
    obtain ⟨move, still, _, moved⟩ := wired.heard irreflexive step hands
    have held := (phase.step outside connected (fun moves => absurd still moves)
      (fun p onto => nomatch still.symm.trans onto) moved).2 still
    exact ActiveTarget.peer_eq_none.mp (held x y (ActiveTarget.peer_eq_some.mpr target))
  · intro ops m op t ops' u op' v run raceFree crowded step still told hands
    have wired := ready.toWired.along irreflexive run.unguarded
    obtain ⟨after, mirrors⟩ := wired.step irreflexive step
    simp only [Vacant, not_forall, not_not] at crowded
    obtain ⟨p, crosses, away, q, other, follower⟩ := crowded
    obtain ⟨move, makes, onto⟩ := Makes.of_crosses crosses
    have crowds : ∃ p q, t.room.Crowds hub p q := by
      cases mirrors with
      | silent idle => exact absurd makes (idle _)
      | moves move' makes' moved =>
        cases makes.unique makes'
        have follows := (wired.connected star_symmetric).target
        refine Room.Crowds.of_move outside follows (raceFree p crosses) (fun vacant => ?_) moved
        exact vacant p onto away q other (ActiveTarget.peer_eq_some.mpr follower)
    obtain ⟨p, q, crowds⟩ := crowds
    obtain ⟨wired, crowds⟩ := after.still irreflexive (P := Room.Crowds hub p q)
      (fun _ crowds still step => (crowds.step still step).1) star_symmetric still crowds
    obtain ⟨move, onto, _, moved⟩ := wired.heard irreflexive told hands
    have split : ¬ v.room.Held := (crowds.step onto moved).2
    simp only [Room.Held, not_forall] at split
    obtain ⟨x, y, target, lent⟩ := split
    exact ⟨x, y, ActiveTarget.peer_eq_some.mp target, fun own => lent (ActiveTarget.peer_eq_none.mpr own)⟩

theorem star_quiet (wired : n.Wired (star hub peers)) (sent : ∀ p ∈ peers, n.flight hub p = [])
    (received : ∀ p ∈ peers, n.flight p hub = []) : n.Quiet := by
  refine wired.quiet ?_
  rintro x y (⟨rfl, member⟩ | ⟨rfl, member⟩)
  · exact sent y member
  · exact received x member

theorem RaceFree.uncaptured {ops : List NetworkOp} (hub : MachineId)
    (uncaptured : ∀ op ∈ ops, ∀ a event os, op ≠ .captured a event os) :
    ∀ op ∈ ops, ∀ n : Network, n.RaceFree op ∧ n.Vacant hub op := by
  refine fun op member n => ⟨?_, ?_⟩
  · rintro p ⟨a, event, os, same, _⟩
    exact absurd same (uncaptured op member a event os)
  · rintro p ⟨a, event, os, same, _⟩
    exact absurd same (uncaptured op member a event os)

def tabletDeskLaptop : Network := assembled fun a =>
  if a = desk then
    [.incoming "tablet" (.filled 3) ⟨8⟩ ⟨100, 100⟩ [tablet],
     .dialled "laptop" (.filled 2) ⟨7⟩ ⟨100, 100⟩ .done [laptop, tablet]]
  else if a = laptop then [.incoming "desk" (.filled 1) ⟨7⟩ ⟨100, 100⟩ [desk]]
  else if a = tablet then [.dialled "desk" (.filled 1) ⟨8⟩ ⟨100, 100⟩ .done [desk]]
  else []

theorem desk_outside : desk ∉ ({laptop, tablet} : Set MachineId) := by
  simp only [Set.mem_insert_iff, Set.mem_singleton_iff]
  decide

theorem tabletDeskLaptop_ready : tabletDeskLaptop.Ready (star desk {laptop, tablet}) := by
  refine @assembled_ready _
    (fun a => if a = desk then {laptop, tablet} else if a = laptop then {desk}
      else if a = tablet then {desk} else ∅)
    (fun a b => if a = tablet ∨ b = tablet then ⟨8⟩ else ⟨7⟩) _ (fun a => ?_) (fun a b => ?_) star_symmetric
    fun a b => by simp only [or_comm]
  · by_cases first : a = desk
    · subst first
      decide +kernel
    · by_cases second : a = laptop
      · subst second
        decide +kernel
      · by_cases third : a = tablet
        · subst third
          decide +kernel
        · simp only [if_neg first, if_neg second, if_neg third]
          exact ⟨rfl, rfl, rfl, by simp⟩
  · have apart : laptop ≠ desk ∧ tablet ≠ desk ∧ tablet ≠ laptop := by decide
    obtain ⟨laptopDesk, tabletDesk, tabletLaptop⟩ := apart
    by_cases first : a = desk
    · simp [star, first, laptopDesk.symm, tabletDesk.symm]
    · by_cases second : a = laptop
      · simp [star, second, laptopDesk]
      · by_cases third : a = tablet
        · simp [star, third, tabletDesk, tabletLaptop]
        · simp [star, first, second, third]

theorem holder_at_home_crossed : ∃ ops m t,
    Reaches (guarded Step fun n op => n.RaceFree op ∧ n.Vacant desk op) tabletDeskLaptop ops m ∧
    Step m (.delivered desk laptop) t ∧ m.HandsOver (.delivered desk laptop) ∧
    t.active desk = .remote laptop ∧ t.active laptop = .here := by
  have ready := tabletDeskLaptop_ready
  have first : tabletDeskLaptop.RaceFree (.captured desk (.motion ⟨150, 0⟩) none) ∧
      tabletDeskLaptop.Vacant desk (.captured desk (.motion ⟨150, 0⟩) none) :=
    ⟨fun _ _ => ready.quiet, fun _ _ _ q _ target => nomatch (ready.active q).symm.trans target⟩
  have rest : ∀ op ∈ [NetworkOp.written desk laptop 1], ∀ n : Network, n.RaceFree op ∧ n.Vacant desk op :=
    RaceFree.uncaptured desk (by simp)
  obtain ⟨m, run, test⟩ := Reaches.of_any_guarded Step.of_run first rest
    (show ([.captured desk (.motion ⟨150, 0⟩) none, .written desk laptop 1].foldlM
        Network.run tabletDeskLaptop).any (fun m =>
          ((m.wire desk laptop).head?.bind ControlMessage.word).isSome ∧
          (m.run (.delivered desk laptop)).any (fun t => t.active desk = .remote laptop)) = true by decide +kernel)
  obtain ⟨head, last⟩ := of_decide_eq_true test
  obtain ⟨t, step, away⟩ := (Option.any_eq_true _ _).mp last
  have hands := HandsOver.of_head head
  exact ⟨_, m, t, run, step, hands, of_decide_eq_true away,
    (holder_at_home desk_outside ready).1 run step hands desk laptop (of_decide_eq_true away)⟩

/-- The tablet's cursor crosses onto the desk, and when the desk has heard, the desk's
own crosses onto the laptop: the tablet's input goes to a machine that sends its own
away. -/
theorem followed_hub_away : ∃ n hub peers, hub ∉ peers ∧ n.Ready (star hub peers) ∧ ∃ ops m op t,
    Reaches (guarded Step RaceFree) n ops m ∧ Step m op t ∧ m.HandsOver op ∧
    ∃ x y, t.active x = .remote y ∧ t.active y ≠ .here := by
  have ready := tabletDeskLaptop_ready
  have first : ∀ op ∈ [NetworkOp.written tablet desk 1, .delivered tablet desk], ∀ n : Network,
      n.RaceFree op ∧ n.Vacant desk op := RaceFree.uncaptured desk (by simp)
  have second : ∀ op ∈ [NetworkOp.written desk laptop 1], ∀ n : Network, n.RaceFree op ∧ n.Vacant desk op :=
    RaceFree.uncaptured desk (by simp)
  obtain ⟨m, run, test⟩ := Reaches.of_any_guarded Step.of_run
    (show tabletDeskLaptop.RaceFree (.captured tablet (.motion ⟨150, 0⟩) none) from fun _ _ => ready.quiet)
    (fun op member n => (first op member n).1)
    (show ([.captured tablet (.motion ⟨150, 0⟩) none, .written tablet desk 1, .delivered tablet desk].foldlM
        Network.run tabletDeskLaptop).any (fun m =>
          (m.flight desk laptop = [] ∧ m.flight desk tablet = []) ∧
          (m.flight laptop desk = [] ∧ m.flight tablet desk = []) ∧
          ([.captured desk (.motion ⟨150, 0⟩) none, .written desk laptop 1].foldlM Network.run m).any (fun m =>
            ((m.wire desk laptop).head?.bind ControlMessage.word).isSome ∧
            (m.run (.delivered desk laptop)).any (fun t =>
              t.active tablet = .remote desk ∧ t.active desk = .remote laptop))) = true by decide +kernel)
  obtain ⟨sent, received, later⟩ := of_decide_eq_true test
  have wired := ready.toWired.along (star_irreflexive desk_outside) run.unguarded
  have quiet : m.Quiet := star_quiet wired (by simpa using sent) (by simpa using received)
  obtain ⟨m', run', test'⟩ := Reaches.of_any_guarded Step.of_run
    (show m.RaceFree (.captured desk (.motion ⟨150, 0⟩) none) from fun _ _ => quiet)
    (fun op member n => (second op member n).1) later
  obtain ⟨head, last⟩ := of_decide_eq_true test'
  obtain ⟨t, step, away⟩ := (Option.any_eq_true _ _).mp last
  obtain ⟨follows, lent⟩ := of_decide_eq_true away
  refine ⟨tabletDeskLaptop, desk, _, desk_outside, ready, _, m', _, t, run.trans run', step, .of_head head,
    tablet, desk, follows, fun own => nomatch own.symm.trans lent⟩

end Network
end Omnipresent
