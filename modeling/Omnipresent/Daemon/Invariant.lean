import Omnipresent.Daemon.Desktop

/-! Sessions, links, desktop, cursor and suppression agree in every state a daemon
reaches: whoever has the input has a link, and the cursor is on its screen. -/
namespace Omnipresent

def ActiveTarget.holder (localMachine : MachineId) : ActiveTarget → MachineId
  | here => localMachine
  | remote peer => peer

namespace Shared

/-- What all operations keep in step. -/
structure Sound (s : Shared) : Prop where
  sessions : s.state.sessions.Consistent
  identity : s.state.sessions.localMachine = s.localMachine
  linked : ∀ peer, (s.state.links.lookup peer).map (·.session) = s.state.sessions.byPeer.lookup peer
  laidOut : s.LaidOut
  cursor : s.state.cursor.machine = s.state.sessions.active.holder s.localMachine
  suppress : s.suppress = s.state.sessions.active.isRemote

variable {s t : Shared}

namespace Sound

theorem mem_links (sound : s.Sound) (peer : MachineId) :
    peer ∈ s.state.links ↔ peer ∈ s.state.sessions.byPeer := by
  rw [← Finmap.lookup_isSome, ← Finmap.lookup_isSome, ← sound.linked, Option.isSome_map]

theorem remote_linked (sound : s.Sound) (active : s.state.sessions.active = .remote peer) :
    peer ∈ s.state.links :=
  (sound.mem_links peer).mpr (sound.sessions.active active)

theorem screen_linked (sound : s.Sound) (linked : peer = s.localMachine ∨ peer ∈ s.state.links) :
    ∃ screen, s.state.layout.screen peer = some screen := by
  rw [sound.laidOut.screens, screenOf]
  rcases linked with own | member
  · exact ⟨s.localScreen, if_pos own⟩
  · obtain ⟨link, found⟩ := Finmap.mem_iff.mp member
    simp only [found, Option.map_some]
    split <;> exact ⟨_, rfl⟩

theorem screen_cursor (sound : s.Sound) :
    ∃ here, s.state.layout.screen s.state.cursor.machine = some here := by
  refine sound.screen_linked ?_
  rw [sound.cursor]
  cases active : s.state.sessions.active with
  | here => exact .inl rfl
  | remote peer => exact .inr (sound.remote_linked active)

theorem neighbor_linked (sound : s.Sound) (found : s.state.layout.neighbor machine edge = some peer) :
    peer = s.localMachine ∨ peer ∈ s.state.links := by
  by_cases own : machine = s.localMachine
  · exact .inr (sound.laidOut.outward (own ▸ found))
  · exact .inl (sound.laidOut.homeward found own)

theorem syncSuppression_eq (sound : s.Sound) : s.syncSuppression = s := by
  rw [Shared.syncSuppression, ← sound.suppress]

theorem of_unmoved (sound : s.Sound) (unmoved : s.Unmoved t) : t.Sound where
  sessions := unmoved.sessions ▸ sound.sessions
  identity := by rw [unmoved.sessions, unmoved.localMachine, sound.identity]
  linked peer := by rw [unmoved.session, unmoved.sessions, sound.linked]
  laidOut := unmoved.laidOut sound.laidOut
  cursor := by rw [unmoved.cursor, unmoved.sessions, unmoved.localMachine, sound.cursor]
  suppress := by rw [unmoved.suppress, unmoved.sessions, sound.suppress]

theorem retarget (sound : s.Sound) (target : ActiveTarget) (position : Point)
    (linked : ∀ {peer}, target = .remote peer → peer ∈ s.state.links) :
    { s with
      state.sessions := s.state.sessions.setActive target
      state.cursor := ⟨target.holder s.localMachine, position⟩ }.syncSuppression.Sound where
  sessions := sound.sessions.setActive fun remote => (sound.mem_links _).mp (linked remote)
  identity := (SessionManager.setActive_localMachine _ _).trans sound.identity
  linked peer := (sound.linked peer).trans (by simp [Shared.syncSuppression])
  laidOut := ⟨sound.laidOut.screens, sound.laidOut.homeward, sound.laidOut.outward⟩
  cursor := by simp [Shared.syncSuppression]
  suppress := rfl

end Sound

/-- The state a movement starts from: while input is local the OS's position is
adopted first. -/
def tracked (self : Shared) (os : Option (Int32 × Int32)) : Shared :=
  match self.state.sessions.active with
  | .here => self.syncCursorToOs os
  | .remote _ => self

/-- The cursor moves on its screen; a peer it is on hears where it is now. -/
def rest (self : Shared) (position : Point) : Shared :=
  let moved := { self with state.cursor.position := position }
  match self.state.sessions.active with
  | .here => moved
  | .remote peer => moved.forwardPosition peer

/-- The cursor crosses onto a machine, this one or a peer, and input follows. -/
def cross (self : Shared) (peer : MachineId) (entry : Point) : Shared :=
  let target := if peer = self.localMachine then .here else .remote peer
  { self with
    state.sessions := self.state.sessions.setActive target
    state.cursor := ⟨peer, entry⟩ }.placeCursorAfterCrossing ⟨peer, entry⟩

/-- A move on the desktop that the desktop answers with this crossing. -/
def Crossed (self : Shared) (scaled : MouseDelta) (peer : MachineId) (entry : Point) : Prop :=
  self.state.layout.advance self.state.cursor scaled = some (.ok ⟨⟨peer, entry⟩, some ⟨peer, entry⟩⟩)

/-- Everything one captured event can do. -/
inductive Captures (s : Shared) (os : Option (Int32 × Int32)) : InputEvent → Shared → Prop where
  | idle : s.state.sessions.active = .here → (∀ delta, event ≠ .motion delta) →
      Captures s os event s
  | forwarded : s.state.sessions.active = .remote peer → (∀ delta, event ≠ .motion delta) →
      Captures s os event (s.forwardTo peer event)
  | stays : (s.tracked os).scaledDelta delta = some scaled →
      (∀ edge peer, ¬ (s.tracked os).state.layout.Exit (s.tracked os).state.cursor scaled edge peer) →
      (∀ here, (s.tracked os).state.layout.screen (s.tracked os).state.cursor.machine = some here →
        position.Inside here) →
      Captures s os (.motion delta) ((s.tracked os).rest position)
  | crosses : (s.tracked os).scaledDelta delta = some scaled →
      (s.tracked os).Crossed scaled peer entry →
      (s.tracked os).state.layout.Exit (s.tracked os).state.cursor scaled edge peer →
      (∀ there, (s.tracked os).state.layout.screen peer = some there →
        0 < there.width.toNat → 0 < there.height.toNat → entry.Inside there) →
      Captures s os (.motion delta) ((s.tracked os).cross peer entry).syncSuppression.notifyChange

theorem Sound.tracked (sound : s.Sound) (os : Option (Int32 × Int32)) : (s.tracked os).Sound := by
  rw [Shared.tracked]
  cases active : s.state.sessions.active with
  | remote peer => exact sound
  | here =>
    cases os with
    | none => exact sound
    | some xy =>
      refine ⟨sound.sessions, sound.identity, sound.linked, ?_, ?_, sound.suppress⟩
      · exact ⟨sound.laidOut.screens, sound.laidOut.homeward, sound.laidOut.outward⟩
      · simp only [syncCursorToOs, active, ActiveTarget.holder]

theorem tracked_active (s : Shared) (os : Option (Int32 × Int32)) :
    (s.tracked os).state.sessions = s.state.sessions := by
  rw [Shared.tracked]
  cases s.state.sessions.active with
  | remote peer => rfl
  | here => cases os <;> rfl

/-- In a sound state a crossing reported by the desktop is always taken. -/
theorem Sound.handleCrossing (sound : s.Sound) (found : s.state.layout.neighbor machine edge = some peer)
    (entry : Point) : s.state.sessions.handleCrossing ⟨peer, entry⟩ =
      (s.state.sessions.setActive (if peer = s.localMachine then .here else .remote peer), .ok ()) := by
  rw [SessionManager.handleCrossing]
  rw [sound.identity]
  by_cases own : peer = s.localMachine
  · rw [if_pos own, if_pos own]
  · have indexed : peer ∈ s.state.sessions.byPeer :=
      (sound.mem_links peer).mp ((sound.neighbor_linked found).resolve_left own)
    rw [if_neg own, if_neg own, if_neg (not_not.mpr indexed)]

theorem Sound.advanceCursor (sound : s.Sound) (moved : s.advanceCursor delta = some (t, crossed)) :
    ∃ scaled, s.scaledDelta delta = some scaled ∧
      ((crossed = false ∧ ∃ position, t = { s with state.cursor.position := position } ∧
        (∀ edge peer, ¬ s.state.layout.Exit s.state.cursor scaled edge peer) ∧
        ∀ here, s.state.layout.screen s.state.cursor.machine = some here → position.Inside here) ∨
      (crossed = true ∧ ∃ edge peer entry, t = s.cross peer entry ∧ s.Crossed scaled peer entry ∧
        s.state.layout.Exit s.state.cursor scaled edge peer ∧
        ∀ there, s.state.layout.screen peer = some there →
          0 < there.width.toNat → 0 < there.height.toNat → entry.Inside there)) := by
  rw [Shared.advanceCursor] at moved
  cases units : s.scaledDelta delta with
  | none => simp [units] at moved
  | some scaled =>
    refine ⟨scaled, rfl, ?_⟩
    obtain ⟨here, shown⟩ := sound.screen_cursor
    simp only [units, Option.bind_eq_bind, Option.bind_some] at moved
    have spec := VirtualLayout.advance_spec s.state.layout s.state.cursor scaled
    unfold Crossed
    generalize s.state.layout.advance s.state.cursor scaled = result at spec moved ⊢
    cases spec with
    | unknown lost => simp [lost] at shown
    | lost exit unknown =>
      obtain ⟨_, _, _, linked⟩ := exit
      obtain ⟨there, known⟩ := sound.screen_linked (sound.neighbor_linked linked)
      simp [unknown] at known
    | @crosses edge peer there entry exit known inside =>
      obtain ⟨_, _, _, linked⟩ := id exit
      simp only [Option.bind_some, sound.handleCrossing linked, Option.some.injEq, Prod.mk.injEq] at moved
      refine .inr ⟨moved.2.symm, edge, peer, entry, moved.1.symm, rfl, exit, ?_⟩
      intro there' known'
      obtain rfl : there = there' := Option.some.inj (known.symm.trans known')
      exact inside
    | @stays here' position known inside blocked =>
      simp only [Option.bind_some, Option.some.injEq, Prod.mk.injEq] at moved
      refine .inl ⟨moved.2.symm, position, moved.1.symm, blocked, ?_⟩
      intro other known'
      obtain rfl : here' = other := Option.some.inj (known.symm.trans known')
      exact inside
    | panics => simp at moved

theorem Sound.rest (sound : s.Sound) (position : Point) : (s.rest position).Sound := by
  have moved : Sound { s with state.cursor.position := position } :=
    ⟨sound.sessions, sound.identity, sound.linked,
      ⟨sound.laidOut.screens, sound.laidOut.homeward, sound.laidOut.outward⟩, sound.cursor, sound.suppress⟩
  rw [Shared.rest]
  cases s.state.sessions.active with
  | here => exact moved
  | remote peer => exact moved.of_unmoved (.forwardTo _ peer _)

theorem Sound.cross (sound : s.Sound) (linked : peer = s.localMachine ∨ peer ∈ s.state.links)
    (entry : Point) : (s.cross peer entry).syncSuppression.Sound := by
  rw [Shared.cross]
  have retargeted := sound.retarget (if peer = s.localMachine then .here else .remote peer) entry (by
    intro other remote
    split at remote
    · simp at remote
    · cases remote
      exact linked.resolve_left ‹_›)
  have holder : (if peer = s.localMachine then ActiveTarget.here else .remote peer).holder
      s.localMachine = peer := by
    split
    · exact Eq.symm ‹_›
    · rfl
  rw [holder] at retargeted
  have placed := Unmoved.placeCursorAfterCrossing
    { s with
      state.sessions := s.state.sessions.setActive (if peer = s.localMachine then .here else .remote peer)
      state.cursor := ⟨peer, entry⟩ } ⟨peer, entry⟩
  refine retargeted.of_unmoved ⟨placed.sessions, placed.layout, placed.cursor, ?_, placed.localMachine,
    placed.localScreen, placed.links⟩
  exact congrArg (fun sessions => sessions.active.isRemote) placed.sessions

theorem Captures.sound (captures : Captures s os event t) (sound : s.Sound) : t.Sound := by
  cases captures with
  | idle => exact sound
  | forwarded => exact sound.of_unmoved (.forwardTo s _ _)
  | stays => exact (sound.tracked os).rest _
  | crosses _ _ exit _ =>
    obtain ⟨_, _, _, found⟩ := exit
    have tracked := sound.tracked os
    exact (tracked.cross (tracked.neighbor_linked found) _).of_unmoved (.notifyChange _)

/-- What `routeCaptured` answers in a sound state, when it does not panic. -/
theorem Sound.captures (sound : s.Sound) (routed : s.routeCaptured event os = some t) :
    Captures s os event t := by
  have motion : ∀ delta, event = .motion delta → ∃ u crossed,
      (s.tracked os).advanceCursor delta = some (u, crossed) ∧
      t = (if crossed then u.syncSuppression.notifyChange
        else match s.state.sessions.active with
          | .here => u.syncSuppression
          | .remote peer => (u.forwardPosition peer).syncSuppression) := by
    rintro delta rfl
    unfold routeCaptured at routed
    unfold Shared.tracked
    cases active : s.state.sessions.active with
    | here =>
      simp only [active, Option.bind_eq_bind, Option.bind_eq_some_iff, Option.some.injEq] at routed ⊢
      obtain ⟨⟨u, crossed⟩, moved, rfl⟩ := routed
      exact ⟨u, crossed, moved, by cases crossed <;> rfl⟩
    | remote peer =>
      simp only [active, Option.bind_eq_bind, Option.bind_eq_some_iff, Option.some.injEq] at routed ⊢
      obtain ⟨⟨u, crossed⟩, moved, _, rfl, rfl⟩ := routed
      exact ⟨u, crossed, moved, by cases crossed <;> rfl⟩
  by_cases isMotion : ∃ delta, event = .motion delta
  · obtain ⟨delta, rfl⟩ := isMotion
    obtain ⟨u, crossed, moved, rfl⟩ := motion delta rfl
    obtain ⟨scaled, units, ⟨rfl, position, rfl, blocked, inside⟩ |
      ⟨rfl, edge, peer, entry, rfl, answer, exit, inside⟩⟩ := (sound.tracked os).advanceCursor moved
    · have stays := Captures.stays units blocked inside
      have rested := ((sound.tracked os).rest position).syncSuppression_eq
      rw [← rested] at stays
      convert stays using 1
      simp only [Shared.rest, tracked_active]
      cases s.state.sessions.active <;> rfl
    · exact .crosses units answer exit inside
  · have other : ∀ delta, event ≠ .motion delta := fun delta same => isMotion ⟨delta, same⟩
    unfold routeCaptured at routed
    cases active : s.state.sessions.active with
    | here =>
      have idle : s.syncSuppression = t := by
        cases event <;> simp_all
      rw [← idle, sound.syncSuppression_eq]
      exact .idle active other
    | remote peer =>
      have forwarded : (s.forwardTo peer event).syncSuppression = t := by
        cases event <;> simp_all
      rw [← forwarded, (sound.of_unmoved (.forwardTo s peer event)).syncSuppression_eq]
      exact .forwarded active other

end Shared
end Omnipresent
