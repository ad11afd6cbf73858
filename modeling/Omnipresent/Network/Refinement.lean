import Omnipresent.Network.State

/-! A network of daemons is a room of machines sharing one cursor: every operation
either leaves the room as it is or makes a move in it. -/
namespace Omnipresent
open Transition

theorem Reachable.next (reachable : Reachable s) (step : Omnipresent.Step s op t) : Reachable t := by
  obtain ⟨localMachine, localScreen, trust, sink, placements, modifierSwaps, ops, run⟩ := reachable
  exact ⟨localMachine, localScreen, trust, sink, placements, modifierSwaps, _, run.next step⟩

namespace Network
variable {n m : Network} {linked : MachineId → MachineId → Prop}

/-- The move an operation makes in the room. -/
inductive Makes (n : Network) : NetworkOp → Move MachineId → Prop where
  | out {a p : MachineId} {event : InputEvent} {os : Option (Int32 × Int32)} :
      (n.daemon a).Crosses event os p → p ≠ a → Makes n (.captured a event os) (.out a p)
  | home {a : MachineId} {event : InputEvent} {os : Option (Int32 × Int32)} :
      (n.daemon a).Crosses event os a → Makes n (.captured a event os) (.home a)
  | read {sender a : MachineId} {message : ControlMessage} {rest : List ControlMessage} :
      n.wire sender a = message :: rest → message.word ≠ none →
      Makes n (.delivered sender a) (.read sender a)

theorem Makes.unique (first : n.Makes op move) (second : n.Makes op move') : move = move' := by
  cases first with
  | out crosses away =>
    cases second with
    | out crosses' => rw [crosses.unique crosses']
    | home crosses' => exact absurd (crosses.unique crosses') away
  | home crosses =>
    cases second with
    | out crosses' away => exact absurd (crosses'.unique crosses) away
    | home => rfl
  | read =>
    cases second with
    | read => rfl

theorem withDaemon_daemon (n : Network) (machine : MachineId) (shared : Shared) (x : MachineId) :
    (n.withDaemon machine shared).daemon x = if x = machine then shared else n.daemon x :=
  Function.update_apply ..

theorem withWire_wire (n : Network) (sender receiver : MachineId) (messages : List ControlMessage)
    (x y : MachineId) : (n.withWire sender receiver messages).wire x y =
      if x = sender ∧ y = receiver then messages else n.wire x y := by
  simp only [withWire, Function.update_apply]
  by_cases first : x = sender
  · subst first
    simp only [if_true, true_and, Function.update_apply]
  · simp [first]

theorem Wired.sound (wired : n.Wired linked) (a : MachineId) : (n.daemon a).Sound :=
  (wired.reachable a).sound

theorem withDaemon_session (keeps : (n.daemon a).Keeps t) (x y : MachineId) :
    ((n.withDaemon a t).link x y).map (·.session) = (n.link x y).map (·.session) := by
  rw [link, withDaemon_daemon]
  split
  · subst x
    exact keeps.session y
  · rfl

theorem Wired.withDaemon (wired : n.Wired linked) (keeps : (n.daemon a).Keeps t) (reachable : Reachable t) :
    (n.withDaemon a t).Wired linked where
  reachable x := by
    rw [withDaemon_daemon]
    split
    · exact reachable
    · exact wired.reachable x
  own x := by
    rw [withDaemon_daemon]
    split
    · subst x
      exact keeps.localMachine.trans (wired.own a)
    · exact wired.own x
  linked x y := by
    have same := congrArg Option.isSome (withDaemon_session keeps x y)
    simp only [link, Option.isSome_map] at same
    rw [← wired.linked, ← Finmap.lookup_isSome, ← Finmap.lookup_isSome, same]
  session x y := by
    rw [withDaemon_session keeps, withDaemon_session keeps, wired.session]
  wire := by
    intro x y message member
    obtain ⟨link, found, within⟩ := wired.wire member
    have same := withDaemon_session keeps x y
    rw [found, Option.map_some, Option.map_eq_some_iff] at same
    obtain ⟨link', found', same⟩ := same
    exact ⟨link', found', same ▸ within⟩
  endless x y := by
    rw [withDaemon_daemon]
    split
    · subst x
      exact fun member => wired.endless a y (keeps.endless y member)
    · exact wired.endless x y

theorem Wired.withWire {carrier : PeerLink} (wired : n.Wired linked) (found : n.link a b = some carrier)
    (within : ∀ message ∈ messages, message.Within carrier.session) :
    (n.withWire a b messages).Wired linked where
  reachable := wired.reachable
  own := wired.own
  linked := wired.linked
  session := wired.session
  wire := by
    intro x y message member
    rw [withWire_wire] at member
    split at member
    · obtain ⟨rfl, rfl⟩ := ‹x = a ∧ y = b›
      exact ⟨carrier, found, within message member⟩
    · exact wired.wire member
  endless := wired.endless

/-- What an operation comes to in the room: nothing, or the move it makes. -/
inductive Mirrors (linked : MachineId → MachineId → Prop) (n : Network) (op : NetworkOp) (m : Network) :
    Prop where
  | silent : (∀ move, ¬ n.Makes op move) → m.room = n.room → Mirrors linked n op m
  | moves (move : Move MachineId) : n.Makes op move → Room.Step linked n.room move m.room →
      Mirrors linked n op m

theorem withDaemon_active (n : Network) (machine : MachineId) (shared : Shared) (x : MachineId) :
    (n.withDaemon machine shared).active x =
      if x = machine then shared.state.sessions.active else n.active x := by
  rw [active, withDaemon_daemon]
  split <;> rfl

theorem withDaemon_flight (spoken : (n.daemon a).Says t said) (x y : MachineId) :
    (n.withDaemon a t).flight x y = if x = a then n.flight x y ++ said y else n.flight x y := by
  rw [flight, withDaemon_daemon]
  split
  · subst x
    rw [spoken.words, ← List.append_assoc]
    rfl
  · rfl

theorem room_stays (stays : (n.daemon a).Stays event os t) : (n.withDaemon a t).room = n.room := by
  apply Room.ext
  · funext x
    simp only [room, withDaemon_active, stays.active]
    split
    · subst x
      rfl
    · rfl
  · funext x y
    simp only [room, withDaemon_flight stays.said, List.append_nil, ite_self]

theorem Wired.room_home (wired : n.Wired linked) (home : (n.daemon a).ComesHome event os t) :
    (n.withDaemon a t).room = n.room.home linked a := by
  apply Room.ext
  · funext x
    simp only [room, withDaemon_active, home.active, Room.home, Room.say_target, Room.turn_target]
    split <;> rfl
  · funext x y
    have member := wired.linked a y
    simp only [room, withDaemon_flight home.said, Room.home, Room.say_flight, Room.turn_flight]
    by_cases first : x = a <;> by_cases second : linked a y <;> simp [first, second, member]

theorem room_out (out : (n.daemon a).GoesOut event os p t) : (n.withDaemon a t).room = n.room.out a p := by
  apply Room.ext
  · funext x
    simp only [room, withDaemon_active, out.active, Room.out, Room.say_target, Room.turn_target]
    split <;> rfl
  · funext x y
    simp only [room, withDaemon_flight out.said, Room.out, Room.say_flight, Room.turn_flight]
    by_cases first : x = a <;> by_cases second : y = p <;> simp [first, second]

theorem Wired.captured (wired : n.Wired linked) (irreflexive : ∀ x, ¬ linked x x)
    (step : Step n (.captured a event os) m) :
    m.Wired linked ∧ Mirrors linked n (.captured a event os) m := by
  simp only [Step, run, Option.bind_eq_bind, Option.bind_eq_some_iff, Option.some.injEq] at step
  obtain ⟨t, routed, rfl⟩ := step
  have sound := wired.sound a
  have own := wired.own a
  have apart : (n.daemon a).localMachine ∉ (n.daemon a).state.links := by
    rw [own, wired.linked]
    exact irreflexive a
  have reachable := (wired.reachable a).next (t := t) ⟨routed, fun order walked => nomatch walked⟩
  obtain stays | home | ⟨p, out⟩ := sound.handsOver apart (sound.captures routed)
  · refine ⟨wired.withDaemon stays.said.toKeeps reachable, .silent (fun move makes => ?_) (room_stays stays)⟩
    cases makes with
    | out crosses => exact stays.inside _ crosses
    | home crosses => exact stays.inside _ crosses
  · have crosses := home.crosses
    rw [own] at crosses
    refine ⟨wired.withDaemon home.said.toKeeps reachable, .moves (.home a) (.home crosses) ?_⟩
    rw [wired.room_home home]
    exact .home (mt ActiveTarget.peer_eq_none.mp home.before)
  · have away : p ≠ a := by
      rintro rfl
      exact irreflexive p ((wired.linked p p).mp out.linked)
    refine ⟨wired.withDaemon out.said.toKeeps reachable, .moves (.out a p) (.out out.crosses away) ?_⟩
    rw [room_out out]
    exact .out (ActiveTarget.peer_eq_none.mpr out.before) ((wired.linked a p).mp out.linked)

theorem withDaemon_withWire (n : Network) (machine : MachineId) (shared : Shared) (sender receiver : MachineId)
    (messages : List ControlMessage) : (n.withDaemon machine shared).withWire sender receiver messages =
      (n.withWire sender receiver messages).withDaemon machine shared := rfl

theorem withWire_flight (n : Network) (sender receiver : MachineId) (messages : List ControlMessage)
    (x y : MachineId) : (n.withWire sender receiver messages).flight x y =
      if x = sender ∧ y = receiver then
        messages.filterMap ControlMessage.word ++ (n.daemon sender).words receiver
      else n.flight x y := by
  rw [flight, withWire_wire]
  split
  · obtain ⟨rfl, rfl⟩ := ‹x = sender ∧ y = receiver›
    rfl
  · rfl

theorem Wired.write {carrier : PeerLink} (wired : n.Wired linked) (found : n.link a b = some carrier)
    (within : ∀ message ∈ messages, message.Within carrier.session) :
    (n.withWire a b (n.wire a b ++ messages)).Wired linked := by
  refine wired.withWire found fun message member => ?_
  rcases List.mem_append.mp member with earlier | new
  · obtain ⟨link', found', within⟩ := wired.wire earlier
    cases Option.some.inj (found.symm.trans found')
    exact within
  · exact within message new

theorem batch_words (session : SessionId) (commands : List PeerCommand) :
    ((coalesceMotion commands).filterMap (·.message session)).filterMap ControlMessage.word =
      commands.filterMap PeerCommand.word := by
  rw [List.filterMap_filterMap, coalesceMotion_filterMap _ fun _ => rfl]
  simp only [PeerCommand.message_word]

/-- Writing to the stream only takes the words further along their way. -/
theorem room_written {carrier : PeerLink} (found : n.link a b = some carrier) (count : Nat) :
    ((n.withDaemon a ((n.daemon a).takeCommands b count)).withWire a b (n.wire a b ++
      (coalesceMotion (carrier.commands.take count)).filterMap (·.message carrier.session))).room = n.room := by
  have queued : (n.daemon a).queued b = carrier.commands := by
    rw [Shared.queued, show (n.daemon a).state.links.lookup b = _ from found]
    rfl
  apply Room.ext
  · funext x
    simp only [room, withDaemon_withWire, withDaemon_active]
    split
    · subst x
      rfl
    · rfl
  · funext x y
    simp only [room, withWire_flight]
    split
    · obtain ⟨rfl, rfl⟩ := ‹x = a ∧ y = b›
      rw [withDaemon_daemon, if_pos rfl, Shared.words, Shared.queued_takeCommands, if_pos rfl, queued,
        List.filterMap_append, batch_words, List.append_assoc, ← List.filterMap_append,
        List.take_append_drop, flight, Shared.words, queued]
    · rw [flight, withDaemon_daemon]
      split
      · subst x
        have other : y ≠ b := fun same => ‹¬ (a = a ∧ y = b)› ⟨rfl, same⟩
        rw [Shared.words, Shared.queued_takeCommands, if_neg other]
        rfl
      · rfl

theorem Wired.written (wired : n.Wired linked) (step : Step n (.written a b count) m) :
    m.Wired linked ∧ Mirrors linked n (.written a b count) m := by
  simp only [Step, run, Option.bind_eq_bind, Option.bind_eq_some_iff] at step
  obtain ⟨link, found, t, taken, step⟩ := step
  obtain rfl : (n.daemon a).takeCommands b count = t := Option.some.inj taken
  split at step
  · contradiction
  · rename_i endless
    obtain rfl := Option.some.inj step
    have reachable := (wired.reachable a).next ⟨taken, fun order walked => nomatch walked⟩
    refine ⟨?_, .silent nofun (room_written found count)⟩
    rw [withDaemon_withWire]
    refine Wired.withDaemon (wired.write found fun message new => ?_) (.takeCommands _ _ _) reachable
    obtain ⟨command, listed, sent⟩ := List.mem_filterMap.mp new
    exact command.message_within (fun same => endless (same ▸ listed)) sent

theorem Wired.heartbeat (wired : n.Wired linked) (step : Step n (.heartbeat a b) m) :
    m.Wired linked ∧ Mirrors linked n (.heartbeat a b) m := by
  simp only [Step, run, Option.bind_eq_bind, Option.bind_eq_some_iff, Option.some.injEq] at step
  obtain ⟨link, found, rfl⟩ := step
  refine ⟨wired.write found fun message new => ?_, .silent nofun ?_⟩
  · rw [List.mem_singleton.mp new]
    rfl
  · apply Room.ext
    · rfl
    · funext x y
      simp only [room, withWire_flight]
      split
      · obtain ⟨rfl, rfl⟩ := ‹x = a ∧ y = b›
        rw [List.filterMap_append, flight]
        exact congrArg (· ++ _) (List.append_nil _)
      · rfl

/-- The room once a machine has read a message and said nothing: what is left on
that stream, and where its input goes now. -/
theorem room_heard (n : Network) (rest : List ControlMessage) (silent : (n.daemon b).Says t fun _ => []) :
    ((n.withDaemon b t).withWire a b rest).room =
      (n.room.turn b t.state.sessions.active.peer).hear a b
        (rest.filterMap ControlMessage.word ++ (n.daemon a).words b) := by
  rw [withDaemon_withWire]
  apply Room.ext
  · funext x
    simp only [room, withDaemon_active, Room.hear_target, Room.turn_target]
    split <;> rfl
  · funext x y
    simp only [room, withDaemon_flight (n := n.withWire a b rest) silent, List.append_nil, ite_self,
      withWire_flight, Room.hear_flight, Room.turn_flight]
    by_cases same : x = a ∧ y = b <;> simp [same]

theorem turn_hear_same {room : Room MachineId} (target : room.target b = after) (flight : room.flight a b = rest) :
    (room.turn b after).hear a b rest = room := by
  apply Room.ext
  · funext x
    simp only [Room.hear_target, Room.turn_target]
    split
    · subst x
      exact target.symm
    · rfl
  · funext x y
    simp only [Room.hear_flight, Room.turn_flight]
    split
    · obtain ⟨rfl, rfl⟩ := ‹x = a ∧ y = b›
      exact flight.symm
    · rfl

/-- Reading the stream: a word on it is heard, and a heartbeat passes. -/
theorem Wired.delivered (wired : n.Wired linked) (step : Step n (.delivered a b) m) :
    m.Wired linked ∧ Mirrors linked n (.delivered a b) m := by
  unfold Step run at step
  dsimp only at step
  split at step
  · contradiction
  · contradiction
  · rename_i message rest _ wire
    simp only [Option.bind_eq_bind, Option.bind_eq_some_iff, Option.some.injEq] at step
    obtain ⟨link, found, t, heard, rfl⟩ := step
    obtain rfl : (n.daemon b).signalling a link.session message = t := Option.some.inj heard
    have reachable := (wired.reachable b).next ⟨heard, fun order walked => nomatch walked⟩
    obtain ⟨links, localMachine⟩ := Shared.signalling_links (n.daemon b) a link.session message
    have silent := Shared.Says.nothing links localMachine
    -- The stream and the link are of one session.
    obtain ⟨link', found', same⟩ : ∃ link', n.link a b = some link' ∧ link'.session = link.session := by
      have same := wired.session a b
      rwa [found, Option.map_some, Option.map_eq_some_iff] at same
    have within : ∀ message ∈ n.wire a b, message.Within link'.session := by
      intro message member
      obtain ⟨other, known, within⟩ := wired.wire member
      cases Option.some.inj (found'.symm.trans known)
      exact within
    have heeded := (wired.sound b).signalling_active (Finmap.mem_of_lookup_eq_some found)
      (same ▸ within message (by simp [wire]))
    constructor
    · rw [withDaemon_withWire]
      refine Wired.withDaemon (wired.withWire found' fun message later => ?_) silent.toKeeps reachable
      exact within message (by simp [wire, later])
    · have room := room_heard (a := a) n rest silent
      rw [heeded] at room
      cases word : message.word with
      | none =>
        refine .silent (fun move makes => ?_) ?_
        · cases makes with
          | read wire' heard =>
            obtain ⟨rfl, rfl⟩ := List.cons.inj (wire.symm.trans wire')
            exact heard word
        · rw [room, word]
          refine turn_hear_same rfl ?_
          simp only [Network.room, flight, wire, List.filterMap_cons, word]
      | some word' =>
        refine .moves (.read a b) (.read wire (by simp [word])) ?_
        rw [room, word]
        refine .read ?_
        simp only [Network.room, flight, wire, List.filterMap_cons, word, List.cons_append]

/-- Every operation mirrors a move or nothing, and leaves the sessions wired. -/
theorem Wired.step (wired : n.Wired linked) (irreflexive : ∀ x, ¬ linked x x) (step : Step n op m) :
    m.Wired linked ∧ Mirrors linked n op m := by
  cases op with
  | captured => exact wired.captured irreflexive step
  | written => exact wired.written step
  | heartbeat => exact wired.heartbeat step
  | delivered => exact wired.delivered step

theorem Wired.along (wired : n.Wired linked) (irreflexive : ∀ x, ¬ linked x x)
    (run : Reaches Step n ops m) : m.Wired linked :=
  run.invariant (fun wired step => (wired.step irreflexive step).1) wired

theorem Wired.flight_linked (wired : n.Wired linked) (busy : n.flight a b ≠ []) : linked a b := by
  rw [← wired.linked]
  by_contra absent
  have silent : n.link a b = none := Finmap.lookup_eq_none.mpr absent
  refine busy (List.append_eq_nil_iff.mpr ⟨?_, ?_⟩)
  · have empty : n.wire a b = [] := List.eq_nil_iff_forall_not_mem.mpr fun message member => by
      obtain ⟨link, found, _⟩ := wired.wire member
      exact nomatch silent.symm.trans found
    rw [empty, List.filterMap_nil]
  · rw [Shared.words, Shared.queued, show (n.daemon a).state.links.lookup b = none from silent]
    rfl

theorem Wired.quiet (wired : n.Wired linked) (arrived : ∀ a b, linked a b → n.flight a b = []) : n.Quiet := by
  intro a b
  by_contra busy
  exact busy (arrived a b (wired.flight_linked busy))

/-- A guarded run of the network is a guarded run of the room. -/
theorem Wired.refines (wired : n.Wired linked) (irreflexive : ∀ x, ¬ linked x x)
    {allowed : Network → NetworkOp → Prop} {allowed' : Room MachineId → Move MachineId → Prop}
    (guards : ∀ {n op move}, n.Makes op move → allowed n op → allowed' n.room move)
    (run : Reaches (guarded Step allowed) n ops m) :
    m.Wired linked ∧ ∃ moves, Reaches (guarded (Room.Step linked) allowed') n.room moves m.room := by
  have matched : ∀ {n op m room}, n.Wired linked ∧ n.room = room → guarded Step allowed n op m →
      ∃ room', (m.Wired linked ∧ m.room = room') ∧
        (room' = room ∨ ∃ move, guarded (Room.Step linked) allowed' room move room') := by
    rintro n op m room ⟨wired, rfl⟩ ⟨allows, step⟩
    obtain ⟨after, mirrors⟩ := wired.step irreflexive step
    refine ⟨m.room, ⟨after, rfl⟩, ?_⟩
    cases mirrors with
    | silent _ same => exact .inl same
    | moves move makes moved => exact .inr ⟨move, guards makes allows, moved⟩
  obtain ⟨room, moves, ⟨after, rfl⟩, path⟩ :=
    run.simulates (R := fun n room => n.Wired linked ∧ n.room = room) matched ⟨wired, rfl⟩
  exact ⟨after, moves, path⟩

/-- Input only goes, and words only travel, where there is a session. -/
theorem Wired.connected (wired : n.Wired linked) (symmetric : ∀ {a b}, linked a b → linked b a) :
    n.room.Connected linked := by
  refine ⟨fun a b target => ?_, fun busy => symmetric (wired.flight_linked busy)⟩
  rw [← wired.linked]
  exact (wired.sound a).remote_linked (ActiveTarget.peer_eq_some.mp target)

theorem HandsOver.makes (hands : n.HandsOver op) : ∃ sender a, n.Makes op (.read sender a) := by
  obtain ⟨sender, a, message, rest, rfl, wire, word⟩ := hands
  exact ⟨sender, a, .read wire word⟩

theorem Wired.heard (wired : n.Wired linked) (irreflexive : ∀ x, ¬ linked x x) (step : Step n op m)
    (hands : n.HandsOver op) :
    ∃ move, move.onto = none ∧ n.Makes op move ∧ Room.Step linked n.room move m.room := by
  obtain ⟨sender, a, makes⟩ := hands.makes
  cases (wired.step irreflexive step).2 with
  | silent idle => exact absurd makes (idle _)
  | moves move makes' moved => exact ⟨move, makes.unique makes' ▸ rfl, makes', moved⟩

def Still (n : Network) (op : NetworkOp) : Prop := ∀ peer, ¬ n.Crosses op peer

theorem Still.onto (still : n.Still op) (makes : n.Makes op move) : move.onto = none := by
  cases makes with
  | out crosses => exact absurd ⟨_, _, _, rfl, crosses⟩ (still _)
  | home crosses => exact absurd ⟨_, _, _, rfl, crosses⟩ (still _)
  | read => rfl

/-- In a run where no cursor crosses an edge, the room only hears words. -/
theorem Wired.still {P : Room MachineId → Prop} (wired : n.Wired linked) (irreflexive : ∀ x, ¬ linked x x)
    (preserves : ∀ {room move room'}, room.Connected linked → P room → move.onto = none →
      Room.Step linked room move room' → P room')
    (symmetric : ∀ {a b}, linked a b → linked b a)
    (run : Reaches (guarded Step Still) n ops m) (initial : P n.room) : m.Wired linked ∧ P m.room := by
  have refined : m.Wired linked ∧ ∃ moves,
      Reaches (guarded (Room.Step linked) fun _ move => move.onto = none) n.room moves m.room :=
    wired.refines irreflexive (fun makes still => still.onto makes) run
  obtain ⟨after, moves, path⟩ := refined
  have kept := path.invariant (P := fun room => room.Connected linked ∧ P room)
    (fun ⟨connected, holds⟩ ⟨still, step⟩ =>
      ⟨connected.step symmetric step, preserves connected holds still step⟩)
    ⟨wired.connected symmetric, initial⟩
  exact ⟨after, kept.2⟩

theorem Ready.start (ready : n.Ready linked) : n.room.Quiet ∧ ∀ x, n.room.target x = none :=
  ⟨ready.quiet, fun x => ActiveTarget.peer_eq_none.mpr (ready.active x)⟩

end Network
end Omnipresent
