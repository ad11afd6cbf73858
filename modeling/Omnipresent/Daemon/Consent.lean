import Omnipresent.Daemon.Messages
import Omnipresent.Daemon.Pending
import Omnipresent.Trust.Records

/-! Who gets a link. A handler that let a machine in, or the user's dial, is the only way to
one, and what lets a machine in is a record of the trust store or the user's word. -/
namespace Omnipresent
open Transition

namespace Shared
variable {s t : Shared} {brings : Fingerprint → Prop}

/-- Every link is under the machine its certificate names. -/
def Named (s : Shared) : Prop :=
  ∀ machine link, s.state.links.lookup machine = some link → machine = machineIdOf link.fingerprint

theorem Named.of_links (named : s.Named) (links : t.state.links = s.state.links) : t.Named :=
  fun machine link found => named machine link (links ▸ found)

/-- No request is touched and nothing is trusted anew; a link that was not there is one of
these certificates', under the machine it names. -/
structure Admits (s : Shared) (brings : Fingerprint → Prop) (t : Shared) : Prop where
  pending : t.state.pending = s.state.pending
  trust : t.trust = s.trust
  links : ∀ p link, t.state.links.lookup p = some link →
    (p = machineIdOf link.fingerprint ∧ brings link.fingerprint) ∨
      ∃ old, s.state.links.lookup p = some old ∧ old.fingerprint = link.fingerprint

namespace Admits

theorem named (admits : s.Admits brings t) (named : s.Named) : t.Named := by
  intro machine link found
  obtain ⟨own, _⟩ | ⟨old, stored, same⟩ := admits.links machine link found
  · exact own
  · exact same ▸ named machine old stored

theorem same (pending : t.state.pending = s.state.pending) (trust : t.trust = s.trust)
    (links : t.state.links = s.state.links) : s.Admits brings t :=
  ⟨pending, trust, fun _ link found => .inr ⟨link, links ▸ found, rfl⟩⟩

theorem refl (s : Shared) : s.Admits brings s := same rfl rfl rfl

theorem map (s : Shared) (f : MachineId → PeerLink → PeerLink)
    (kept : ∀ p link, (f p link).fingerprint = link.fingerprint) :
    s.Admits brings { s with state.links := s.state.links.map f } := by
  refine ⟨rfl, rfl, fun p link found => ?_⟩
  rw [HashMap.lookup_map, Option.map_eq_some_iff] at found
  obtain ⟨old, stored, rfl⟩ := found
  exact .inr ⟨old, stored, (kept p old).symm⟩

theorem modify (s : Shared) (machine : MachineId) (f : PeerLink → PeerLink)
    (kept : ∀ link, (f link).fingerprint = link.fingerprint) :
    s.Admits brings { s with state.links := s.state.links.modify machine f } := by
  apply map s
  intro p link
  split
  · exact kept link
  · rfl

theorem send (s : Shared) (machine : MachineId) (command : PeerCommand) :
    s.Admits brings (s.send machine command) :=
  modify s machine _ fun _ => rfl

theorem broadcast (s : Shared) (command : PeerCommand) : s.Admits brings (s.broadcast command) :=
  map s _ fun _ _ => rfl

theorem forwardTo (s : Shared) (peer : MachineId) (event : InputEvent) :
    s.Admits brings (s.forwardTo peer event) :=
  modify s peer _ fun _ => rfl

theorem congr {s' t' : Shared} (admits : s'.Admits brings t')
    (before : s'.state.pending = s.state.pending ∧ s'.trust = s.trust ∧ s'.state.links = s.state.links)
    (after : t.state.pending = t'.state.pending ∧ t.trust = t'.trust ∧ t.state.links = t'.state.links) :
    s.Admits brings t where
  pending := (after.1.trans admits.pending).trans before.1
  trust := (after.2.1.trans admits.trust).trans before.2.1
  links p link found := by
    rw [← before.2.2]
    exact admits.links p link (after.2.2 ▸ found)

theorem cross (s : Shared) (peer : MachineId) (entry : Point) : s.Admits brings (s.cross peer entry) := by
  rw [Shared.cross]
  dsimp only
  rw [placeCursorAfterCrossing]
  split
  · have told : s.Admits brings _ := broadcast s (.cursorReturned entry.x.toInt32 entry.y.toInt32)
    exact told.congr ⟨rfl, rfl, rfl⟩ ⟨rfl, rfl, rfl⟩
  · have told : s.Admits brings _ := send s peer (.warp entry.x.toInt32 entry.y.toInt32)
    exact told.congr ⟨rfl, rfl, rfl⟩ ⟨rfl, rfl, rfl⟩

theorem captures (captures : Captures s os event t) : s.Admits brings t := by
  have tracked : (s.tracked os).state.pending = s.state.pending ∧ (s.tracked os).trust = s.trust ∧
      (s.tracked os).state.links = s.state.links := by
    rw [Shared.tracked]
    cases s.state.sessions.active with
    | remote peer => exact ⟨rfl, rfl, rfl⟩
    | here => cases os <;> exact ⟨rfl, rfl, rfl⟩
  cases captures with
  | idle => exact refl s
  | forwarded => exact forwardTo s _ _
  | stays =>
    rw [Shared.rest]
    split
    · exact (refl _).congr tracked ⟨rfl, rfl, rfl⟩
    · exact congr (forwardTo { s.tracked os with state.cursor.position := _ } _ _) tracked ⟨rfl, rfl, rfl⟩
  | crosses => exact (cross (s.tracked os) _ _).congr tracked ⟨rfl, rfl, rfl⟩

theorem signalling (s : Shared) (machine : MachineId) (session : SessionId) (message : ControlMessage) :
    s.Admits brings (s.signalling machine session message) := by
  refine signalling_keeps (refl s) (fun x y => ?_) (fun x y => ?_) session message
  · rw [yieldControlToPeer_eq]
    split <;> exact same rfl rfl rfl
  · rw [followPeerCursor]
    split
    · exact refl s
    · split
      · exact same rfl rfl rfl
      · dsimp only
        split <;> exact same rfl rfl rfl

theorem establishLink (s : Shared) (host : String) (fingerprint : Fingerprint) (session : SessionId) (role : Role)
    (screen : Screen) (fallback : Edge) (order : List MachineId) :
    s.Admits (· = fingerprint) (s.establishLink host fingerprint session role screen fallback order).1 := by
  apply establishLink_keeps (refl s)
  intro sessions established
  refine ⟨rfl, rfl, fun p link found => ?_⟩
  rw [rebuildLayout_links, HashMap.lookup_insert_eq] at found
  split at found
  · cases found
    exact .inl ⟨‹_›, rfl⟩
  · exact .inr ⟨link, found, rfl⟩

theorem handleIncoming (s : Shared) (host : String) (fingerprint : Fingerprint) (session : SessionId)
    (screen : ScreenSize) (order : List MachineId) :
    s.Admits (· = fingerprint) (s.handleIncoming host fingerprint session screen order).1 :=
  handleIncoming_keeps (fun admits => admits.congr ⟨rfl, rfl, rfl⟩ ⟨rfl, rfl, rfl⟩) (establishLink s ..)

theorem doConnect (s : Shared) (host : String) (fingerprint : Fingerprint) (session : SessionId)
    (screen : ScreenSize) (write : Write) (order : List MachineId) :
    (s.acceptPeer host fingerprint write).Admits (· = fingerprint)
      (s.doConnect host fingerprint session screen write order).1 :=
  doConnect_keeps (refl _) (fun admits => admits.congr ⟨rfl, rfl, rfl⟩ ⟨rfl, rfl, rfl⟩) (establishLink _ ..)

theorem cleanupPeer (s : Shared) (machine : MachineId) (order : List MachineId) :
    s.Admits brings (s.cleanupPeer machine order) := by
  apply cleanupPeer_keeps
  · exact same rfl rfl rfl
  · intro link closed
    refine ⟨rfl, rfl, fun p link found => .inr ?_⟩
    change (s.state.links.erase machine).lookup p = some link at found
    rw [HashMap.lookup_erase_eq] at found
    split at found
    · cases found
    · exact ⟨link, found, rfl⟩

theorem setLayout (s : Shared) (host edge : String) (config : ConfigWrite) (order : List MachineId) :
    s.Admits brings (s.setLayout host edge config order).1 := by
  rw [Shared.setLayout.eq_def]
  split
  · exact refl s
  · rename_i placed _
    have rewritten : s.Admits brings _ := map s
      (fun _ link => if link.host = host then { link with edge := placed } else link)
      fun _ link => by split <;> rfl
    dsimp only
    split <;> exact rewritten.congr ⟨rfl, rfl, rfl⟩ ⟨rfl, rfl, rfl⟩

theorem setModifierSwap (s : Shared) (host swap : String) (config : ConfigWrite) :
    s.Admits brings (s.setModifierSwap host swap config).1 := by
  rw [Shared.setModifierSwap.eq_def]
  split
  · exact refl s
  · have rewritten : s.Admits brings _ := map s
      (fun _ link => if link.host = host then { link with modifierSwap := ‹_› } else link)
      fun _ link => by split <;> rfl
    exact rewritten.congr ⟨rfl, rfl, rfl⟩ ⟨rfl, rfl, rfl⟩

theorem disconnect (s : Shared) (host : String) (order : List MachineId) :
    s.Admits brings (s.disconnect host order).1 := by
  rw [Shared.disconnect]
  split
  · exact send s _ _
  · exact refl s

theorem removePeer (s : Shared) (selector : String) (order : List MachineId) (write : Write) :
    Admits { s with trust := (s.trust.remove write selector).1 } brings
      (s.removePeer selector order write).1 := by
  let removed := { s with trust := (s.trust.remove write selector).1 }
  unfold Shared.removePeer
  cases s.findLink selector order with
  | some machine => exact (send removed machine .disconnect).congr ⟨rfl, rfl, rfl⟩ ⟨rfl, rfl, rfl⟩
  | none => exact refl removed

end Admits

def trustAfter (self : Shared) : Op → TrustState
  | .dialled host fingerprint _ _ write _ => (self.trust.accept write fingerprint (some host)).1
  | .removePeer selector _ write => (self.trust.remove write selector).1
  | _ => self.trust

end Shared

/-- The certificates an operation can make a link for. -/
def Op.Brings (fingerprint : Fingerprint) : Op → Prop
  | incoming _ own .. | dialled _ own .. => fingerprint = own
  | _ => False

/-- An operation that is no part of an inbound handler. -/
def Op.Apart : Op → Prop
  | incoming .. | asked .. | decided .. | retained .. | approved .. => False
  | _ => True

open Shared

theorem Step.admits (step : Step s op t) (sound : s.Sound) (apart : op.Apart) :
    Admits { s with trust := s.trustAfter op } (op.Brings ·) t := by
  obtain ⟨ran, _⟩ := step
  cases op with
  | captured event os => exact .captures (sound.captures ran)
  | signalled machine session message =>
    cases ran
    exact .signalling s machine session message
  | dialled host fingerprint session screen write order =>
    cases ran
    exact .doConnect s host fingerprint session screen write order
  | cleanup machine order =>
    cases ran
    exact .cleanupPeer s machine order
  | taken machine count =>
    cases ran
    exact .modify s machine _ fun _ => rfl
  | copied data =>
    cases ran
    exact .broadcast s _
  | layout host edge config order =>
    obtain rfl := Option.some.inj ran
    exact .setLayout s host edge config order
  | modifiers host swap config =>
    obtain rfl := Option.some.inj ran
    exact .setModifierSwap s host swap config
  | disconnect host order =>
    cases ran
    exact .disconnect s host order
  | removePeer selector order write =>
    cases ran
    exact .removePeer s selector order write
  | incoming | asked | decided | retained | approved => exact absurd apart id

theorem Step.enters (step : Step s (.incoming host fingerprint session screen order) t) :
    s.Admits (· = fingerprint) t := by
  obtain rfl := Option.some.inj step.1
  exact .handleIncoming s host fingerprint session screen order

/-- The daemon with those its handlers have let in, each on its way to a session. -/
structure Gate where
  inbound : Inbound
  through : Nat → Option (String × Fingerprint)

inductive GateOp where
  /-- A step of a handler that asks the user, or an answer of the user's. -/
  | inbound (op : InboundOp)
  /-- A machine that is trusted already asks to connect. -/
  | trusted (request : Nat) (host : String) (fingerprint : Fingerprint)
  /-- A machine let in gets its session, or there is none for it. -/
  | enter (request : Nat) (session : SessionId) (screen : ScreenSize) (order : List MachineId)
  | daemon (op : Op)

namespace Gate

def passed (self : Gate) : InboundOp → Nat → Option (String × Fingerprint)
  | .conclude own, request => match self.inbound.handlers own with
    | .cleared host fingerprint .approved =>
      if request = own then some (host, fingerprint) else self.through request
    | _ => self.through request
  | _, request => self.through request

def start (localMachine : MachineId) (localScreen : Screen) (trust : TrustState)
    (sink : Option (List (Int32 × Int32))) (placements : HashMap String Edge)
    (modifierSwaps : HashMap String ModifierSwap) : Gate where
  inbound := ⟨.start localMachine localScreen trust sink placements modifierSwaps, fun _ => .idle⟩
  through _ := none

end Gate

inductive GateStep : Gate → GateOp → Gate → Prop where
  | inbound : InboundStep s.inbound op t → GateStep s (.inbound op) ⟨t, s.passed op⟩
  | trusted : s.inbound.handlers request = .idle → s.inbound.shared.trust.isTrusted fingerprint = true →
      GateStep s (.trusted request host fingerprint)
        ⟨s.inbound.withHandler request .admitted, Function.update s.through request (some (host, fingerprint))⟩
  | enter : s.through request = some (host, fingerprint) →
      Step s.inbound.shared (.incoming host fingerprint session screen order) t →
      GateStep s (.enter request session screen order)
        ⟨{ s.inbound with shared := t }, Function.update s.through request none⟩
  | daemon : op.Apart → Step s.inbound.shared op t →
      GateStep s (.daemon op) ⟨{ s.inbound with shared := t }, s.through⟩

/-- The certificate a handler has the user's word for. -/
def Handler.agreed : Handler → Option Fingerprint
  | waiting _ fingerprint (some true) | woken _ fingerprint .approved | cleared _ fingerprint .approved =>
    some fingerprint
  | _ => none

theorem Handler.agreed_cleared (host : String) (fingerprint : Fingerprint) (outcome : Outcome) :
    (cleared host fingerprint outcome).agreed = (woken host fingerprint outcome).agreed := by
  cases outcome <;> rfl

/-- The user dials the machine with this certificate, or says yes to a request it has made by
then, by a name that is its; it is this request that the answer was found to be for. -/
inductive GateOp.Agrees (earlier : List GateOp) (fingerprint : Fingerprint) : GateOp → Prop
  | dialled : Agrees earlier fingerprint (.daemon (.dialled host fingerprint session screen write order))
  | approved : .inbound (.arrive request host fingerprint) ∈ earlier →
      PendingRequest.selected ⟨host, fingerprint, request⟩ selector = true →
      Agrees earlier fingerprint (.inbound (.decide selector true (some request)))

/-- One of these operations is the user's word for the certificate, after what was before it. -/
def Consented (earlier ops : List GateOp) (fingerprint : Fingerprint) : Prop :=
  ∃ before op after, ops = before ++ op :: after ∧ op.Agrees (earlier ++ before) fingerprint

theorem Consented.next (consented : Consented earlier ops fingerprint) (op : GateOp) :
    Consented earlier (ops ++ [op]) fingerprint := by
  obtain ⟨before, word, after, rfl, agrees⟩ := consented
  exact ⟨before, word, after ++ [op], by rw [List.append_assoc, List.cons_append], agrees⟩

namespace Gate

/-- Everything that can bring this certificate a link without another word of the user's. -/
inductive Knows (s : Gate) (fingerprint : Fingerprint) : Prop
  | recorded : r ∈ s.inbound.shared.trust.peers → parseFingerprint r.fingerprint = some fingerprint →
      Knows s fingerprint
  | agreed : (s.inbound.handlers request).agreed = some fingerprint → Knows s fingerprint
  | through : s.through request = some (host, fingerprint) → Knows s fingerprint
  | linked : s.inbound.shared.state.links.lookup machine = some link → link.fingerprint = fingerprint →
      Knows s fingerprint

/-- Links and requests are about whom they claim to be. -/
structure Registered (s : Gate) (history : List GateOp) : Prop where
  sound : s.inbound.shared.Sound
  named : s.inbound.shared.Named
  /-- A request on the list is its handler's own. -/
  listed : ∀ p ∈ s.inbound.shared.state.pending, s.inbound.handlers p.decision ≠ .idle ∧
    ∀ host fingerprint sent, s.inbound.handlers p.decision = .waiting host fingerprint sent →
      p.host = host ∧ p.fingerprint = fingerprint
  asked : ∀ request host fingerprint sent, s.inbound.handlers request = .waiting host fingerprint sent →
    .inbound (.arrive request host fingerprint) ∈ history

end Gate

structure Handler.Continues (before after : Handler) : Prop where
  idle : after = .idle → before = .idle
  waiting : ∀ host fingerprint sent, after = .waiting host fingerprint sent →
    ∃ sent, before = .waiting host fingerprint sent

theorem Handler.Continues.refl (handler : Handler) : handler.Continues handler :=
  ⟨id, fun _ _ sent same => ⟨sent, same⟩⟩

theorem Handler.receive_continues (handler : Handler) (approve : Bool) :
    handler.Continues (handler.receive approve) := by
  cases handler with
  | waiting host fingerprint sent =>
    cases sent with
    | none => exact ⟨nofun, fun _ _ _ same => ⟨none, by cases same; rfl⟩⟩
    | some sent => exact .refl _
  | _ => exact .refl _

theorem Inbound.withHandler_continues {s t : Inbound} (handlers : t.handlers = s.handlers)
    (continues : (s.handlers request).Continues handler) (other : Nat) :
    (s.handlers other).Continues ((t.withHandler request handler).handlers other) := by
  rw [Inbound.withHandler_handlers, handlers]
  split
  · exact ‹other = request› ▸ continues
  · exact .refl _

theorem Shared.decidePending_after {s : Shared} (decided : s.decidePending selector = (after, told, response)) :
    s.Unmoved after ∧ after.state.links = s.state.links ∧ after.trust = s.trust := by
  obtain rfl : (s.decidePending selector).1 = after := congrArg Prod.fst decided
  refine ⟨.decidePending s selector, ?_⟩
  rw [decidePending]
  split <;> exact ⟨rfl, rfl⟩

namespace InboundStep
variable {s t : Inbound}

theorem unmoved (step : InboundStep s op t) : s.shared.Unmoved t.shared := by
  cases step with
  | arrive | clear => exact (Unmoved.pending _ _).trans (.notifyChange _)
  | decided decided | unmatched decided => exact (decidePending_after decided).1
  | approved => exact .trust s.shared _
  | told | dropped | expire | decline => exact .refl _

theorem links (step : InboundStep s op t) : t.shared.state.links = s.shared.state.links := by
  cases step with
  | decided decided | unmatched decided => exact (decidePending_after decided).2.1
  | _ => rfl

theorem continues (step : InboundStep s op t) :
    (∃ request host fingerprint, op = .arrive request host fingerprint ∧ s.handlers request = .idle ∧
      t.shared.state.pending = s.shared.state.pending ++ [⟨host, fingerprint, request⟩] ∧
      t.handlers = Function.update s.handlers request (.waiting host fingerprint none)) ∨
    (∀ p ∈ t.shared.state.pending, p ∈ s.shared.state.pending) ∧
      ∀ request, (s.handlers request).Continues (t.handlers request) := by
  cases step with
  | arrive fresh _ => exact .inl ⟨_, _, _, rfl, fresh, rfl, rfl⟩
  | decided told =>
    refine .inr ⟨fun p listed => ?_, Inbound.withHandler_continues rfl (Handler.receive_continues _ _)⟩
    obtain ⟨front, first, back, before, after, _⟩ := Inbound.decidePending_told told
    change p ∈ _ at listed
    simp only [Inbound.withHandler, after, before, List.mem_append, List.mem_cons] at listed ⊢
    exact listed.imp_right .inr
  | unmatched untold =>
    rw [Inbound.decidePending_untold untold]
    exact .inr ⟨fun _ listed => listed, fun _ => .refl _⟩
  | clear =>
    refine .inr ⟨fun p listed => List.mem_of_mem_filter listed, ?_⟩
    exact Inbound.withHandler_continues rfl ⟨nofun, nofun⟩
  | told | dropped | expire | decline | approved =>
    exact .inr ⟨fun _ listed => listed, Inbound.withHandler_continues rfl ⟨nofun, nofun⟩⟩

/-- What is trusted after it was before, or has the user's word. -/
theorem recorded (step : InboundStep s op t) (listed : r ∈ t.shared.trust.peers)
    (parsed : parseFingerprint r.fingerprint = some fingerprint) :
    r ∈ s.shared.trust.peers ∨ ∃ request, (s.handlers request).agreed = some fingerprint := by
  cases step with
  | decided decided | unmatched decided => exact .inl ((decidePending_after decided).2.2 ▸ listed)
  | approved cleared =>
    rcases mem_acceptRecords (TrustState.accept_peers .. ▸ listed) with rfl | kept
    · rw [fingerprintHex, parseFingerprint_display, Option.some.injEq] at parsed
      exact .inr ⟨_, by rw [cleared, ← parsed]; rfl⟩
    · exact .inl (mem_retainHost.mp kept).1
  | _ => exact .inl listed

/-- A handler has the user's word because it had it, or just got it for its own request. -/
theorem agreed (step : InboundStep s op t)
    (listed : ∀ p ∈ s.shared.state.pending, ∀ host fingerprint sent,
      s.handlers p.decision = .waiting host fingerprint sent → p.host = host ∧ p.fingerprint = fingerprint)
    (asked : ∀ request host fingerprint sent, s.handlers request = .waiting host fingerprint sent →
      .inbound (.arrive request host fingerprint) ∈ history)
    (stands : (t.handlers request).agreed = some fingerprint) :
    (s.handlers request).agreed = some fingerprint ∨ (GateOp.inbound op).Agrees history fingerprint := by
  cases step with
  | unmatched => exact .inl stands
  | @decided _ own _ _ _ approve decided =>
    rw [Inbound.withHandler_handlers] at stands
    split at stands
    · subst request
      obtain ⟨_, p, _, before, _, named, told⟩ := Inbound.decidePending_told decided
      cases waits : s.handlers own with
      | waiting host certificate sent =>
        rw [waits] at stands
        cases sent with
        | some sent => exact .inl stands
        | none =>
          cases approve with
          | false => cases stands
          | true =>
            -- The request answered is the handler's own.
            obtain ⟨rfl, rfl⟩ := listed p (by simp [before]) host certificate none (told ▸ waits)
            cases stands
            exact .inr (.approved (told ▸ asked own p.host p.fingerprint none waits) named)
      | idle | declined | admitted =>
        rw [waits] at stands
        cases stands
      | woken | cleared =>
        rw [waits] at stands
        exact .inl stands
    · exact .inl stands
  | @told _ _ _ _ approve waits =>
    rw [Inbound.withHandler_handlers] at stands
    split at stands
    · subst request
      rw [waits]
      cases approve with
      | true => exact .inl stands
      | false => cases stands
    · exact .inl stands
  | clear woken =>
    rw [Inbound.withHandler_handlers] at stands
    split at stands
    · subst request
      rw [woken, ← Handler.agreed_cleared]
      exact .inl stands
    · exact .inl stands
  | arrive | dropped | expire | decline | approved =>
    rw [Inbound.withHandler_handlers] at stands
    split at stands
    · cases stands
    · exact .inl stands

end InboundStep

namespace Gate
variable {s t : Gate}

theorem passed_agreed (let_in : s.passed op request = some (host, fingerprint)) :
    s.through request = some (host, fingerprint) ∨
      (s.inbound.handlers request).agreed = some fingerprint := by
  cases op with
  | conclude own =>
    rw [passed] at let_in
    split at let_in
    · rename_i cleared
      split at let_in
      · cases let_in
        subst request
        exact .inr (by rw [cleared]; rfl)
      · exact .inl let_in
    · exact .inl let_in
  | _ => exact .inl let_in

theorem trustAfter_recorded {s : Shared} (listed : r ∈ (s.trustAfter op).peers)
    (parsed : parseFingerprint r.fingerprint = some fingerprint) :
    r ∈ s.trust.peers ∨ (GateOp.daemon op).Agrees history fingerprint := by
  cases op with
  | dialled =>
    rcases mem_acceptRecords (TrustState.accept_peers .. ▸ listed) with rfl | kept
    · rw [fingerprintHex, parseFingerprint_display, Option.some.injEq] at parsed
      exact .inr (parsed ▸ .dialled)
    · exact .inl (mem_retainHost.mp kept).1
  | removePeer => exact .inl (mem_removeRecords.mp (TrustState.remove_peers .. ▸ listed)).1
  | _ => exact .inl listed

theorem brings_dialled (apart : op.Apart) (brings : op.Brings fingerprint) :
    (GateOp.daemon op).Agrees history fingerprint := by
  cases op with
  | dialled => exact brings ▸ .dialled
  | incoming => exact absurd apart id
  | _ => exact absurd brings id

namespace Registered

theorem moved (registered : s.Registered history) (sound : t.inbound.shared.Sound)
    (named : t.inbound.shared.Named)
    (pending : ∀ p ∈ t.inbound.shared.state.pending, p ∈ s.inbound.shared.state.pending)
    (continues : ∀ request, (s.inbound.handlers request).Continues (t.inbound.handlers request)) :
    t.Registered (history ++ [op]) where
  sound := sound
  named := named
  listed p member := by
    obtain ⟨stands, own⟩ := registered.listed p (pending p member)
    constructor
    · exact fun idle => stands ((continues p.decision).idle idle)
    · intro host fingerprint sent waits
      obtain ⟨sent, waited⟩ := (continues p.decision).waiting _ _ _ waits
      exact own host fingerprint sent waited
  asked request host fingerprint sent waits := by
    obtain ⟨sent, waited⟩ := (continues request).waiting _ _ _ waits
    exact List.mem_append_left _ (registered.asked request host fingerprint sent waited)

theorem arrive (registered : s.Registered history) (sound : t.inbound.shared.Sound)
    (named : t.inbound.shared.Named) (idle : s.inbound.handlers request = .idle)
    (pending : t.inbound.shared.state.pending =
      s.inbound.shared.state.pending ++ [⟨host, fingerprint, request⟩])
    (handlers : t.inbound.handlers = Function.update s.inbound.handlers request (.waiting host fingerprint none)) :
    t.Registered (history ++ [.inbound (.arrive request host fingerprint)]) where
  sound := sound
  named := named
  listed p member := by
    rw [handlers, Function.update_apply]
    rw [pending, List.mem_append, List.mem_singleton] at member
    rcases member with earlier | rfl
    · obtain ⟨stands, own⟩ := registered.listed p earlier
      have other : p.decision ≠ request := fun same => stands (same ▸ idle)
      rw [if_neg other]
      exact ⟨stands, own⟩
    · rw [if_pos rfl]
      constructor
      · exact nofun
      · intro _ _ _ same
        cases same
        exact ⟨rfl, rfl⟩
  asked other host' fingerprint' sent waits := by
    rw [handlers, Function.update_apply] at waits
    rw [List.mem_append, List.mem_singleton]
    split at waits
    · cases waits
      subst other
      exact .inr rfl
    · exact .inl (registered.asked other host' fingerprint' sent waits)

theorem step (registered : s.Registered history) (step : GateStep s op t) : t.Registered (history ++ [op]) := by
  cases step with
  | inbound step =>
    have sound := registered.sound.of_unmoved step.unmoved
    have named := registered.named.of_links step.links
    obtain ⟨request, host, fingerprint, rfl, idle, pending, handlers⟩ | ⟨pending, continues⟩ :=
      step.continues
    · exact registered.arrive sound named idle pending handlers
    · exact registered.moved sound named pending continues
  | trusted idle trusts =>
    exact registered.moved registered.sound registered.named (fun _ listed => listed)
      (Inbound.withHandler_continues rfl ⟨nofun, nofun⟩)
  | enter letIn ran =>
    exact registered.moved (ran.sound registered.sound) (ran.enters.named registered.named)
      (fun _ listed => ran.enters.pending ▸ listed) fun _ => .refl _
  | daemon apart ran =>
    have admits := ran.admits registered.sound apart
    exact registered.moved (ran.sound registered.sound) (admits.named registered.named)
      (fun _ listed => admits.pending ▸ listed) fun _ => .refl _

theorem start (localMachine : MachineId) (localScreen : Screen) (trust : TrustState)
    (sink : Option (List (Int32 × Int32))) (placements : HashMap String Edge)
    (modifierSwaps : HashMap String ModifierSwap) :
    (Gate.start localMachine localScreen trust sink placements modifierSwaps).Registered [] where
  sound := start_sound ..
  named _ _ found := nomatch found
  listed _ member := nomatch member
  asked _ _ _ _ waits := nomatch waits

theorem run (registered : s.Registered before) (run : Reaches GateStep s ops t) :
    t.Registered (before ++ ops) := by
  induction run with
  | refl => rwa [List.append_nil]
  | next _ last ih => exact List.append_assoc .. ▸ ih.step last

end Registered

/-- What a certificate can come to a link by after a step it could before, unless the step is the
user's word for it. -/
theorem Knows.earlier (known : t.Knows fingerprint) (registered : s.Registered history) (step : GateStep s op t) :
    s.Knows fingerprint ∨ op.Agrees history fingerprint := by
  cases step with
  | inbound step =>
    cases known with
    | recorded listed parsed =>
      obtain kept | ⟨request, word⟩ := step.recorded listed parsed
      · exact .inl (.recorded kept parsed)
      · exact .inl (.agreed word)
    | agreed stands =>
      have own := fun p member => (registered.listed p member).2
      exact (step.agreed own registered.asked stands).imp_left .agreed
    | through letIn =>
      obtain before | word := passed_agreed letIn
      · exact .inl (.through before)
      · exact .inl (.agreed word)
    | linked stored same => exact .inl (.linked (step.links ▸ stored) same)
  | trusted idle trusts =>
    cases known with
    | recorded listed parsed => exact .inl (.recorded listed parsed)
    | agreed stands =>
      rw [Inbound.withHandler_handlers] at stands
      split at stands
      · cases stands
      · exact .inl (.agreed stands)
    | through letIn =>
      dsimp only at letIn
      rw [Function.update_apply] at letIn
      split at letIn
      · cases letIn
        obtain ⟨r, listed, parsed⟩ := isTrusted_mem trusts
        exact .inl (.recorded listed parsed)
      · exact .inl (.through letIn)
    | linked stored same => exact .inl (.linked stored same)
  | enter letIn ran =>
    cases known with
    | recorded listed parsed => exact .inl (.recorded (ran.enters.trust ▸ listed) parsed)
    | agreed stands => exact .inl (.agreed stands)
    | through letIn =>
      dsimp only at letIn
      rw [Function.update_apply] at letIn
      split at letIn
      · cases letIn
      · exact .inl (.through letIn)
    | linked stored same =>
      obtain ⟨_, fresh⟩ | ⟨old, earlier, kept⟩ := ran.enters.links _ _ stored
      · exact .inl (.through (same ▸ fresh ▸ letIn))
      · exact .inl (.linked earlier (kept.trans same))
  | daemon apart ran =>
    have admits := ran.admits registered.sound apart
    cases known with
    | recorded listed parsed =>
      have trust : _ = s.inbound.shared.trustAfter _ := admits.trust
      exact (trustAfter_recorded (trust ▸ listed) parsed).imp_left fun kept => .recorded kept parsed
    | agreed stands => exact .inl (.agreed stands)
    | through letIn => exact .inl (.through letIn)
    | linked stored same =>
      obtain ⟨_, brings⟩ | ⟨old, earlier, kept⟩ := admits.links _ _ stored
      · exact .inr (same ▸ brings_dialled apart brings)
      · exact .inl (.linked earlier (kept.trans same))

theorem Knows.run (registered : s.Registered before) (run : Reaches GateStep s ops t)
    (known : t.Knows fingerprint) : s.Knows fingerprint ∨ Consented before ops fingerprint := by
  induction run with
  | refl => exact .inl known
  | next earlier last ih =>
    obtain known | agrees := known.earlier (registered.run earlier) last
    · exact (ih known).imp_right fun consented => consented.next _
    · exact .inr ⟨_, _, [], rfl, agrees⟩

section Start
variable {localMachine : MachineId} {localScreen : Screen} {trust : TrustState}
  {sink : Option (List (Int32 × Int32))} {placements : HashMap String Edge}
  {modifierSwaps : HashMap String ModifierSwap}

theorem start_knows
    (known : (start localMachine localScreen trust sink placements modifierSwaps).Knows fingerprint) :
    ∃ r ∈ trust.peers, parseFingerprint r.fingerprint = some fingerprint := by
  cases known with
  | recorded listed parsed => exact ⟨_, listed, parsed⟩
  | agreed stands => exact nomatch stands
  | through letIn => exact nomatch letIn
  | linked stored => exact nomatch stored

end Start

/-- A stranger asks, and is let in once the user said yes by a name that is its. -/
theorem stranger_enters (named : PendingRequest.selected ⟨"desk", .filled 2, 0⟩ selector = true) : ∃ t link,
    Reaches GateStep (.start ⟨1⟩ ⟨100, 100⟩ ⟨.missing, []⟩ none ∅ ∅)
      [.inbound (.arrive 0 "desk" (.filled 2)), .inbound (.decide selector true (some 0)), .inbound (.wake 0),
        .inbound (.clear 0), .inbound (.conclude 0),
        .enter 0 ⟨7⟩ ⟨200, 100⟩ [machineIdOf (.filled 2)]] t ∧
      t.inbound.shared.state.links.lookup (machineIdOf (.filled 2)) = some link := by
  let door := start ⟨1⟩ ⟨100, 100⟩ ⟨.missing, []⟩ none ∅ ∅
  let asked := { door.inbound with shared := door.inbound.shared.askUser "desk" (.filled 2) 0 }.withHandler 0
    (.waiting "desk" (.filled 2) none)
  let answered := { asked with
    shared := Shared.notifyChange { asked.shared with state.pending := [] } }.withHandler 0
      (.waiting "desk" (.filled 2) (some true))
  let woken := answered.withHandler 0 (.woken "desk" (.filled 2) .approved)
  let cleared := { woken with shared := woken.shared.retainPending (.filled 2) }.withHandler 0
    (.cleared "desk" (.filled 2) .approved)
  let admitted := { cleared with shared := cleared.shared.acceptPeer "desk" (.filled 2) .done }.withHandler 0
    .admitted
  let letIn : Gate := ⟨admitted, fun request => if request = 0 then some ("desk", .filled 2) else none⟩
  have arrives : GateStep door (.inbound (.arrive 0 "desk" (.filled 2))) ⟨asked, door.through⟩ :=
    .inbound (.arrive rfl rfl)
  have taken : asked.shared.decidePending selector = (answered.shared, some 0, .ok) := by
    have only : asked.shared.state.pending = [⟨"desk", .filled 2, 0⟩] := rfl
    simp only [decidePending, only, List.find?_cons, named, List.eraseP_cons, cond_true]
    rfl
  have decides : GateStep ⟨asked, door.through⟩ (.inbound (.decide selector true (some 0)))
      ⟨answered, door.through⟩ := .inbound (.decided taken)
  have wakes : GateStep ⟨answered, door.through⟩ (.inbound (.wake 0)) ⟨woken, door.through⟩ :=
    .inbound (.told (show answered.handlers 0 = .waiting "desk" (.filled 2) (some true) from rfl))
  have clears : GateStep ⟨woken, door.through⟩ (.inbound (.clear 0)) ⟨cleared, door.through⟩ :=
    .inbound (.clear rfl)
  have concludes : GateStep ⟨cleared, door.through⟩ (.inbound (.conclude 0)) letIn :=
    .inbound (.approved (show cleared.handlers 0 = .cleared "desk" (.filled 2) .approved from rfl))
  have evaluated : (admitted.shared.execute
      (.incoming "desk" (.filled 2) ⟨7⟩ ⟨200, 100⟩ [machineIdOf (.filled 2)])).any
        (fun t => (t.state.links.lookup (machineIdOf (.filled 2))).isSome) = true := rfl
  obtain ⟨t, executed, present⟩ := (Option.any_eq_true _ _).mp evaluated
  obtain ⟨link, linked⟩ := Option.isSome_iff_exists.mp present
  have run := (((((Reaches.single arrives).next decides).next wakes).next clears).next concludes).next
    (.enter (show letIn.through 0 = some ("desk", .filled 2) from rfl) (.of_execute executed))
  exact ⟨_, link, run, linked⟩

end Gate

end Omnipresent
