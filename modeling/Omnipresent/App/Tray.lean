import Omnipresent.Daemon.Consent
import Omnipresent.Daemon.Dispatch
import Mathlib.Data.List.Infix

/-! The tray's menu, made anew for each snapshot the daemon pushes, and what a click on one of
its entries asks of the daemon: maybe long after, when other requests are waiting. -/
namespace Omnipresent
open Transition

structure Waiting where
  host : String
  fingerprint : String
deriving DecidableEq, Repr

inductive MenuEntry where
  | item (id label : String)
  | separator
deriving DecidableEq, Repr

inductive TrayAction where
  | request (request : Request)
  | showWindow
  | quit
  | nothing
deriving DecidableEq, Repr

namespace Tray

def acceptPrefix : String := "accept:"

def rejectPrefix : String := "reject:"

def tooltip : Nat → String
  | 0 => "Omnipresent"
  | 1 => "Omnipresent — 1 request waiting"
  | n => s!"Omnipresent — {n} requests waiting"

/-- The host names the machine, but the id carries the fingerprint. -/
def entries (request : Waiting) : List MenuEntry :=
  [.item (acceptPrefix ++ request.fingerprint) ("Accept " ++ request.host),
    .item (rejectPrefix ++ request.fingerprint) ("Reject " ++ request.host), .separator]

def menu (waiting : List Waiting) : List MenuEntry :=
  waiting.flatMap entries ++ [.item "open" "Open Omnipresent", .separator, .item "quit" "Quit Omnipresent"]

def sync (status : StatusInfo) : List MenuEntry × String :=
  let waiting := status.pending.map fun request => ⟨request.host, request.fingerprint⟩
  (menu waiting, tooltip waiting.length)

/-- `text.strip_prefix(start)`. -/
def stripStart (text start : String) : Option String :=
  (text.toList.dropPrefix? start.toList).map String.ofList

def handleMenuEvent (id : String) : TrayAction :=
  match stripStart id acceptPrefix with
  | some fingerprint => .request (.accept fingerprint)
  | none =>
    match stripStart id rejectPrefix with
    | some fingerprint => .request (.reject fingerprint)
    | none => if id = "open" then .showWindow else if id = "quit" then .quit else .nothing

theorem stripStart_append (start text : String) : stripStart (start ++ text) start = some text := by
  rw [stripStart, String.toList_append, List.dropPrefix?_append_of_beq _ (beq_self_eq_true _), Option.map_some,
    String.ofList_toList]

theorem handle_accept (fingerprint : String) :
    handleMenuEvent (acceptPrefix ++ fingerprint) = .request (.accept fingerprint) := by
  rw [handleMenuEvent, stripStart_append]

/-- The two kinds of entries differ in their first character. -/
theorem handle_reject (fingerprint : String) :
    handleMenuEvent (rejectPrefix ++ fingerprint) = .request (.reject fingerprint) := by
  have other : stripStart (rejectPrefix ++ fingerprint) acceptPrefix = none := by
    rw [stripStart, String.toList_append, Option.map_eq_none_iff]
    rfl
  rw [handleMenuEvent, other, stripStart_append]

/-- An entry that answers a request answers the one it was made for. -/
theorem answers {id : String} (listed : .item id label ∈ menu waiting)
    (clicked : handleMenuEvent id = .request request) :
    ∃ shown ∈ waiting,
      id = acceptPrefix ++ shown.fingerprint ∧ label = "Accept " ++ shown.host ∧
        request = .accept shown.fingerprint ∨
      id = rejectPrefix ++ shown.fingerprint ∧ label = "Reject " ++ shown.host ∧
        request = .reject shown.fingerprint := by
  rw [menu, List.mem_append, List.mem_flatMap] at listed
  rcases listed with ⟨shown, member, own⟩ | fixed
  · simp only [entries, List.mem_cons, MenuEntry.item.injEq, reduceCtorEq, List.not_mem_nil, or_false] at own
    rcases own with ⟨rfl, rfl⟩ | ⟨rfl, rfl⟩
    · rw [handle_accept, TrayAction.request.injEq] at clicked
      exact ⟨shown, member, .inl ⟨rfl, rfl, clicked.symm⟩⟩
    · rw [handle_reject, TrayAction.request.injEq] at clicked
      exact ⟨shown, member, .inr ⟨rfl, rfl, clicked.symm⟩⟩
  · -- The entries that are always there answer nothing.
    simp only [List.mem_cons, MenuEntry.item.injEq, reduceCtorEq, List.not_mem_nil, or_false, false_or] at fixed
    rcases fixed with ⟨rfl, _⟩ | ⟨rfl, _⟩
    · cases (show handleMenuEvent "open" = .showWindow from rfl).symm.trans clicked
    · cases (show handleMenuEvent "quit" = .quit from rfl).symm.trans clicked

end Tray

theorem Fingerprint.display_length (fingerprint : Fingerprint) : fingerprint.display.length = 64 := by
  have pairs : ∀ bytes : List UInt8, (bytes.flatMap byteHex).length = 2 * bytes.length := by
    intro bytes
    induction bytes with
    | nil => rfl
    | cons byte rest ih =>
      rw [List.flatMap_cons, List.length_append, ih, List.length_cons, byteHex, List.length_cons,
        List.length_singleton]
      omega
  rw [display, String.length_ofList, pairs, fingerprint.length_eq]

/-- A whole fingerprint names no request but its own, as long as nobody is called by one. -/
theorem PendingRequest.selected_display {p : PendingRequest} {own : Fingerprint} (address : p.host.length < 64)
    (named : p.selected own.display = true) : p.fingerprint = own := by
  rw [selected, Bool.or_eq_true, decide_eq_true_eq, String.startsWith_string_iff] at named
  rcases named with called | begins
  · rw [called, own.display_length] at address
    exact absurd address (Nat.lt_irrefl _)
  · have size : own.display.toList.length = p.fingerprint.display.toList.length := by
      rw [String.length_toList, String.length_toList, Fingerprint.display_length, Fingerprint.display_length]
    exact display_injective (String.toList_inj.mp (begins.eq_of_length size).symm)

/-- Where the user answers requests in the tray only, by menus of whatever snapshots, a link is
for a certificate of the trust file, for one the user dialled, or for one whose own entry to
accept it was clicked. -/
theorem Tray.lets_in_what_was_clicked (Clicked : MenuEntry → Prop) {localMachine : MachineId}
    {localScreen : Screen} {trust : TrustState} {sink : Option (List (Int32 × Int32))}
    {placements : HashMap String Edge} {modifierSwaps : HashMap String ModifierSwap}
    (run : Reaches GateStep (.start localMachine localScreen trust sink placements modifierSwaps) ops t)
    (addresses : ∀ request host fingerprint,
      .inbound (.arrive request host fingerprint) ∈ ops → host.length < 64)
    (shown : ∀ entry, Clicked entry →
      ∃ (daemon : Daemon) (passes : Passes), entry ∈ (sync (daemon.status passes)).1)
    (decided : ∀ selector approve told, .inbound (.decide selector approve told) ∈ ops → ∃ id label,
      Clicked (.item id label) ∧
        handleMenuEvent id = .request (if approve then .accept selector else .reject selector))
    (linked : t.inbound.shared.state.links.lookup machine = some link) :
    (∃ r ∈ trust.peers, parseFingerprint r.fingerprint = some link.fingerprint) ∨
    (∃ host session screen write order,
      .daemon (.dialled host link.fingerprint session screen write order) ∈ ops) ∨
    ∃ host, Clicked (.item (acceptPrefix ++ link.fingerprint.display) ("Accept " ++ host)) := by
  have registered := Gate.Registered.start localMachine localScreen trust sink placements modifierSwaps
  obtain recorded | ⟨before, op, after, rfl, agrees⟩ := (Gate.Knows.linked linked rfl).run registered run
  · exact .inl (Gate.start_knows recorded)
  · have member : op ∈ before ++ op :: after := List.mem_append_right _ (List.mem_cons_self ..)
    cases agrees with
    | dialled => exact .inr (.inl ⟨_, _, _, _, _, member⟩)
    | approved arrived named =>
      obtain ⟨id, label, clicked, asks⟩ := decided _ _ _ member
      obtain ⟨daemon, passes, listed⟩ := shown _ clicked
      obtain ⟨waiting, made, ⟨rfl, rfl, same⟩ | ⟨_, _, same⟩⟩ := answers listed asks
      · obtain ⟨info, pending, rfl⟩ := List.mem_map.mp made
        obtain ⟨p, _, rfl⟩ := List.mem_map.mp pending
        rw [if_pos rfl, Request.accept.injEq] at same
        have own : link.fingerprint = p.fingerprint :=
          PendingRequest.selected_display (addresses _ _ _ (List.mem_append_left _ arrived)) (same ▸ named)
        exact .inr (.inr ⟨p.host, own ▸ clicked⟩)
      · cases same

/-- One stranger, accepted in a menu made while it was waiting. -/
theorem Tray.lets_in_what_was_clicked_stranger : ∃ ops t link,
    Reaches GateStep (.start ⟨1⟩ ⟨100, 100⟩ ⟨.missing, []⟩ none ∅ ∅) ops t ∧
      t.inbound.shared.state.links.lookup (machineIdOf (.filled 2)) = some link ∧
      ((∃ host session screen write order,
        .daemon (.dialled host link.fingerprint session screen write order) ∈ ops) ∨
        link.fingerprint = .filled 2) := by
  let entry := MenuEntry.item (acceptPrefix ++ (Fingerprint.filled 2).display) "Accept desk"
  have named : PendingRequest.selected ⟨"desk", .filled 2, 0⟩ (Fingerprint.filled 2).display = true := by
    rw [PendingRequest.selected, Bool.or_eq_true, String.startsWith_string_iff]
    exact .inr (List.prefix_refl _)
  obtain ⟨t, link, run, linked⟩ := Gate.stranger_enters named
  obtain ⟨r, listed, _⟩ | dialled | ⟨host, clicked⟩ := Tray.lets_in_what_was_clicked (· = entry) run
    (by
      intro request host fingerprint member
      simp only [List.mem_cons, GateOp.inbound.injEq, InboundOp.arrive.injEq, reduceCtorEq, List.not_mem_nil,
        or_false] at member
      obtain ⟨_, rfl, _⟩ := member
      decide)
    (by
      rintro _ rfl
      let waiting : Daemon := { Daemon.fresh with shared := Daemon.fresh.shared.askUser "desk" (.filled 2) 0 }
      exact ⟨waiting, ⟨[], [], []⟩, List.mem_cons_self⟩)
    (by
      intro selector approve told member
      simp only [List.mem_cons, GateOp.inbound.injEq, InboundOp.decide.injEq, reduceCtorEq, List.not_mem_nil,
        or_false, false_or] at member
      obtain ⟨rfl, rfl, _⟩ := member
      exact ⟨_, _, rfl, handle_accept _⟩)
    linked
  · cases listed
  · exact ⟨_, t, link, run, linked, .inl dialled⟩
  · have same : acceptPrefix ++ link.fingerprint.display = acceptPrefix ++ (Fingerprint.filled 2).display :=
      (MenuEntry.item.inj clicked).1
    have asks := (handle_accept _).symm.trans ((congrArg handleMenuEvent same).trans (handle_accept _))
    have own := display_injective (Request.accept.inj (TrayAction.request.inj asks))
    exact ⟨_, t, link, run, linked, .inr own⟩

end Omnipresent
