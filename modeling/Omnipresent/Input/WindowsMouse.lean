import Omnipresent.Input.Scroll
import Omnipresent.Input.WindowsSource

/-! Capture on Windows: the low-level mouse hook. It is told where the cursor is about to go, so
it reports motion against where it last was; while suppressed it swallows what it is told and
parks the cursor at the screen's centre, so that motion never ends at an edge. A call of the
hook and a change of the suppression are each taken as one step. -/
namespace Omnipresent

abbrev Spot := Int32 × Int32

/-- `MSLLHOOKSTRUCT`. -/
structure MouseHookInfo where
  pt : Spot
  mouseData : UInt32
  flags : UInt32
deriving DecidableEq, Repr

def llmhfInjected : UInt32 := 0x01
def wmMouseMove : UInt32 := 0x0200
def wmLButtonDown : UInt32 := 0x0201
def wmLButtonUp : UInt32 := 0x0202
def wmRButtonDown : UInt32 := 0x0204
def wmRButtonUp : UInt32 := 0x0205
def wmMButtonDown : UInt32 := 0x0207
def wmMButtonUp : UInt32 := 0x0208
def wmMouseWheel : UInt32 := 0x020A
def wmXButtonDown : UInt32 := 0x020B
def wmXButtonUp : UInt32 := 0x020C
def wmMouseHWheel : UInt32 := 0x020E
def xbutton1 : UInt16 := 1

def xbutton (info : MouseHookInfo) : MouseButton :=
  if (info.mouseData >>> 16).toUInt16 = xbutton1 then .back else .forward

structure MouseHook where
  suppressed : Bool
  haveLast : Bool
  last : Spot
  wheelX : Scaled
  wheelY : Scaled
  charsPerNotch : Int32
  linesPerNotch : Int32
deriving DecidableEq, Repr

/-- What a movement from one spot to another is queued as. -/
def motionBetween (last spot : Spot) : Option InputEvent :=
  let dx := spot.1 - last.1
  let dy := spot.2 - last.2
  if dx ≠ 0 ∨ dy ≠ 0 then some (.motion ⟨dx, dy⟩) else none

namespace MouseHook

/-- Of the first source there is, with the wheel settings read then. -/
def new (charsPerNotch linesPerNotch : Int32) : MouseHook :=
  ⟨false, false, (0, 0), .new, .new, charsPerNotch, linesPerNotch⟩

def convertAction (self : MouseHook) (message : UInt32) (info : MouseHookInfo) : MouseHook × Option InputEvent :=
  if message = wmLButtonDown then (self, some (.button .left .press))
  else if message = wmLButtonUp then (self, some (.button .left .release))
  else if message = wmRButtonDown then (self, some (.button .right .press))
  else if message = wmRButtonUp then (self, some (.button .right .release))
  else if message = wmMButtonDown then (self, some (.button .middle .press))
  else if message = wmMButtonUp then (self, some (.button .middle .release))
  else if message = wmXButtonDown then (self, some (.button (xbutton info) .press))
  else if message = wmXButtonUp then (self, some (.button (xbutton info) .release))
  else if message = wmMouseWheel then
    let (millilines, wheelY) := wheelMillilines self.wheelY info.mouseData self.linesPerNotch
    ({ self with wheelY }, if millilines ≠ 0 then some (.scroll ⟨0, millilines⟩) else none)
  else if message = wmMouseHWheel then
    let (millilines, wheelX) := wheelMillilines self.wheelX info.mouseData self.charsPerNotch
    ({ self with wheelX }, if millilines ≠ 0 then some (.scroll ⟨millilines, 0⟩) else none)
  else (self, none)

/-- Translates one mouse event: what the hook keeps then, what it queues, and where it puts the
cursor. -/
def convertMouse (self : MouseHook) (screenCenter : Spot) (message : UInt32) (info : MouseHookInfo) :
    MouseHook × Option InputEvent × Option Spot :=
  if message = wmMouseMove then
    -- The first sample is an anchor only.
    if !self.haveLast then ({ self with haveLast := true, last := info.pt }, none, none)
    else if self.suppressed then
      ({ self with last := screenCenter }, motionBetween self.last info.pt, some screenCenter)
    else ({ self with last := info.pt }, motionBetween self.last info.pt, none)
  else
    let (hook, event) := self.convertAction message info
    (hook, event, none)

/-- The low-level mouse hook: everything is converted, and swallowed while suppressed, but for
what is flagged as injected. -/
def mouseProc (self : MouseHook) (screenCenter : Spot) (code : Int32) (wparam : UInt64) (info : MouseHookInfo) :
    MouseHook × Option InputEvent × Option Spot × HookResult :=
  if code ≠ hcAction then (self, none, none, .callNext)
  else if info.flags &&& llmhfInjected ≠ 0 then (self, none, none, .callNext)
  else
    let (hook, event, cursor) := self.convertMouse screenCenter wparam.toUInt32 info
    (hook, event, cursor, if self.suppressed then .swallow else .callNext)

/-- `set_suppressed`, and where it puts the cursor. -/
def setSuppressed (self : MouseHook) (screenCenter : Spot) (suppressed : Bool) : MouseHook × Option Spot :=
  if suppressed then ({ self with suppressed, haveLast := true, last := screenCenter }, some screenCenter)
  else ({ self with suppressed, haveLast := false }, none)

/-- Where the next movement counts from. -/
def anchor (self : MouseHook) : Option Spot := if self.haveLast then some self.last else none

end MouseHook

/-- A call of the hook as the OS makes it, about the cursor going so far from where it is. -/
structure MouseCall where
  code : Int32
  wparam : UInt64
  offset : Spot
  mouseData : UInt32
  flags : UInt32
deriving DecidableEq, Repr

namespace MouseCall

def motion (self : MouseCall) : Option InputEvent := motionBetween (0, 0) self.offset

def own (self : MouseCall) : Bool := self.code = hcAction ∧ self.flags &&& llmhfInjected = 0

def moves (self : MouseCall) : Bool := self.wparam.toUInt32 = wmMouseMove

end MouseCall

/-- The hook, the cursor it is told of, what it has queued, and which calls the desktop saw. -/
structure MouseDesk where
  hook : MouseHook
  cursor : Spot
  queued : List InputEvent
  passed : List MouseCall
deriving DecidableEq, Repr

def motions (events : List InputEvent) : List InputEvent :=
  events.filter fun | .motion _ => true | _ => false

/-- From each spot to the next. -/
def motionsAlong (spots : List Spot) : List InputEvent :=
  (spots.zip spots.tail).filterMap fun (last, spot) => motionBetween last spot

namespace MouseDesk
variable (screenCenter : Spot) (settle : Spot → Spot)

def spot (self : MouseDesk) (call : MouseCall) : Spot :=
  (self.cursor.1 + call.offset.1, self.cursor.2 + call.offset.2)

/-- The OS calls the hook. Where a movement is passed on, the cursor goes to what the desktop
makes of its spot, which may lie past an edge. -/
def call (self : MouseDesk) (call : MouseCall) : MouseDesk :=
  let (hook, event, cursor, result) := self.hook.mouseProc screenCenter call.code call.wparam
    ⟨self.spot call, call.mouseData, call.flags⟩
  let queued := self.queued ++ event.toList
  match result with
  | .swallow => ⟨hook, cursor.getD self.cursor, queued, self.passed⟩
  | .callNext =>
    ⟨hook, if call.moves then settle (self.spot call) else cursor.getD self.cursor, queued, self.passed ++ [call]⟩

def run (self : MouseDesk) (calls : List MouseCall) : MouseDesk := calls.foldl (call screenCenter settle) self

def setSuppressed (self : MouseDesk) (suppressed : Bool) : MouseDesk :=
  let (hook, cursor) := self.hook.setSuppressed screenCenter suppressed
  { self with hook, cursor := cursor.getD self.cursor }

def ownSpot (self : MouseDesk) (call : MouseCall) : Option Spot :=
  if call.own && call.moves then some (self.spot call) else none

def ownSpots (self : MouseDesk) : List MouseCall → List Spot
  | [] => []
  | call :: rest => (self.ownSpot call).toList ++ (self.call screenCenter settle call).ownSpots rest

end MouseDesk

theorem motions_append (events later : List InputEvent) :
    motions (events ++ later) = motions events ++ motions later :=
  List.filter_append ..

theorem motions_motionBetween (last spot : Spot) :
    motions (motionBetween last spot).toList = (motionBetween last spot).toList := by
  unfold motionBetween
  dsimp only
  split
  · rfl
  · rfl

theorem filterMap_singleton (f : α → Option β) (a : α) : [a].filterMap f = (f a).toList := by
  cases found : f a <;> simp [found]

theorem motionsAlong_cons (last spot : Spot) (rest : List Spot) :
    motionsAlong (last :: spot :: rest) = (motionBetween last spot).toList ++ motionsAlong (spot :: rest) := by
  rw [motionsAlong, List.tail_cons, List.zip_cons_cons, ← List.singleton_append, List.filterMap_append,
    filterMap_singleton]
  rfl

/-- What comes after a spot counts from it, and else from the anchor there was. -/
theorem motionsAlong_anchor (anchor spot : Option Spot) (rest : List Spot) :
    motionsAlong (anchor.toList ++ spot.toList) ++ motionsAlong ((spot.or anchor).toList ++ rest) =
      motionsAlong (anchor.toList ++ (spot.toList ++ rest)) := by
  cases spot with
  | none => cases anchor <;> rfl
  | some spot =>
    cases anchor with
    | none => rfl
    | some last =>
      show motionsAlong [last, spot] ++ motionsAlong (spot :: rest) = motionsAlong (last :: spot :: rest)
      rw [motionsAlong_cons, motionsAlong_cons, List.append_assoc]
      rfl

theorem motionBetween_offset (last offset : Spot) :
    motionBetween last (last.1 + offset.1, last.2 + offset.2) = motionBetween (0, 0) offset := by
  have same (a b : Int32) : a + b - a = b := by grind
  unfold motionBetween
  simp only [same, Int32.sub_zero]

namespace MouseHook
variable {hook : MouseHook} {screenCenter : Spot} {message : UInt32} {info : MouseHookInfo}

/-- What anything but a movement leaves as it is. -/
structure Still (hook : MouseHook) (converted : MouseHook × Option InputEvent) : Prop where
  suppressed : converted.1.suppressed = hook.suppressed
  anchor : converted.1.anchor = hook.anchor
  motionless : motions converted.2.toList = []

theorem Still.ite {message kind : UInt32} {this other : MouseHook × Option InputEvent} (first : hook.Still this)
    (second : hook.Still other) : hook.Still (if message = kind then this else other) := by
  split
  · exact first
  · exact second

theorem Still.press (button : MouseButton) (action : Action) : hook.Still (hook, some (.button button action)) :=
  ⟨rfl, rfl, rfl⟩

theorem motions_scroll (millilines : Int32) (delta : ScrollDelta) :
    motions (if millilines ≠ 0 then some (InputEvent.scroll delta) else none).toList = [] := by
  split
  · rfl
  · rfl

theorem convertAction_still (hook : MouseHook) (message : UInt32) (info : MouseHookInfo) :
    hook.Still (hook.convertAction message info) := by
  unfold convertAction
  iterate 8 refine .ite (.press ..) ?_
  apply Still.ite
  · exact ⟨rfl, rfl, motions_scroll ..⟩
  · apply Still.ite
    · exact ⟨rfl, rfl, motions_scroll ..⟩
    · exact ⟨rfl, rfl, rfl⟩

end MouseHook

namespace MouseDesk
variable {screenCenter : Spot} {settle : Spot → Spot} {s : MouseDesk} {call : MouseCall}

theorem call_other (other : call.own = false) :
    s.call screenCenter settle call = { s with
      cursor := if call.moves then settle (s.spot call) else s.cursor
      passed := s.passed ++ [call] } := by
  have unseen : s.hook.mouseProc screenCenter call.code call.wparam ⟨s.spot call, call.mouseData, call.flags⟩ =
      (s.hook, none, none, .callNext) := by
    unfold MouseHook.mouseProc
    by_cases code : call.code = hcAction
    · rw [if_neg (not_not.mpr code), if_pos fun own => by simp [MouseCall.own, code, own] at other]
    · rw [if_pos code]
  rw [MouseDesk.call, unseen]
  simp only [Option.toList_none, List.append_nil, Option.getD_none]

/-- What a call about this machine's own mouse leaves of what the hook converted it to. -/
structure Converts (s : MouseDesk) (call : MouseCall) (t : MouseDesk)
    (converted : MouseHook × Option InputEvent × Option Spot) : Prop where
  hook : t.hook = converted.1
  queued : t.queued = s.queued ++ converted.2.1.toList
  cursor : s.hook.suppressed = true → t.cursor = converted.2.2.getD s.cursor
  passed : t.passed = if s.hook.suppressed then s.passed else s.passed ++ [call]

variable (screenCenter settle s) in
theorem call_own (own : call.own = true) :
    s.Converts call (s.call screenCenter settle call)
      (s.hook.convertMouse screenCenter call.wparam.toUInt32 ⟨s.spot call, call.mouseData, call.flags⟩) := by
  obtain ⟨code, clear⟩ : call.code = hcAction ∧ call.flags &&& llmhfInjected = 0 := of_decide_eq_true own
  have seen : s.hook.mouseProc screenCenter call.code call.wparam ⟨s.spot call, call.mouseData, call.flags⟩ =
      let converted := s.hook.convertMouse screenCenter call.wparam.toUInt32 ⟨s.spot call, call.mouseData, call.flags⟩
      (converted.1, converted.2.1, converted.2.2, if s.hook.suppressed then .swallow else .callNext) := by
    unfold MouseHook.mouseProc
    rw [if_neg (not_not.mpr code), if_neg (not_not.mpr clear)]
  rw [MouseDesk.call, seen]
  cases withheld : s.hook.suppressed with
  | false => exact ⟨rfl, rfl, fun on => (Bool.noConfusion (withheld.symm.trans on)), by rw [withheld]; rfl⟩
  | true => exact ⟨rfl, rfl, fun _ => rfl, by rw [withheld]; rfl⟩

variable (screenCenter settle s) in
theorem call_still (own : call.own = true) (still : call.moves = false) :
    (s.call screenCenter settle call).hook.suppressed = s.hook.suppressed ∧
    (s.call screenCenter settle call).hook.anchor = s.hook.anchor ∧
    motions (s.call screenCenter settle call).queued = motions s.queued := by
  have converts := call_own screenCenter settle s own
  rw [MouseHook.convertMouse, if_neg (of_decide_eq_false still)] at converts
  obtain ⟨suppressed, anchor, motionless⟩ := s.hook.convertAction_still call.wparam.toUInt32
    ⟨s.spot call, call.mouseData, call.flags⟩
  refine ⟨?_, ?_, ?_⟩
  · rw [converts.hook, suppressed]
  · rw [converts.hook, anchor]
  · rw [converts.queued, motions_append, motionless, List.append_nil]

theorem anchor_eq_some {hook : MouseHook} {last : Spot} :
    hook.anchor = some last ↔ hook.haveLast = true ∧ hook.last = last := by
  unfold MouseHook.anchor
  cases hook.haveLast <;> simp

/-- Local input is withheld, and motion counts from the screen's centre. -/
structure Parked (screenCenter : Spot) (s : MouseDesk) : Prop where
  suppressed : s.hook.suppressed = true
  anchor : s.hook.anchor = some screenCenter

variable (settle) in
theorem Parked.next (parked : Parked screenCenter s) (call : MouseCall) :
    Parked screenCenter (s.call screenCenter settle call) ∧
    motions (s.call screenCenter settle call).queued =
      motions s.queued ++ (s.ownSpot call).toList.filterMap (motionBetween screenCenter) ∧
    (s.call screenCenter settle call).passed = s.passed ++ [call].filter (!·.own) := by
  cases own : call.own with
  | false =>
    rw [call_other own, ownSpot, own]
    refine ⟨⟨parked.suppressed, parked.anchor⟩, (List.append_nil _).symm, ?_⟩
    rw [List.filter_singleton, own]
    rfl
  | true =>
    have converts := call_own screenCenter settle s own
    have withheld : (s.call screenCenter settle call).passed = s.passed ++ [call].filter (!·.own) := by
      rw [converts.passed, parked.suppressed, if_pos rfl, List.filter_singleton, own]
      exact (List.append_nil _).symm
    cases moves : call.moves with
    | false =>
      obtain ⟨suppressed, anchor, queued⟩ := call_still screenCenter settle s own moves
      refine ⟨⟨suppressed.trans parked.suppressed, anchor.trans parked.anchor⟩, ?_, withheld⟩
      rw [queued, ownSpot, own, moves]
      exact (List.append_nil _).symm
    | true =>
      obtain ⟨have', last⟩ := anchor_eq_some.mp parked.anchor
      rw [MouseHook.convertMouse, if_pos (of_decide_eq_true moves), have', if_neg (by decide), parked.suppressed,
        if_pos rfl, last] at converts
      refine ⟨⟨?_, ?_⟩, ?_, withheld⟩
      · rw [converts.hook]
      · rw [converts.hook]
        exact anchor_eq_some.mpr ⟨rfl, rfl⟩
      · rw [converts.queued, motions_append, motions_motionBetween, ownSpot, own, moves]
        rfl

/-- Nobody else takes a cursor at the centre from there. The hook's own parking of it is told to it as
injected too, and goes nowhere. -/
def StaysPut (screenCenter : Spot) (settle : Spot → Spot) (call : MouseCall) : Prop :=
  call.moves = true → call.own = true ∨
    settle (screenCenter.1 + call.offset.1, screenCenter.2 + call.offset.2) = screenCenter

instance (screenCenter : Spot) (settle : Spot → Spot) (call : MouseCall) :
    Decidable (StaysPut screenCenter settle call) :=
  inferInstanceAs (Decidable (_ → _ ∨ _))

variable (settle) in
/-- Where only this machine's own mouse moves it, a parked cursor stays, and each of its movements counts
from there. -/
theorem Parked.stays (parked : Parked screenCenter s) (here : s.cursor = screenCenter)
    (alone : StaysPut screenCenter settle call) :
    (s.call screenCenter settle call).cursor = screenCenter ∧
      (s.ownSpot call).toList.filterMap (motionBetween screenCenter) =
        (if call.own && call.moves then call.motion else none).toList := by
  constructor
  · cases own : call.own with
    | false =>
      rw [call_other own]
      cases moves : call.moves with
      | false => exact here
      | true =>
        have put := (alone moves).resolve_left (Bool.eq_false_iff.mp own)
        rw [if_pos rfl, spot, here, put]
    | true =>
      have converts := call_own screenCenter settle s own
      rw [converts.cursor parked.suppressed]
      cases moves : call.moves with
      | false =>
        rw [MouseHook.convertMouse, if_neg (of_decide_eq_false moves)]
        exact here
      | true =>
        rw [MouseHook.convertMouse, if_pos (of_decide_eq_true moves), (anchor_eq_some.mp parked.anchor).1,
          if_neg (by decide), parked.suppressed, if_pos rfl]
        rfl
  · rw [ownSpot]
    split
    · rw [spot, here, Option.toList_some, filterMap_singleton, motionBetween_offset]
      rfl
    · rfl

variable (screenCenter settle) in
theorem freed_next (freed : s.hook.suppressed = false) (call : MouseCall) :
    (s.call screenCenter settle call).hook.suppressed = false ∧
    (s.call screenCenter settle call).hook.anchor = (s.ownSpot call).or s.hook.anchor ∧
    motions (s.call screenCenter settle call).queued =
      motions s.queued ++ motionsAlong (s.hook.anchor.toList ++ (s.ownSpot call).toList) ∧
    (s.call screenCenter settle call).passed = s.passed ++ [call] := by
  have lone (anchor : Option Spot) : motionsAlong (anchor.toList ++ []) = [] := by cases anchor <;> rfl
  cases own : call.own with
  | false =>
    rw [call_other own, ownSpot, own]
    refine ⟨freed, rfl, ?_, rfl⟩
    exact ((congrArg _ (lone _)).trans (List.append_nil _)).symm
  | true =>
    have converts := call_own screenCenter settle s own
    have seen := converts.passed
    rw [freed, if_neg (by decide)] at seen
    cases moves : call.moves with
    | false =>
      obtain ⟨suppressed, anchor, queued⟩ := call_still screenCenter settle s own moves
      refine ⟨suppressed.trans freed, ?_, ?_, seen⟩
      · rw [anchor, ownSpot, own, moves]
        rfl
      · rw [queued, ownSpot, own, moves]
        exact ((congrArg _ (lone _)).trans (List.append_nil _)).symm
    | true =>
      rw [ownSpot, own, moves]
      cases anchored : s.hook.haveLast with
      | false =>
        rw [MouseHook.convertMouse, if_pos (of_decide_eq_true moves), anchored, if_pos (by decide)] at converts
        refine ⟨?_, ?_, ?_, seen⟩
        · rw [converts.hook]
          exact freed
        · rw [converts.hook]
          rfl
        · rw [converts.queued, MouseHook.anchor, anchored, motions_append]
          rfl
      | true =>
        rw [MouseHook.convertMouse, if_pos (of_decide_eq_true moves), anchored, if_neg (by decide), freed,
          if_neg (by decide)] at converts
        refine ⟨?_, ?_, ?_, seen⟩
        · rw [converts.hook]
        · rw [converts.hook]
          rfl
        · rw [converts.queued, MouseHook.anchor, anchored, motions_append, motions_motionBetween]
          exact congrArg _ ((motionsAlong_cons ..).trans (List.append_nil _)).symm

variable (settle) in
theorem Parked.run (parked : Parked screenCenter s) (calls : List MouseCall) :
    motions (s.run screenCenter settle calls).queued =
      motions s.queued ++ (s.ownSpots screenCenter settle calls).filterMap (motionBetween screenCenter) ∧
    (s.run screenCenter settle calls).passed = s.passed ++ calls.filter (!·.own) := by
  induction calls generalizing s with
  | nil => exact ⟨(List.append_nil _).symm, (List.append_nil _).symm⟩
  | cons call rest ih =>
    obtain ⟨next, queued, passed⟩ := parked.next settle call
    obtain ⟨later, seen⟩ := ih next
    constructor
    · rw [ownSpots, List.filterMap_append, ← List.append_assoc, ← queued]
      exact later
    · rw [← List.singleton_append, List.filter_append, ← List.append_assoc, ← passed]
      exact seen

variable (settle) in
theorem Parked.run_alone (parked : Parked screenCenter s) (here : s.cursor = screenCenter) (calls : List MouseCall)
    (alone : ∀ call ∈ calls, StaysPut screenCenter settle call) :
    (s.run screenCenter settle calls).cursor = screenCenter ∧
      (s.ownSpots screenCenter settle calls).filterMap (motionBetween screenCenter) =
        calls.filterMap fun call => if call.own && call.moves then call.motion else none := by
  induction calls generalizing s with
  | nil => exact ⟨here, rfl⟩
  | cons call rest ih =>
    rw [List.forall_mem_cons] at alone
    obtain ⟨stays, own⟩ := parked.stays settle here alone.1
    obtain ⟨ends, later⟩ := ih (parked.next settle call).1 stays alone.2
    refine ⟨ends, ?_⟩
    rw [ownSpots, List.filterMap_append, own, later, ← List.singleton_append, List.filterMap_append,
      filterMap_singleton]

theorem freed_run (freed : s.hook.suppressed = false) (calls : List MouseCall) :
    motions (s.run screenCenter settle calls).queued =
      motions s.queued ++ motionsAlong (s.hook.anchor.toList ++ s.ownSpots screenCenter settle calls) ∧
    (s.run screenCenter settle calls).passed = s.passed ++ calls := by
  induction calls generalizing s with
  | nil =>
    refine ⟨?_, (List.append_nil _).symm⟩
    cases s.hook.anchor <;> exact (List.append_nil _).symm
  | cons call rest ih =>
    obtain ⟨next, anchor, queued, passed⟩ := freed_next screenCenter settle freed call
    obtain ⟨later, seen⟩ := ih next
    constructor
    · rw [ownSpots, ← motionsAlong_anchor, ← List.append_assoc, ← queued, ← anchor]
      exact later
    · rw [← List.singleton_append, ← List.append_assoc, ← passed]
      exact seen

/-- From a switch of the suppression on, in whatever state it came: on, each movement of this machine's own
mouse is queued as how far it takes the cursor from the centre, which is all of it where nobody
else moves the cursor; off, as how far it takes the cursor from where the one before did. On, the
desktop sees what is not this machine's own, and nothing else; off, everything. -/
theorem motion_reported (screenCenter : Spot) (settle : Spot → Spot) (s : MouseDesk) (calls : List MouseCall) :
    (let parked := s.setSuppressed screenCenter true
     let ended := parked.run screenCenter settle calls
     motions ended.queued = motions s.queued ++
        (parked.ownSpots screenCenter settle calls).filterMap (motionBetween screenCenter) ∧
      ended.passed = s.passed ++ calls.filter (!·.own) ∧
      ((∀ call ∈ calls, StaysPut screenCenter settle call) →
        ended.cursor = screenCenter ∧ motions ended.queued = motions s.queued ++
          calls.filterMap fun call => if call.own && call.moves then call.motion else none)) ∧
    (let freed := s.setSuppressed screenCenter false
     let ended := freed.run screenCenter settle calls
     motions ended.queued = motions s.queued ++ motionsAlong (freed.ownSpots screenCenter settle calls) ∧
      ended.passed = s.passed ++ calls) := by
  have parked : Parked screenCenter (s.setSuppressed screenCenter true) := ⟨rfl, rfl⟩
  obtain ⟨queued, passed⟩ := parked.run settle calls
  refine ⟨⟨queued, passed, fun alone => ?_⟩, freed_run rfl calls⟩
  obtain ⟨stays, own⟩ := parked.run_alone settle rfl calls alone
  exact ⟨stays, queued.trans (congrArg _ own)⟩

/-- Twice a screen's width to the right, of a cursor at the right edge, and both come through. In between
the hook is told of its parking of the cursor. -/
theorem motion_reported_past_edge :
    let push : MouseCall := ⟨hcAction, wmMouseMove.toUInt64, (1920, 0), 0, 0⟩
    let parking : MouseCall := ⟨hcAction, wmMouseMove.toUInt64, (0, 0), 0, llmhfInjected⟩
    let desk : MouseDesk := ⟨.new 3 3, (1919, 500), [], []⟩
    let ended := (desk.setSuppressed (960, 540) true).run (960, 540) id [push, parking, push]
    ended.cursor = (960, 540) ∧ motions ended.queued = [.motion ⟨1920, 0⟩, .motion ⟨1920, 0⟩] :=
  (motion_reported (960, 540) id ⟨.new 3 3, (1919, 500), [], []⟩
    [⟨hcAction, wmMouseMove.toUInt64, (1920, 0), 0, 0⟩, ⟨hcAction, wmMouseMove.toUInt64, (0, 0), 0, llmhfInjected⟩,
      ⟨hcAction, wmMouseMove.toUInt64, (1920, 0), 0, 0⟩]).1.2.2 (by decide)

end MouseDesk
end Omnipresent
