import PelionClient.Lib.Run
import PelionClient.Lib.EventQueue

/-!
# The scanner (`GAPDevice`)

The main loop calls `GAPDevice::run` again and again on one object. `run` initialises the BLE stack, posts the periodic
`blink`, and dispatches the object's event queue until `demo_mode_end` breaks the dispatch. The queue outlives the call.

A step of the system is an action of the main loop, of the BLE stack, or the delivery of a pending event; the actions carry
every result that the stack returns to the code. Delivery is in any order.

`blink` only toggles a LED and `process_events` only lets the stack run, which is what the other actions of the stack
model. The demo timer and `_on_duration_end_id`, which nothing reads, are left out.
-/

namespace PelionClient.Gap

open Lib

/-- The functions that are posted on `_event_queue`. -/
inductive Handler
  | blink
  | processEvents
  | demoModeStart
  | scan
  | onDurationEnd
  | demoModeEnd
deriving DecidableEq, Repr

/-- Where the main loop is. -/
inductive Phase
  /-- Not in `run`. -/
  | outside
  /-- In `_ble.init`. -/
  | initialising
  /-- In `dispatch_forever`. -/
  | dispatching
  /-- In `dispatch_forever`, after `break_dispatch`. -/
  | breaking
deriving DecidableEq, Repr

inductive TimeoutSource
  | advertising
  | scan
  | conn
  | other
deriving DecidableEq, Repr

structure GapDevice where
  phase : Phase
  /-- `_ble.hasInitialized()` -/
  hasInitialized : Bool
  /-- Calls of `on_init_complete` that the stack still owes. -/
  initPending : Nat
  /-- The radio is scanning. -/
  scanning : Bool
  eventQueue : EventQueue Handler
  setIndex : Nat
  scanCount : Nat
deriving DecidableEq, Repr

/-- A new object, with a queue for `capacity` events. -/
def GapDevice.fresh (capacity : Nat) : GapDevice := ⟨.outside, false, 0, false, ⟨capacity, []⟩, 0, 0⟩

/-- `_event_queue.call` or `_event_queue.call_in`. -/
def GapDevice.call (s : GapDevice) (h : Handler) : GapDevice := { s with eventQueue := s.eventQueue.call h }

/-! ## The handlers -/

/-- `on_init_complete`, after the stack has initialised or failed to. A failure of `setPreferredPhys` is only printed. -/
def onInitComplete (s : GapDevice) (error _setPreferredPhysError : Bool) : GapDevice :=
  if error then s else s.call .demoModeStart

def demoModeStart (s : GapDevice) : GapDevice := (s.call .scan).call .onDurationEnd

def scan (s : GapDevice) (setScanParamsError startScanError : Bool) : GapDevice :=
  if setScanParamsError then s
  else if startScanError then s
  else { s with scanning := true }

def onDurationEnd (s : GapDevice) : GapDevice := s.call .demoModeEnd

/-- `on_timeout`. Only a connection timeout does more than print. -/
def onTimeout (s : GapDevice) : TimeoutSource → GapDevice
  | .conn => s.call .demoModeEnd
  | _ => s

/-- `demo_mode_end`: `_ble.shutdown()` and `break_dispatch()`. -/
def demoModeEnd (s : GapDevice) : GapDevice :=
  { s with scanCount := 0, setIndex := s.setIndex + 1, hasInitialized := false, scanning := false, phase := .breaking }

/-- The handler of a delivered event. -/
def handle (s : GapDevice) (setScanParamsError startScanError : Bool) : Handler → GapDevice
  | .blink => s
  | .processEvents => s
  | .demoModeStart => demoModeStart s
  | .scan => scan s setScanParamsError startScanError
  | .onDurationEnd => onDurationEnd s
  | .demoModeEnd => demoModeEnd s

/-! ## The system -/

inductive Act
  /-- The main loop calls `run`. -/
  | run
  /-- `_ble.init` returns. -/
  | initReturn (error : Bool)
  /-- The stack calls `on_init_complete`. -/
  | initComplete (error setPreferredPhysError : Bool)
  /-- The stack calls `schedule_ble_events`. -/
  | scheduleBleEvents
  /-- The stack calls `on_timeout`. -/
  | timeout (source : TimeoutSource)
  /-- The stack calls `on_scan`. -/
  | advertisement
  /-- The dispatch loop delivers a pending event. -/
  | deliver (e : Event Handler) (setScanParamsError startScanError : Bool)
  /-- `dispatch_forever` returns, and `run` with it. -/
  | dispatchReturn
deriving DecidableEq, Repr

/-- The dispatch loop is running. -/
def Phase.Dispatches (p : Phase) : Prop := p = .dispatching ∨ p = .breaking

instance (p : Phase) : Decidable p.Dispatches := inferInstanceAs (Decidable (_ ∨ _))

/-- When an action can happen. -/
def Enabled (s : GapDevice) : Act → Prop
  | .run => s.phase = .outside
  | .initReturn _ => s.phase = .initialising
  | .initComplete _ _ => s.phase ≠ .outside ∧ 0 < s.initPending
  | .scheduleBleEvents => s.phase ≠ .outside
  | .timeout _ => s.phase ≠ .outside
  | .advertisement => s.phase ≠ .outside ∧ s.scanning = true
  | .deliver e _ _ => s.phase.Dispatches ∧ e ∈ s.eventQueue.pending
  | .dispatchReturn => s.phase = .breaking

instance (s : GapDevice) (a : Act) : Decidable (Enabled s a) := by
  cases a <;> simp only [Enabled] <;> infer_instance

/-- What it does. `run` returns at once if the stack is initialised; an event is released when its handler returns. -/
def next (s : GapDevice) : Act → GapDevice
  | .run =>
    if s.hasInitialized then s
    else { s with phase := .initialising, initPending := s.initPending + 1 }
  | .initReturn error =>
    if error then { s with phase := .outside, initPending := s.initPending - 1 }
    else { s with phase := .dispatching, eventQueue := s.eventQueue.callEvery .blink }
  | .initComplete error physError =>
    onInitComplete { s with initPending := s.initPending - 1, hasInitialized := s.hasInitialized || !error }
      error physError
  | .scheduleBleEvents => s.call .processEvents
  | .timeout source => onTimeout s source
  | .advertisement => { s with scanCount := s.scanCount + 1 }
  | .deliver e paramsError scanError =>
    let t := handle s paramsError scanError e.handler
    { t with eventQueue := t.eventQueue.finish e }
  | .dispatchReturn => { s with phase := .outside }

/-- One action, if it can happen. -/
def step (s : GapDevice) (a : Act) : Option GapDevice := if Enabled s a then some (next s a) else none

theorem step_eq_some {s t : GapDevice} {a : Act} : step s a = some t ↔ Enabled s a ∧ next s a = t := by
  simp [step]

/-! ## What an action does to the queue and the phase -/

/-- The events that an action posts. -/
def posts : Act → List (Event Handler)
  | .initReturn false => [⟨.blink, true⟩]
  | .initComplete false _ => [⟨.demoModeStart, false⟩]
  | .scheduleBleEvents => [⟨.processEvents, false⟩]
  | .timeout .conn => [⟨.demoModeEnd, false⟩]
  | .deliver ⟨.demoModeStart, _⟩ _ _ => [⟨.scan, false⟩, ⟨.onDurationEnd, false⟩]
  | .deliver ⟨.onDurationEnd, _⟩ _ _ => [⟨.demoModeEnd, false⟩]
  | _ => []

/-- The queue once the posts of an action and its delivery are done. -/
def queueAfter (q : EventQueue Handler) (a : Act) : EventQueue Handler :=
  match a with
  | .deliver e _ _ => (q.postAll (posts a)).finish e
  | _ => q.postAll (posts a)

theorem scan_queue (s : GapDevice) (p q : Bool) : (scan s p q).eventQueue = s.eventQueue ∧ (scan s p q).phase = s.phase ∧
    (scan s p q).initPending = s.initPending := by
  cases p <;> cases q <;> exact ⟨rfl, rfl, rfl⟩

/-- **The queue after an action.** -/
theorem next_eventQueue (s : GapDevice) (a : Act) : (next s a).eventQueue = queueAfter s.eventQueue a := by
  cases a with
  | run =>
    simp only [next]
    split <;> rfl
  | initReturn error => cases error <;> rfl
  | initComplete error physError => cases error <;> rfl
  | timeout source => cases source <;> rfl
  | scheduleBleEvents | advertisement | dispatchReturn => rfl
  | deliver e p q =>
    obtain ⟨h, periodic⟩ := e
    cases h with
    | scan =>
      simp only [next, handle, (scan_queue s p q).1]
      rfl
    | blink | processEvents | demoModeStart | onDurationEnd | demoModeEnd => rfl

/-- The phase after an action that leaves `run` where it is. -/
theorem next_phase (s : GapDevice) {a : Act} (hrun : a ≠ .run) (hinit : ∀ e, a ≠ .initReturn e)
    (hret : a ≠ .dispatchReturn) (hend : ∀ per p q, a ≠ .deliver ⟨.demoModeEnd, per⟩ p q) :
    (next s a).phase = s.phase := by
  cases a with
  | run => exact absurd rfl hrun
  | initReturn error => exact absurd rfl (hinit error)
  | dispatchReturn => exact absurd rfl hret
  | initComplete error physError => cases error <;> rfl
  | timeout source => cases source <;> rfl
  | scheduleBleEvents | advertisement => rfl
  | deliver e p q =>
    obtain ⟨h, periodic⟩ := e
    cases h with
    | demoModeEnd => exact absurd rfl (hend periodic p q)
    | scan => exact (scan_queue s p q).2.1
    | blink | processEvents | demoModeStart | onDurationEnd => rfl

end PelionClient.Gap
