import PelionClient.Lib.Run
import PelionClient.Blink.Pattern

/-!
# One `Blinky` and its timer events

`start` copies a pattern and plays its first delay; each delivery of a timer event plays the next one. Playing a delay sends
a timer event, toggles the LED and marks the object started; at the end of the pattern the completion callback is called
and the object marked idle.

The callback is the caller's code and may call `start` and `stop` itself, so what it does is an input: a `Script`. The
callback pointer is taken to be one that can be called. The events that are sent and not yet delivered are kept as the numbers
of the starts that sent them, and the object's visible actions in a log.
-/

namespace PelionClient.Blink

/-- What ends the program. -/
inductive Fault
  /-- `get_next_int` reads through a NULL `_curr_pattern`. -/
  | nullRead
  /-- `get_next_int` reads where no string is. -/
  | badRead
  /-- `assert(false)` in `run_step`. -/
  | assertion
deriving DecidableEq, Repr

inductive BlinkyState
  | idle
  | started
deriving DecidableEq, Repr

/-- What others see of the object. -/
inductive Action
  /-- `eventOS_event_send_after` with the delay in milliseconds. -/
  | schedule (delay : Int)
  | toggleLed
  | callback
deriving DecidableEq, Repr

structure Blinky where
  /-- `_pattern`: the allocated bytes. -/
  pattern : Option (List UInt8)
  /-- `_curr_pattern`, as an offset into them. -/
  currPattern : Option Nat
  state : BlinkyState
  restart : Bool
  tasklet : Int
  /-- For each undelivered timer event, the start whose delay it times. -/
  inFlight : List Nat
  /-- The starts that got to their first step. -/
  starts : Nat
  /-- There was no successful start after the last `stop`, or after the last start that failed to allocate. -/
  stopped : Bool
  log : List Action
deriving DecidableEq, Repr

/-- The constructor. -/
def Blinky.fresh : Blinky := ⟨none, none, .idle, false, -1, [], 0, false, []⟩

/-- How the program is built. -/
structure Config where
  /-- The width of `long`. -/
  longBits : Nat
  /-- `assert` is compiled in. -/
  asserts : Bool
deriving DecidableEq, Repr

/-- The arguments of `start`, and the results of the calls that it makes. -/
structure StartArgs where
  pattern : List UInt8
  patternRestart : Bool
  /-- The result of `eventOS_event_handler_create`. -/
  handlerCreate : Int
  /-- `malloc` succeeds. -/
  mallocOk : Bool
  /-- `eventOS_event_send_after` succeeds. -/
  sendOk : Bool
deriving DecidableEq, Repr

/-- The pattern `"100"`, and no call fails. -/
def hundred : StartArgs := ⟨[49, 48, 48], false, 0, true, true⟩

/-- The first field of the pattern, as `get_next_int` reads it. -/
def StartArgs.firstDelay (bits : Nat) (a : StartArgs) : Int := (nextField bits (a.pattern ++ [0])).1

/-- What the completion callback does. Of a nested `start`, `inner` is what the callback does if that start calls it. -/
inductive Script
  | done
  | stop (next : Script)
  | start (a : StartArgs) (inner next : Script)
deriving DecidableEq, Repr

/-! ## The functions -/

/-- `get_next_int`, which reads at `_curr_pattern` and moves it. -/
def Blinky.getNextInt (bits : Nat) (s : Blinky) : Except Fault (Int × Blinky) :=
  match s.currPattern, s.pattern with
  | none, _ => .error .nullRead
  | some _, none => .error .badRead
  | some curr, some pattern =>
    if 0 ∈ pattern.drop curr then
      let (result, moved) := nextField bits (pattern.drop curr)
      .ok (result, { s with currPattern := some (curr + moved) })
    else .error .badRead

/-- `eventOS_event_send_after` and `mcc_platform_toggle_led`. -/
def Blinky.send (s : Blinky) (delay : Int) : Blinky :=
  { s with inFlight := s.inFlight ++ [s.starts], log := s.log ++ [.schedule delay, .toggleLed] }

/-- The end of `run_step` after `get_next_int`. -/
def playDelay (cfg : Config) (callback : Blinky → Except Fault Blinky) (sendOk : Bool) (delay : Int) (s : Blinky) :
    Except Fault (Bool × Blinky) :=
  if delay < 0 then do
    let t ← callback { s with log := s.log ++ [.callback] }
    .ok (false, { t with state := .idle })
  else if sendOk then .ok (true, { s.send delay with state := .started })
  else if cfg.asserts then .error .assertion
  else .ok (false, { s with state := .idle })

def runStep (cfg : Config) (callback : Blinky → Except Fault Blinky) (sendOk : Bool) (s : Blinky) :
    Except Fault (Bool × Blinky) := do
  let (delay, t) ← s.getNextInt cfg.longBits
  playDelay cfg callback sendOk delay t

def stop (s : Blinky) : Blinky := { s with pattern := none, currPattern := none, state := .idle }

/-- `malloc` and `memcpy` in `start`. -/
def Blinky.load (s : Blinky) (pattern : List UInt8) : Blinky :=
  { s with pattern := some (pattern ++ [0]), currPattern := some 0, starts := s.starts + 1 }

/-- The first assignments of `start`. A tasklet that exists is used again. -/
def Blinky.configure (s : Blinky) (a : StartArgs) : Blinky :=
  { s with restart := a.patternRestart, tasklet := if s.tasklet < 0 then a.handlerCreate else s.tasklet }

def start (cfg : Config) (callback : Blinky → Except Fault Blinky) (a : StartArgs) (s : Blinky) :
    Except Fault (Bool × Blinky) :=
  let s := s.configure a
  if s.tasklet < 0 then .ok (false, s)
  else if a.mallocOk then runStep cfg callback a.sendOk ((stop s).load a.pattern)
  else .ok (false, { stop s with stopped := true })

/-- A call of `stop` by the user. -/
def stopCall (s : Blinky) : Blinky := { stop s with stopped := true }

/-- A call of `start` by the user. -/
def startCall (cfg : Config) (callback : Blinky → Except Fault Blinky) (a : StartArgs) (s : Blinky) :
    Except Fault Blinky := do
  let (success, t) ← start cfg callback a s
  .ok { t with stopped := t.stopped && !success }

/-- The completion callback. -/
def runScript (cfg : Config) : Script → Blinky → Except Fault Blinky
  | .done, s => .ok s
  | .stop next, s => runScript cfg next (stopCall s)
  | .start a inner next, s => do
    let t ← startCall cfg (runScript cfg inner) a s
    runScript cfg next t

/-- `event_handler`. It may step twice, so there are two callbacks and two results of `eventOS_event_send_after`. -/
def eventHandler (cfg : Config) (callback callback' : Script) (sendOk sendOk' : Bool) (s : Blinky) :
    Except Fault Blinky := do
  let (success, t) ← runStep cfg (runScript cfg callback) sendOk s
  if success = false ∧ t.restart = true then
    let (_, u) ← runStep cfg (runScript cfg callback') sendOk' { t with currPattern := t.pattern.map fun _ => 0 }
    .ok u
  else .ok t

/-! ## The system -/

inductive Act
  | start (a : StartArgs) (callback : Script)
  | stop
  /-- The event loop delivers a timer event of the start number `sender`. -/
  | deliver (sender : Nat) (callback callback' : Script) (sendOk sendOk' : Bool)
deriving DecidableEq, Repr

/-- What an action does, if it can happen. -/
def act (cfg : Config) (s : Blinky) : Act → Except Fault Blinky
  | .start a callback => startCall cfg (runScript cfg callback) a s
  | .stop => .ok (stopCall s)
  | .deliver sender callback callback' sendOk sendOk' =>
    eventHandler cfg callback callback' sendOk sendOk' { s with inFlight := s.inFlight.erase sender }

/-- Only an event in flight can be delivered. -/
def Enabled (s : Blinky) : Act → Prop
  | .deliver sender _ _ _ _ => sender ∈ s.inFlight
  | _ => True

instance (s : Blinky) (a : Act) : Decidable (Enabled s a) := by
  cases a <;> simp only [Enabled] <;> infer_instance

/-- One action that does not end the program. -/
def step (cfg : Config) (s : Blinky) (a : Act) : Option Blinky :=
  if Enabled s a then (act cfg s a).toOption else none

theorem step_eq_some {cfg : Config} {s t : Blinky} {a : Act} :
    step cfg s a = some t ↔ Enabled s a ∧ act cfg s a = .ok t := by
  unfold step
  split
  · rename_i hen
    rw [Lib.toOption_eq_some_iff]
    exact (and_iff_right hen).symm
  · rename_i hen
    simp [hen]

/-! ## The callbacks that an action makes -/

/-- If stepping `s` calls back, it does so on an object that meets `Q`. -/
def CallsBackOn (cfg : Config) (Q : Blinky → Prop) (s : Blinky) : Prop :=
  ∀ delay t, s.getNextInt cfg.longBits = .ok (delay, t) → delay < 0 → Q { t with log := t.log ++ [.callback] }

/-- If the start of `s` calls back, it does so on an object that meets `Q`. -/
def StartCallsBackOn (cfg : Config) (Q : Blinky → Prop) (a : StartArgs) (s : Blinky) : Prop :=
  0 ≤ (s.configure a).tasklet → a.mallocOk = true → CallsBackOn cfg Q ((stop (s.configure a)).load a.pattern)

/-- Every callback that the action makes from `s`, by its script and on an object, meets `Q`. -/
def Callbacks (cfg : Config) (Q : Script → Blinky → Prop) (s : Blinky) : Act → Prop
  | .start a callback => StartCallsBackOn cfg (Q callback) a s
  | .stop => True
  | .deliver sender callback callback' sendOk _ =>
    CallsBackOn cfg (Q callback) { s with inFlight := s.inFlight.erase sender } ∧
      ∀ t, runStep cfg (runScript cfg callback) sendOk { s with inFlight := s.inFlight.erase sender } = .ok (false, t) →
        t.restart = true → CallsBackOn cfg (Q callback') { t with currPattern := t.pattern.map fun _ => 0 }

theorem CallsBackOn.mono {cfg : Config} {Q R : Blinky → Prop} {s : Blinky} (h : CallsBackOn cfg Q s)
    (himp : ∀ t, Q t → R t) : CallsBackOn cfg R s :=
  fun delay t hread hneg => himp _ (h delay t hread hneg)

/-! ## What a call can do -/

section Cases

variable {cfg : Config} {callback : Blinky → Except Fault Blinky} {a : StartArgs} {sendOk success : Bool} {s t : Blinky}

theorem bind_eq_ok {α β : Type} {x : Except Fault α} {f : α → Except Fault β} {b : β} :
    x >>= f = .ok b ↔ ∃ a, x = .ok a ∧ f a = .ok b := by
  cases x <;> simp [bind, Except.bind]

theorem getNextInt_eq_ok {bits : Nat} {delay : Int} (h : s.getNextInt bits = .ok (delay, t)) :
    ∃ curr, t = { s with currPattern := some curr } := by
  unfold Blinky.getNextInt at h
  split at h
  · cases h
  · cases h
  · split at h
    · cases h
      exact ⟨_, rfl⟩
    · cases h

/-- A copied pattern can be read. -/
theorem getNextInt_load (bits : Nat) (pattern : List UInt8) :
    (s.load pattern).getNextInt bits =
      .ok ((nextField bits (pattern ++ [0])).1,
        { s.load pattern with currPattern := some (nextField bits (pattern ++ [0])).2 }) := by
  simp [Blinky.getNextInt, Blinky.load]

/-- The first delay that a start reads. -/
theorem firstDelay_eq {bits : Nat} {delay : Int} (h : (s.load a.pattern).getNextInt bits = .ok (delay, t)) :
    a.firstDelay bits = delay := by
  rw [getNextInt_load] at h
  exact congrArg Prod.fst (Except.ok.inj h)

/-- **`run_step`** reads a delay, and then calls back, or sends the next event, or fails to. -/
theorem runStep_cases (h : runStep cfg callback sendOk s = .ok (success, t)) :
    ∃ delay curr, s.getNextInt cfg.longBits = .ok (delay, { s with currPattern := some curr }) ∧
      ((delay < 0 ∧ success = false ∧
          ∃ u, callback { s with currPattern := some curr, log := s.log ++ [.callback] } = .ok u ∧
            t = { u with state := .idle }) ∨
        (0 ≤ delay ∧ sendOk = true ∧ success = true ∧
          t = { Blinky.send { s with currPattern := some curr } delay with state := .started }) ∨
        (0 ≤ delay ∧ sendOk = false ∧ success = false ∧ t = { s with currPattern := some curr, state := .idle })) := by
  obtain ⟨⟨delay, u⟩, hread, hplay⟩ := bind_eq_ok.mp h
  obtain ⟨curr, rfl⟩ := getNextInt_eq_ok hread
  refine ⟨delay, curr, hread, ?_⟩
  simp only [playDelay] at hplay
  split at hplay
  · rename_i hneg
    obtain ⟨v, hcb, hv⟩ := bind_eq_ok.mp hplay
    cases hv
    exact Or.inl ⟨hneg, rfl, v, hcb, rfl⟩
  · rename_i hneg
    split at hplay
    · rename_i hsend
      cases hplay
      exact Or.inr (Or.inl ⟨Int.not_lt.mp hneg, hsend, rfl, rfl⟩)
    · rename_i hsend
      split at hplay
      · cases hplay
      · cases hplay
        exact Or.inr (Or.inr ⟨Int.not_lt.mp hneg, Bool.eq_false_iff.mpr hsend, rfl, rfl⟩)

/-- **`start`** has no tasklet, or no memory, or stops the object, copies the pattern and steps. -/
theorem start_cases (h : start cfg callback a s = .ok (success, t)) :
    ((s.configure a).tasklet < 0 ∧ success = false ∧ t = s.configure a) ∨
      (0 ≤ (s.configure a).tasklet ∧ a.mallocOk = false ∧ success = false ∧
        t = { stop (s.configure a) with stopped := true }) ∨
      (0 ≤ (s.configure a).tasklet ∧ a.mallocOk = true ∧
        runStep cfg callback a.sendOk ((stop (s.configure a)).load a.pattern) = .ok (success, t)) := by
  simp only [start] at h
  split at h
  · rename_i htasklet
    cases h
    exact Or.inl ⟨htasklet, rfl, rfl⟩
  · rename_i htasklet
    have hpos : 0 ≤ (s.configure a).tasklet := Int.not_lt.mp htasklet
    split at h
    · rename_i hmalloc
      exact Or.inr (Or.inr ⟨hpos, hmalloc, h⟩)
    · rename_i hmalloc
      cases h
      exact Or.inr (Or.inl ⟨hpos, Bool.eq_false_iff.mpr hmalloc, rfl, rfl⟩)

/-- **`event_handler`** steps once, and again from the start of the pattern if the step failed and the pattern is to be
restarted. -/
theorem eventHandler_cases {callback callback' : Script} {sendOk' : Bool}
    (h : eventHandler cfg callback callback' sendOk sendOk' s = .ok t) :
    ∃ success u, runStep cfg (runScript cfg callback) sendOk s = .ok (success, u) ∧
      (t = u ∨ success = false ∧ u.restart = true ∧ ∃ success', runStep cfg (runScript cfg callback') sendOk'
        { u with currPattern := u.pattern.map fun _ => 0 } = .ok (success', t)) := by
  obtain ⟨⟨success, u⟩, hfirst, hrest⟩ := bind_eq_ok.mp h
  refine ⟨success, u, hfirst, ?_⟩
  simp only at hrest
  split at hrest
  · rename_i hagain
    obtain ⟨⟨success', v⟩, hsecond, hv⟩ := bind_eq_ok.mp hrest
    cases hv
    exact Or.inr ⟨hagain.1, hagain.2, success', hsecond⟩
  · cases hrest
    exact Or.inl rfl

/-- A delivery ends with its first step, unless that fails and the pattern is to be restarted. -/
theorem eventHandler_eq_ok {callback callback' : Script} {sendOk' : Bool}
    (h : runStep cfg (runScript cfg callback) sendOk s = .ok (success, t))
    (hlast : ¬(success = false ∧ t.restart = true)) :
    eventHandler cfg callback callback' sendOk sendOk' s = .ok t := by
  unfold eventHandler
  rw [h]
  exact if_neg hlast

/-- Else it steps once more. -/
theorem eventHandler_eq_again {callback callback' : Script} {sendOk' : Bool}
    (h : runStep cfg (runScript cfg callback) sendOk s = .ok (success, t))
    (hagain : success = false ∧ t.restart = true) :
    eventHandler cfg callback callback' sendOk sendOk' s =
      (runStep cfg (runScript cfg callback') sendOk' { t with currPattern := t.pattern.map fun _ => 0 }).map Prod.snd := by
  unfold eventHandler
  rw [h]
  show (if success = false ∧ t.restart = true then _ else _) = _
  rw [if_pos hagain]
  generalize runStep cfg (runScript cfg callback') sendOk' { t with currPattern := t.pattern.map fun _ => 0 } = r
  cases r <;> rfl

theorem startCall_cases (h : startCall cfg callback a s = .ok t) :
    ∃ success u, start cfg callback a s = .ok (success, u) ∧ t = { u with stopped := u.stopped && !success } := by
  obtain ⟨⟨success, u⟩, hstart, ht⟩ := bind_eq_ok.mp h
  cases ht
  exact ⟨success, u, hstart, rfl⟩

end Cases

/-! ## What every callback keeps -/

/-- The callback relates the object before it to the object after it by `R`. -/
def Keeps (R : Blinky → Blinky → Prop) (callback : Blinky → Except Fault Blinky) : Prop :=
  ∀ ⦃s t⦄, callback s = .ok t → R s t

/-- **A relation that `stop` keeps, and `start` if its callback does, is kept by every script.** -/
theorem keeps_runScript {cfg : Config} (R : Blinky → Blinky → Prop) (hrefl : ∀ s, R s s)
    (htrans : ∀ s t u, R s t → R t u → R s u) (hstop : ∀ s, R s (stopCall s))
    (hstart : ∀ a callback, Keeps R callback → Keeps R (startCall cfg callback a)) (script : Script) :
    Keeps R (runScript cfg script) := by
  induction script with
  | done =>
    intro s t h
    cases h
    exact hrefl s
  | stop next ih =>
    intro s t h
    have hnext : runScript cfg next (stopCall s) = .ok t := h
    exact htrans s _ t (hstop s) (ih hnext)
  | start a inner next ihInner ihNext =>
    intro s t h
    obtain ⟨u, hfirst, hnext⟩ := bind_eq_ok.mp h
    exact htrans s u t (hstart a _ ihInner hfirst) (ihNext hnext)

end PelionClient.Blink
