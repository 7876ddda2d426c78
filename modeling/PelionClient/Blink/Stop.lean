import PelionClient.Blink.Cursor

/-!
# Whether `stop` is final

After `stop` nothing of the object should be seen until it is started again (`StopFinal`). But `stop` leaves the timer event
in flight, and its delivery runs `run_step` whatever the state: it reads through the NULL cursor, or plays a pattern that a
failed start has copied. And `event_handler` looks at the restart flag only when the callback has returned: if the callback
has stopped the object, the handler steps it once more. In a stopped object a delivery is harmless only if there is none to
make (`harmless_iff`), and the rest of a delivery only if the restart flag is not set (`untouched_iff`). So `stop` is final
in the runs that stop the object, and fail to allocate, with nothing in flight and outside such a delivery
(`stopFinal_of_quietStops`), and not in those where a call from outside does so with an event in flight, or a callback of a
delivery leaves the object stopped with the restart flag set (`settled_of_stopFinal`).
-/

namespace PelionClient.Blink

open Lib

/-! ## `stop` is final -/

/-- Delivering an event in flight neither reads through a NULL cursor nor does anything that is seen. -/
def Harmless (cfg : Config) (s : Blinky) : Prop :=
  ∀ sender callback callback' sendOk sendOk', sender ∈ s.inFlight →
    act cfg s (.deliver sender callback callback' sendOk sendOk') ≠ .error .nullRead ∧
      ∀ t, act cfg s (.deliver sender callback callback' sendOk sendOk') = .ok t → t.log = s.log

/-- The same of the rest of a delivery whose first step, by its callback, has left the object stopped. -/
def Untouched (cfg : Config) (s : Blinky) : Act → Prop
  | .deliver sender callback _ sendOk _ => sender ∈ s.inFlight → ∀ success t,
    runStep cfg (runScript cfg callback) sendOk { s with inFlight := s.inFlight.erase sender } = .ok (success, t) →
      t.stopped = true → ∀ callback' sendOk',
        act cfg s (.deliver sender callback callback' sendOk sendOk') ≠ .error .nullRead ∧
          ∀ u, act cfg s (.deliver sender callback callback' sendOk sendOk') = .ok u → u.log = t.log
  | _ => True

/-- In every state of the run in which the object is stopped, and in every delivery that it is stopped in, nothing more of it
is seen and no pattern is read through a NULL cursor. -/
def StopFinal (cfg : Config) (as : List Act) : Prop :=
  Always (fun s => s.stopped = true → Harmless cfg s) (step cfg) .fresh as ∧
    Meets (Untouched cfg) (step cfg) .fresh as

/-! ## When it is -/

/-- A stopped object has nothing in flight. -/
def Quiet (s : Blinky) : Prop := s.stopped = true → s.inFlight = []

/-- A start that fails to allocate comes with nothing in flight. -/
def QuietMalloc (a : StartArgs) (s : Blinky) : Prop :=
  0 ≤ (s.configure a).tasklet → a.mallocOk = false → s.inFlight = []

/-- Run on `s`, the script stops the object, and fails to allocate, with nothing in flight only. -/
def Script.Quiet (cfg : Config) : Script → Blinky → Prop
  | .done, _ => True
  | .stop next, s => s.inFlight = [] ∧ next.Quiet cfg (stopCall s)
  | .start a inner next, s =>
    QuietMalloc a s ∧ StartCallsBackOn cfg (inner.Quiet cfg) a s ∧
      ∀ t, startCall cfg (runScript cfg inner) a s = .ok t → next.Quiet cfg t

/-- The same, of what the action does itself. -/
def QuietCall (s : Blinky) : Act → Prop
  | .start a _ => QuietMalloc a s
  | .stop => s.inFlight = []
  | .deliver _ _ _ _ _ => True

/-- The callback of the first step of a delivery does not return with the object stopped and the restart flag set. -/
def Settled (cfg : Config) (s : Blinky) : Act → Prop
  | .deliver sender callback _ _ _ => sender ∈ s.inFlight →
    CallsBackOn cfg (fun u => ∀ t, runScript cfg callback u = .ok t → t.restart = true → t.stopped = false)
      { s with inFlight := s.inFlight.erase sender }
  | _ => True

/-- The object is stopped, and a start fails to allocate, with nothing in flight only, by the action itself and by the
callbacks that it makes; and no delivery goes on to restart a stopped object. -/
def QuietStops (cfg : Config) (s : Blinky) (b : Act) : Prop :=
  QuietCall s b ∧ Callbacks cfg (Script.Quiet cfg) s b ∧ Settled cfg s b

/-! ## A delivery is never harmless -/

section Delivery

variable {cfg : Config} {s : Blinky}

/-- A step of an object that has a pattern is seen. -/
theorem runStep_seen (hv : s.Valid) (hcursor : s.currPattern ≠ none) :
    ∃ success t, runStep cfg (runScript cfg .done) true s = .ok (success, t) ∧ s.log.length < t.log.length ∧
      t.Valid ∧ t.pattern = s.pattern := by
  obtain ⟨c, hc⟩ := Option.ne_none_iff_exists'.mp hcursor
  obtain ⟨p, hp, hnul⟩ := hv.cursor c hc
  have hread : ∃ delay curr, s.getNextInt cfg.longBits = .ok (delay, { s with currPattern := some curr }) := by
    refine ⟨(nextField cfg.longBits (p.drop c)).1, c + (nextField cfg.longBits (p.drop c)).2, ?_⟩
    have hmem : 0 ∈ p.drop c := hnul
    simp only [Blinky.getNextInt, hc, hp, if_pos hmem]
  obtain ⟨delay, curr, hread⟩ := hread
  have hstep : runStep cfg (runScript cfg .done) true s =
      playDelay cfg (runScript cfg .done) true delay { s with currPattern := some curr } := by
    unfold runStep
    rw [hread]
    rfl
  have hvalid := valid_getNextInt hv hread
  rw [hstep]
  by_cases hneg : delay < 0
  · refine ⟨false, { s with currPattern := some curr, log := s.log ++ [.callback], state := .idle }, ?_, ?_, ?_, rfl⟩
    · simp only [playDelay, if_pos hneg]
      rfl
    · simp
    · exact hvalid.of_pointers rfl rfl
  · refine ⟨true, { Blinky.send { s with currPattern := some curr } delay with state := .started }, ?_, ?_, ?_, rfl⟩
    · simp only [playDelay, if_neg hneg]
      rfl
    · simp [Blinky.send]
    · exact hvalid.of_pointers rfl rfl

/-- So is the restart of an object that has a pattern. -/
theorem runStep_rewound_seen (hv : s.Valid) (hpattern : s.pattern ≠ none) :
    ∃ success t, runStep cfg (runScript cfg .done) true { s with currPattern := s.pattern.map fun _ => 0 } =
      .ok (success, t) ∧ s.log.length < t.log.length := by
  have hcursor : (s.pattern.map fun _ => 0) ≠ none := by
    intro hnone
    exact hpattern (Option.map_eq_none_iff.mp hnone)
  obtain ⟨success, t, hstep, hlog, _, _⟩ := @runStep_seen cfg _ (valid_rewind hv) hcursor
  exact ⟨success, t, hstep, hlog⟩

/-- The delivery of an event to an object that has a pattern is seen. -/
theorem eventHandler_seen (hv : s.Valid) (hcursor : s.currPattern ≠ none) :
    ∃ t, eventHandler cfg .done .done true true s = .ok t ∧ s.log.length < t.log.length := by
  obtain ⟨success, t, hfirst, hlog, hvt, hsame⟩ := @runStep_seen cfg s hv hcursor
  by_cases hagain : success = false ∧ t.restart = true
  · have hpattern : t.pattern ≠ none := by
      obtain ⟨c, hc⟩ := Option.ne_none_iff_exists'.mp hcursor
      obtain ⟨p, hp, _⟩ := hv.cursor c hc
      rw [hsame, hp]
      exact Option.some_ne_none p
    obtain ⟨success', u, hsecond, hlog'⟩ := @runStep_rewound_seen cfg t hvt hpattern
    refine ⟨u, ?_, Nat.lt_trans hlog hlog'⟩
    rw [eventHandler_eq_again hfirst hagain, hsecond]
    rfl
  · exact ⟨t, eventHandler_eq_ok hfirst hagain, hlog⟩

/-- **Only with nothing in flight is a delivery harmless.** -/
theorem harmless_iff (hv : s.Valid) : Harmless cfg s ↔ s.inFlight = [] := by
  constructor
  · intro h
    by_contra hflight
    obtain ⟨sender, hmem⟩ := List.exists_mem_of_ne_nil _ hflight
    obtain ⟨hread, hseen⟩ := h sender .done .done true true hmem
    by_cases hcursor : s.currPattern = none
    · apply hread
      simp only [act, eventHandler, runStep, Blinky.getNextInt, hcursor]
      rfl
    · have hv' : Blinky.Valid { s with inFlight := s.inFlight.erase sender } := hv.of_pointers rfl rfl
      obtain ⟨t, ht, hlog⟩ := @eventHandler_seen cfg _ hv' hcursor
      have hsame : t.log = s.log := hseen t ht
      rw [hsame] at hlog
      exact Nat.lt_irrefl _ hlog
  · intro hnone sender _ _ _ _ hmem
    rw [hnone] at hmem
    cases hmem

/-- A first step that calls back on `u` ends as the callback does. -/
theorem runStep_of_callback {callback : Blinky → Except Fault Blinky} {sendOk : Bool} {delay : Int} {u t : Blinky}
    (hread : s.getNextInt cfg.longBits = .ok (delay, u)) (hneg : delay < 0)
    (hcb : callback { u with log := u.log ++ [.callback] } = .ok t) :
    runStep cfg callback sendOk s = .ok (false, { t with state := .idle }) := by
  unfold runStep
  rw [hread]
  show playDelay cfg callback sendOk delay u = _
  unfold playDelay
  rw [if_pos hneg, hcb]
  rfl

/-- A quiet object that has an event in flight is not stopped. -/
theorem Quiet.running (h : Quiet s) {sender : Nat} (hmem : sender ∈ s.inFlight) : s.stopped = false := by
  by_contra hs
  rw [Bool.not_eq_false] at hs
  rw [h hs] at hmem
  cases hmem

/-- A settled delivery restarts an object that is not stopped. -/
theorem Settled.running {sender : Nat} {callback callback' : Script} {sendOk sendOk' success : Bool} {t : Blinky}
    (h : Settled cfg s (.deliver sender callback callback' sendOk sendOk')) (hmem : sender ∈ s.inFlight)
    (hs : s.stopped = false)
    (hfirst : runStep cfg (runScript cfg callback) sendOk { s with inFlight := s.inFlight.erase sender } = .ok (success, t))
    (hrestart : t.restart = true) : t.stopped = false := by
  obtain ⟨delay, curr, hread, ⟨hneg, _, u, hu, rfl⟩ | ⟨_, _, _, rfl⟩ | ⟨_, _, _, rfl⟩⟩ := runStep_cases hfirst
  · exact h hmem delay _ hread hneg u hu hrestart
  · exact hs
  · exact hs

/-- **The rest of a delivery is harmless to the stopped object only without the restart flag.** -/
theorem untouched_iff {b : Act} (hv : s.Valid) (hquiet : Quiet s) : Untouched cfg s b ↔ Settled cfg s b := by
  cases b with
  | start => exact Iff.rfl
  | stop => exact Iff.rfl
  | deliver sender callback _ sendOk _ =>
    have hv' : Blinky.Valid { s with inFlight := s.inFlight.erase sender } := hv.of_pointers rfl rfl
    constructor
    · intro h hmem delay u hread hneg t ht hrestart
      by_contra hstopped
      rw [Bool.not_eq_false] at hstopped
      have hfirst := @runStep_of_callback cfg _ _ sendOk delay u t hread hneg ht
      obtain ⟨hnull, hseen⟩ := h hmem false _ hfirst hstopped .done true
      have hagain := @eventHandler_eq_again cfg sendOk false _ _ callback .done true hfirst ⟨rfl, hrestart⟩
      cases hpattern : t.pattern with
      | none =>
        -- the restart reads through the NULL that `stop` has left
        apply hnull
        simp only [act, hagain, hpattern, Option.map_none]
        rfl
      | some p =>
        have hvt : Blinky.Valid { t with state := .idle } :=
          valid_runStep (valid_runScript callback) hv' hfirst
        have hsome : t.pattern ≠ none := by
          rw [hpattern]
          exact Option.some_ne_none p
        obtain ⟨success', w, hsecond, hlog⟩ := @runStep_rewound_seen cfg _ hvt hsome
        have hact : act cfg s (.deliver sender callback .done sendOk true) = .ok w := by
          simp only [act, hagain]
          rw [hsecond]
          rfl
        have hsame := hseen w hact
        rw [hsame] at hlog
        exact Nat.lt_irrefl _ hlog
    · intro h hmem success t hfirst hstopped callback' sendOk'
      have hlast : ¬(success = false ∧ t.restart = true) := by
        rintro ⟨_, hrestart⟩
        have hnot := h.running hmem (hquiet.running hmem) hfirst hrestart
        rw [hnot] at hstopped
        cases hstopped
      have hact := @eventHandler_eq_ok cfg sendOk success _ t callback callback' sendOk' hfirst hlast
      simp only [act, hact]
      refine ⟨fun herr => ?_, fun w hw => ?_⟩
      · cases herr
      · cases hw
        rfl

end Delivery

/-! ## What keeps a stopped object quiet -/

section Steps

variable {cfg : Config} {callback : Blinky → Except Fault Blinky} {Q : Blinky → Prop} {a : StartArgs}
  {sendOk success : Bool} {s t : Blinky}

/-- Called on an object that meets `Q`, the callback keeps it quiet. -/
def KeepsQuiet (Q : Blinky → Prop) (callback : Blinky → Except Fault Blinky) : Prop :=
  ∀ s t, Q s → Quiet s → callback s = .ok t → Quiet t

theorem quiet_of_not_stopped (h : s.stopped = false) : Quiet s := by
  intro hs
  rw [h] at hs
  cases hs

/-- A step that fails keeps the object quiet, and one that succeeds leaves the mark. -/
theorem runStep_quiet (hcb : KeepsQuiet Q callback) (hQ : CallsBackOn cfg Q s) (hquiet : Quiet s)
    (h : runStep cfg callback sendOk s = .ok (success, t)) :
    if success then t.stopped = s.stopped else Quiet t := by
  obtain ⟨delay, curr, hread, ⟨hneg, rfl, u, hu, rfl⟩ | ⟨_, _, rfl, rfl⟩ | ⟨_, _, rfl, rfl⟩⟩ := runStep_cases h
  · exact hcb _ u (hQ delay _ hread hneg) hquiet hu
  · rfl
  · exact hquiet

/-- So does a step of an object that is not stopped, however it ends. -/
theorem quiet_runStep (hcb : KeepsQuiet Q callback) (hQ : CallsBackOn cfg Q s) (hs : s.stopped = false)
    (h : runStep cfg callback sendOk s = .ok (success, t)) : Quiet t := by
  have hstep := runStep_quiet hcb hQ (quiet_of_not_stopped hs) h
  cases success with
  | true => exact quiet_of_not_stopped (hstep.trans hs)
  | false => exact hstep

/-- A start keeps the object quiet, if it fails to allocate with nothing in flight only. -/
theorem startCall_quiet (hcb : KeepsQuiet Q callback) (hmalloc : QuietMalloc a s) (hQ : StartCallsBackOn cfg Q a s)
    (hquiet : Quiet s) (h : startCall cfg callback a s = .ok t) : Quiet t := by
  obtain ⟨success, u, hstart, rfl⟩ := startCall_cases h
  rcases start_cases hstart with ⟨_, rfl, rfl⟩ | ⟨hpos, hfail, rfl, rfl⟩ | ⟨hpos, hok, hrun⟩
  · simp only [Quiet, Blinky.configure, Bool.not_false, Bool.and_true]
    exact hquiet
  · exact fun _ => hmalloc hpos hfail
  · have hstep := runStep_quiet hcb (hQ hpos hok) hquiet hrun
    cases success with
    | true => exact quiet_of_not_stopped (Bool.and_false _)
    | false =>
      simp only [Quiet, Bool.not_false, Bool.and_true]
      exact hstep

/-- **A quiet script keeps the object quiet.** -/
theorem runScript_quiet (script : Script) : KeepsQuiet (script.Quiet cfg) (runScript cfg script) := by
  induction script with
  | done =>
    intro s t _ hquiet h
    cases h
    exact hquiet
  | stop next ih =>
    intro s t hQ _ h
    obtain ⟨hnone, hnext⟩ := hQ
    have hrest : runScript cfg next (stopCall s) = .ok t := h
    exact ih (stopCall s) t hnext (fun _ => hnone) hrest
  | start a inner next ihInner ihNext =>
    intro s t hQ hquiet h
    obtain ⟨hmalloc, hcalls, hnext⟩ := hQ
    obtain ⟨u, hfirst, hrest⟩ := bind_eq_ok.mp h
    have hquietu := startCall_quiet ihInner hmalloc hcalls hquiet hfirst
    exact ihNext u t (hnext u hfirst) hquietu hrest

/-- **An action whose stops are quiet keeps the object quiet.** -/
theorem quiet_step {b : Act} (hq : Quiet s) (hc : QuietStops cfg s b) (h : step cfg s b = some t) : Quiet t := by
  obtain ⟨hen, hact⟩ := step_eq_some.mp h
  obtain ⟨hcall, hcalls, hsettled⟩ := hc
  cases b with
  | stop =>
    cases hact
    exact fun _ => hcall
  | start a callback => exact startCall_quiet (runScript_quiet callback) hcall hcalls hq hact
  | deliver sender callback callback' sendOk sendOk' =>
    have hrunning := hq.running hen
    obtain ⟨hfirstQ, hsecondQ⟩ := hcalls
    obtain ⟨success, u, hfirst, rfl | ⟨rfl, hrestart, success', hsecond⟩⟩ := eventHandler_cases hact
    · exact quiet_runStep (runScript_quiet callback) hfirstQ hrunning hfirst
    · have hstill := hsettled.running hen hrunning hfirst hrestart
      exact quiet_runStep (runScript_quiet callback') (hsecondQ u hfirst hrestart) hstill hsecond

/-- A call that stops the object, or fails to allocate, with an event in flight does not leave it quiet. -/
theorem quietCall_of_quiet {b : Act} (h : ∀ t, step cfg s b = some t → Quiet t) : QuietCall s b := by
  cases b with
  | stop =>
    have hquiet : Quiet (stopCall s) := h _ rfl
    exact hquiet rfl
  | deliver => trivial
  | start a callback =>
    intro hpos hmalloc
    have hstart : start cfg (runScript cfg callback) a s = .ok (false, { stop (s.configure a) with stopped := true }) := by
      simp only [start, hmalloc, if_neg (Int.not_lt.mpr hpos), Bool.false_eq_true, if_false]
    have hstep : step cfg s (.start a callback) = some { stop (s.configure a) with stopped := true } := by
      refine step_eq_some.mpr ⟨trivial, ?_⟩
      simp only [act, startCall, hstart]
      rfl
    have hquiet := h _ hstep
    exact hquiet rfl

end Steps

/-! ## Runs -/

/-- **`stop` is final in every run that stops the object, and fails to allocate, with nothing in flight only, and restarts
no stopped object.** -/
theorem stopFinal_of_quietStops {cfg : Config} {as : List Act} (hc : Meets (QuietStops cfg) (step cfg) .fresh as) :
    StopFinal cfg as := by
  have hquiet : Quiet .fresh := fun _ => rfl
  constructor
  · refine always_of_meets Blinky.Valid _ valid_fresh (fun hs => by cases hs) (fun _ _ _ => valid_step) ?_ hc
    intro s b t hv hharmless hcb ht hstopped
    have hq : Quiet s := fun hs => (harmless_iff hv).mp (hharmless hs)
    exact (harmless_iff (valid_step hv ht)).mpr (quiet_step hq hcb ht hstopped)
  · refine hc.mono (fun s => s.Valid ∧ Quiet s) ⟨valid_fresh, hquiet⟩ ?_ ?_
    · intro s b t hI hcb ht
      exact ⟨valid_step hI.1 ht, quiet_step hI.2 hcb ht⟩
    · intro s b hI hcb
      exact (untouched_iff hI.1 hI.2).mpr hcb.2.2

/-- **And in no run where a call from outside stops it with an event in flight, or a delivery restarts a stopped object.** -/
theorem settled_of_stopFinal {cfg : Config} {as : List Act} (h : StopFinal cfg as) :
    Meets (fun s b => QuietCall s b ∧ Settled cfg s b) (step cfg) .fresh as := by
  obtain ⟨hharmless, huntouched⟩ := h
  have hcalls : Meets (fun s b => QuietCall s b ∧ s.Valid ∧ Quiet s) (step cfg) .fresh as := by
    refine meets_of_always Blinky.Valid _ valid_fresh (fun _ _ _ => valid_step) ?_ hharmless
    intro s b hv hs hkeeps
    refine ⟨?_, hv, fun hstopped => (harmless_iff hv).mp (hs hstopped)⟩
    exact @quietCall_of_quiet cfg s b fun t ht hst => (harmless_iff (valid_step hv ht)).mp (hkeeps t ht hst)
  refine (hcalls.and huntouched).mono (fun _ => True) trivial (fun _ _ _ _ _ _ => trivial) ?_
  intro s b _ hboth
  obtain ⟨⟨hcall, hv, hq⟩, huntouched⟩ := hboth
  exact ⟨hcall, (untouched_iff hv hq).mp huntouched⟩

/-! ## Runs on a small scale -/

/-- The pattern is played to its end, and the object stopped. -/
def playAndStop : List Act := [.start hundred .done, .deliver 1 .done .done true true, .stop]

theorem stopFinal_after_end : StopFinal ⟨64, true⟩ playAndStop := by
  refine stopFinal_of_quietStops ⟨⟨fun _ h => Bool.noConfusion h, fun _ _ _ _ _ _ => trivial, trivial⟩, fun s hs => ?_⟩
  have hfirst : step ⟨64, true⟩ .fresh (.start hundred .done) =
      some ⟨some [49, 48, 48, 0], some 3, .started, false, 0, [1], 1, false, [.schedule 100, .toggleLed]⟩ := by decide
  cases hfirst.symm.trans hs
  refine ⟨⟨trivial, ⟨fun _ _ _ _ => trivial, fun _ _ _ _ _ _ _ => trivial⟩, ?_⟩, fun t ht => ?_⟩
  · -- the callback does nothing, and the flag is not set
    intro _ delay u hread _ v hv hrestart
    cases hread
    cases hv
    cases hrestart
  · have hsecond : step ⟨64, true⟩
        ⟨some [49, 48, 48, 0], some 3, .started, false, 0, [1], 1, false, [.schedule 100, .toggleLed]⟩
        (.deliver 1 .done .done true true) =
          some ⟨some [49, 48, 48, 0], some 3, .idle, false, 0, [], 1, false, [.schedule 100, .toggleLed, .callback]⟩ :=
      by decide
    cases hsecond.symm.trans ht
    exact ⟨⟨rfl, trivial, trivial⟩, fun _ _ => trivial⟩

/-- `stop` while the pattern is played: the event in flight reads through the NULL cursor. -/
theorem stop_while_started_reads_null : (∃ s,
    run (step ⟨64, true⟩) .fresh [.start hundred .done, .stop] = some s ∧ s.stopped = true ∧
      act ⟨64, true⟩ s (.deliver 1 .done .done true true) = .error .nullRead) ∧
    ¬StopFinal ⟨64, true⟩ [.start hundred .done, .stop] := by
  have hrun : run (step ⟨64, true⟩) .fresh [.start hundred .done, .stop] =
      some ⟨none, none, .idle, false, 0, [1], 1, true, [.schedule 100, .toggleLed]⟩ := by decide
  refine ⟨⟨_, hrun, rfl, rfl⟩, fun h => ?_⟩
  have hharmless := always_iff.mp h.1 _ List.prefix_rfl _ hrun rfl
  exact (hharmless 1 .done .done true true (by decide)).1 rfl

end PelionClient.Blink
