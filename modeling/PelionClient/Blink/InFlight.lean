import PelionClient.Blink.Machine

/-!
# How many timer events are in flight

An idle object should have no timer event in flight, and a started one the event of the delay it plays (`OwnEvent`). `stop`
cancels nothing, and `start` begins with `stop`: called while the object is started, either leaves the event of the old
pattern behind (`not_oneEvent_of_started`). A callback that starts a pattern has its event sent and is then marked idle by
the step that called it. A run without these (`Undisturbed`) has one event in flight while the object is started, and it is
the object's own (`oneEvent_of_undisturbed`).

A step that sends nothing from its callback either sends one event and ends started, or sends none and ends idle
(`runStep_inFlight`); a script whose starts send nothing sends nothing (`runScript_inFlight`).
-/

namespace PelionClient.Blink

open Lib

/-- One event in flight while started, none while idle. -/
def OneEvent (s : Blinky) : Prop := s.inFlight.length = if s.state = .started then 1 else 0

/-- The same, and the event is that of the last start. -/
def OwnEvent (s : Blinky) : Prop := s.inFlight = if s.state = .started then [s.starts] else []

/-- Some start of the script sends a timer event. -/
def Script.sends (bits : Nat) : Script → Bool
  | .done => false
  | .stop next => next.sends bits
  | .start a inner next =>
    (a.mallocOk && if a.firstDelay bits < 0 then inner.sends bits else a.sendOk) || next.sends bits

/-- `start` and `stop` are called while the object is idle. -/
def IdleCall (s : Blinky) : Act → Prop
  | .deliver _ _ _ _ _ => True
  | _ => s.state = .idle

/-- So they are, and no callback that the action makes sends a timer event. -/
def Undisturbed (cfg : Config) (s : Blinky) (b : Act) : Prop :=
  IdleCall s b ∧ Callbacks cfg (fun script _ => script.sends cfg.longBits = false) s b

/-- What is in flight is one event of the last start. -/
theorem OwnEvent.inFlight_eq {s : Blinky} {sender : Nat} (h : OwnEvent s) (hmem : sender ∈ s.inFlight) :
    sender = s.starts ∧ s.inFlight = [s.starts] := by
  rw [h] at hmem
  rw [h]
  split at hmem
  · exact ⟨List.mem_singleton.mp hmem, if_pos ‹_›⟩
  · cases hmem

theorem OwnEvent.oneEvent {s : Blinky} (h : OwnEvent s) : OneEvent s := by
  unfold OneEvent
  rw [h]
  split <;> rfl

/-! ## One step -/

section Steps

variable {cfg : Config} {callback : Blinky → Except Fault Blinky} {a : StartArgs} {sendOk success : Bool} {s t : Blinky}

/-- The callback sends nothing. -/
def Sendless : (Blinky → Except Fault Blinky) → Prop := Keeps fun s t => t.inFlight = s.inFlight

/-- **A step sends one event and ends started, or sends none and ends idle.** -/
theorem runStep_inFlight (hcb : CallsBackOn cfg (fun _ => Sendless callback) s)
    (h : runStep cfg callback sendOk s = .ok (success, t)) :
    (success = true ∧ t.state = .started ∧ t.inFlight = s.inFlight ++ [t.starts]) ∨
      (success = false ∧ t.state = .idle ∧ t.inFlight = s.inFlight) := by
  obtain ⟨delay, curr, hread, ⟨hneg, hfail, u, hu, rfl⟩ | ⟨_, _, hsent, rfl⟩ | ⟨_, _, hfail, rfl⟩⟩ := runStep_cases h
  · have hkept := hcb delay _ hread hneg hu
    exact Or.inr ⟨hfail, rfl, hkept⟩
  · exact Or.inl ⟨hsent, rfl, rfl⟩
  · exact Or.inr ⟨hfail, rfl, rfl⟩

/-- With nothing in flight before it, a step ends with the object's own event or none. -/
theorem ownEvent_runStep (h : runStep cfg callback sendOk s = .ok (success, t))
    (hcb : CallsBackOn cfg (fun _ => Sendless callback) s) (hnone : s.inFlight = []) :
    OwnEvent t ∧ (success = false → t.inFlight = []) := by
  unfold OwnEvent
  rcases runStep_inFlight hcb h with ⟨rfl, hstate, hflight⟩ | ⟨rfl, hstate, hflight⟩
  · rw [hflight, hnone, hstate]
    exact ⟨rfl, fun hf => nomatch hf⟩
  · rw [hflight, hnone, hstate]
    exact ⟨rfl, fun _ => rfl⟩

/-- A start that does not reach a send sends nothing. -/
theorem start_inFlight
    (hcb : a.mallocOk = true → if a.firstDelay cfg.longBits < 0 then Sendless callback else a.sendOk = false)
    (h : start cfg callback a s = .ok (success, t)) : t.inFlight = s.inFlight := by
  rcases start_cases h with ⟨_, _, rfl⟩ | ⟨_, _, _, rfl⟩ | ⟨_, hmalloc, hrun⟩
  · rfl
  · rfl
  obtain ⟨delay, curr, hread, hcases⟩ := runStep_cases hrun
  have hdelay : a.firstDelay cfg.longBits = delay := firstDelay_eq hread
  have hcb' := hcb hmalloc
  rw [hdelay] at hcb'
  rcases hcases with ⟨hneg, _, u, hu, rfl⟩ | ⟨hpos, hsend, _, rfl⟩ | ⟨_, _, _, rfl⟩
  · rw [if_pos hneg] at hcb'
    have hkept := hcb' hu
    exact hkept
  · rw [if_neg (Int.not_lt.mpr hpos), hsend] at hcb'
    cases hcb'
  · rfl

/-- **A script whose starts send nothing sends nothing.** -/
theorem runScript_inFlight {script : Script} (hs : script.sends cfg.longBits = false) :
    Sendless (runScript cfg script) := by
  induction script with
  | done =>
    intro s t h
    cases h
    rfl
  | stop next ih =>
    intro s t h
    have hnext : runScript cfg next (stopCall s) = .ok t := h
    have hkept := ih hs hnext
    exact hkept
  | start a inner next ihInner ihNext =>
    intro s t h
    simp only [Script.sends, Bool.or_eq_false_iff] at hs
    obtain ⟨u, hstart, hnext⟩ := bind_eq_ok.mp h
    obtain ⟨success, v, hv, rfl⟩ := startCall_cases hstart
    have hfirst : v.inFlight = s.inFlight := by
      refine start_inFlight (fun hmalloc => ?_) hv
      have hsend := hs.1
      rw [hmalloc, Bool.true_and] at hsend
      split
      · rename_i hneg
        rw [if_pos hneg] at hsend
        exact ihInner hsend
      · rename_i hneg
        rwa [if_neg hneg] at hsend
    have hrest := ihNext hs.2 hnext
    exact hrest.trans hfirst

/-- An undisturbed action keeps the object's events its own. -/
theorem ownEvent_step {act : Act} (hI : OwnEvent s) (hc : Undisturbed cfg s act) (h : step cfg s act = some t) :
    OwnEvent t := by
  obtain ⟨hen, hact⟩ := step_eq_some.mp h
  obtain ⟨hcall, hquiet⟩ := hc
  have hidle : s.state = .idle → s.inFlight = [] := fun hidle => by rw [hI, hidle]; rfl
  cases act with
  | stop =>
    cases hact
    exact hidle hcall
  | start a callback =>
    obtain ⟨success, u, hstart, rfl⟩ := startCall_cases hact
    rcases start_cases hstart with ⟨_, _, rfl⟩ | ⟨_, _, _, rfl⟩ | ⟨hpos, hmalloc, hrun⟩
    · exact hI
    · exact hidle hcall
    · have hsendless := (hquiet hpos hmalloc).mono fun _ hs => runScript_inFlight hs
      exact (ownEvent_runStep hrun hsendless (hidle hcall)).1
  | deliver sender callback callback' sendOk sendOk' =>
    obtain ⟨hfirstQ, hsecondQ⟩ := hquiet
    have hnone : s.inFlight.erase sender = [] := by
      obtain ⟨rfl, hone⟩ := hI.inFlight_eq hen
      simp only [hone, List.erase_cons_head]
    obtain ⟨success, u, hfirst, hrest⟩ := eventHandler_cases hact
    obtain ⟨hown, hstill⟩ := ownEvent_runStep hfirst (hfirstQ.mono fun _ hs => runScript_inFlight hs) hnone
    rcases hrest with rfl | ⟨rfl, hrestart, success', hsecond⟩
    · exact hown
    · have hsendless := (hsecondQ u hfirst hrestart).mono fun _ hs => runScript_inFlight hs
      exact (ownEvent_runStep hsecond hsendless (hstill rfl)).1

/-! ## A call while the object is started -/

/-- Nothing in flight is cancelled. -/
def Growing : (Blinky → Except Fault Blinky) → Prop := Keeps fun s t => s.inFlight.length ≤ t.inFlight.length

theorem runStep_grows (hcb : Growing callback) (h : runStep cfg callback sendOk s = .ok (success, t)) :
    (t.state = .started ∧ s.inFlight.length + 1 ≤ t.inFlight.length) ∨
      (t.state = .idle ∧ s.inFlight.length ≤ t.inFlight.length) := by
  obtain ⟨delay, curr, _, ⟨_, _, u, hu, rfl⟩ | ⟨_, _, _, rfl⟩ | ⟨_, _, _, rfl⟩⟩ := runStep_cases h
  · have hgrows := hcb hu
    exact Or.inr ⟨rfl, hgrows⟩
  · refine Or.inl ⟨rfl, ?_⟩
    show s.inFlight.length + 1 ≤ (s.inFlight ++ [s.starts]).length
    simp only [List.length_append, List.length_singleton, Nat.le_refl]
  · exact Or.inr ⟨rfl, Nat.le_refl _⟩

theorem start_grows (hcb : Growing callback) (h : start cfg callback a s = .ok (success, t)) :
    s.inFlight.length ≤ t.inFlight.length := by
  rcases start_cases h with ⟨_, _, rfl⟩ | ⟨_, _, _, rfl⟩ | ⟨_, _, hrun⟩
  · exact Nat.le_refl _
  · exact Nat.le_refl _
  · rcases runStep_grows hcb hrun with ⟨_, hle⟩ | ⟨_, hle⟩
    · exact Nat.le_of_succ_le hle
    · exact hle

theorem runScript_grows (script : Script) : Growing (runScript cfg script) := by
  refine keeps_runScript (fun s t => s.inFlight.length ≤ t.inFlight.length) (fun _ => Nat.le_refl _)
    (fun _ _ _ => Nat.le_trans) (fun _ => Nat.le_refl _) ?_ script
  intro a callback hcb s t h
  obtain ⟨success, u, hstart, rfl⟩ := startCall_cases h
  have hle := start_grows hcb hstart
  exact hle

/-- **`start` and `stop` on a started object leave its event behind**, so the condition on them is exact. -/
theorem not_oneEvent_of_started {act : Act} (hone : OneEvent s) (hstate : s.state = .started) (htasklet : 0 ≤ s.tasklet)
    (hact : act = .stop ∨ ∃ a callback, act = .start a callback) (h : step cfg s act = some t) : ¬OneEvent t := by
  obtain ⟨_, hok⟩ := step_eq_some.mp h
  have hlen : s.inFlight.length = 1 := by rw [hone, if_pos hstate]
  intro ht
  rcases hact with rfl | ⟨a, callback, rfl⟩
  · cases hok
    have hzero : s.inFlight.length = 0 := ht
    omega
  · obtain ⟨success, u, hstart, rfl⟩ := startCall_cases hok
    have ht' : u.inFlight.length = if u.state = .started then 1 else 0 := ht
    rcases start_cases hstart with ⟨hnone, _⟩ | ⟨_, _, _, rfl⟩ | ⟨_, _, hrun⟩
    · rw [Blinky.configure, if_neg (Int.not_lt.mpr htasklet)] at hnone
      exact absurd hnone (Int.not_lt.mpr htasklet)
    · have hzero : s.inFlight.length = 0 := ht
      omega
    · rcases runStep_grows (runScript_grows callback) hrun with ⟨hs, hle⟩ | ⟨hs, hle⟩
      · have htwo : s.inFlight.length + 1 ≤ u.inFlight.length := hle
        rw [if_pos hs] at ht'
        omega
      · have hmore : s.inFlight.length ≤ u.inFlight.length := hle
        rw [hs] at ht'
        have hu : u.inFlight.length = 0 := ht'
        omega

end Steps

/-! ## Runs -/

/-- **In an undisturbed run a started object has one timer event in flight, its own, and an idle one has none.** -/
theorem oneEvent_of_undisturbed {cfg : Config} {as : List Act} {s : Blinky}
    (hc : Meets (Undisturbed cfg) (step cfg) .fresh as) (h : run (step cfg) .fresh as = some s) :
    OneEvent s ∧ ∀ sender ∈ s.inFlight, sender = s.starts := by
  have h0 : OwnEvent .fresh := rfl
  have hI : OwnEvent s := run_invariant_of_meets OwnEvent h0 (fun _ _ _ => ownEvent_step) hc h
  exact ⟨hI.oneEvent, fun _ hmem => (hI.inFlight_eq hmem).1⟩

/-! ## Runs on a small scale -/

/-- The pattern is played to its end. -/
def playOnce : List Act := [.start hundred .done, .deliver 1 .done .done true true]

def afterPlayOnce : Blinky :=
  ⟨some [49, 48, 48, 0], some 3, .idle, false, 0, [], 1, false, [.schedule 100, .toggleLed, .callback]⟩

theorem playOnce_oneEvent :
    OneEvent afterPlayOnce ∧ ∀ sender ∈ afterPlayOnce.inFlight, sender = afterPlayOnce.starts :=
  @oneEvent_of_undisturbed ⟨64, true⟩ playOnce afterPlayOnce
    ⟨⟨rfl, fun _ _ _ _ _ _ => rfl⟩,
      fun _ _ => ⟨⟨trivial, fun _ _ _ _ => rfl, fun _ _ _ _ _ _ _ => rfl⟩, fun _ _ => trivial⟩⟩ (by decide)

/-- A second `start` before the first pattern has ended: two events are in flight. -/
theorem startTwice_not_oneEvent :
    ∃ s, run (step ⟨64, true⟩) .fresh [.start hundred .done, .start hundred .done] = some s ∧ s.state = .started ∧
      ¬OneEvent s := by
  refine ⟨⟨some [49, 48, 48, 0], some 3, .started, false, 0, [1, 2], 2, false,
    [.schedule 100, .toggleLed, .schedule 100, .toggleLed]⟩, by decide, rfl, ?_⟩
  unfold OneEvent
  decide

end PelionClient.Blink
