import PelionClient.Blink.Machine

/-!
# Where `_curr_pattern` points

`_pattern` is a string and `_curr_pattern`, unless it is NULL, points at or before the end of it (`Valid`): `get_next_int`
leaves the cursor in the string, and `start`, `stop` and the restart set both pointers together. So it is in every state
reached, whatever the callbacks do (`valid_run`).
-/

namespace PelionClient.Blink

open Lib

/-- The pointers of an object are in order. -/
structure Blinky.Valid (s : Blinky) : Prop where
  pattern : ∀ p, s.pattern = some p → Terminated p
  cursor : ∀ c, s.currPattern = some c → ∃ p, s.pattern = some p ∧ Terminated (p.drop c)

variable {cfg : Config} {callback : Blinky → Except Fault Blinky} {a : StartArgs} {sendOk success : Bool} {s t : Blinky}

/-- The callback keeps the pointers in order. -/
def KeepsValid : (Blinky → Except Fault Blinky) → Prop := Keeps fun s t => s.Valid → t.Valid

/-- Only the two pointers matter. -/
theorem Blinky.Valid.of_pointers (h : s.Valid) (hp : t.pattern = s.pattern) (hc : t.currPattern = s.currPattern) :
    t.Valid :=
  ⟨fun p h' => h.pattern p (hp ▸ h'), fun c h' => hp ▸ h.cursor c (hc ▸ h')⟩

theorem valid_stop (s : Blinky) : (stop s).Valid := ⟨fun _ h => (nomatch h), fun _ h => (nomatch h)⟩

theorem valid_stopCall (s : Blinky) : (stopCall s).Valid := (valid_stop s).of_pointers rfl rfl

theorem valid_load (s : Blinky) (pattern : List UInt8) : (s.load pattern).Valid := by
  have hnul : Terminated (pattern ++ [0]) := List.mem_append_right _ List.mem_cons_self
  constructor
  · intro p hp
    cases hp
    exact hnul
  · intro c hc
    cases hc
    exact ⟨_, rfl, hnul⟩

theorem valid_rewind (h : s.Valid) : Blinky.Valid { s with currPattern := s.pattern.map fun _ => 0 } := by
  refine ⟨h.pattern, fun c hc => ?_⟩
  obtain ⟨p, hp, rfl⟩ := Option.map_eq_some_iff.mp hc
  exact ⟨p, hp, h.pattern p hp⟩

theorem valid_getNextInt {bits : Nat} {delay : Int} (hv : s.Valid) (h : s.getNextInt bits = .ok (delay, t)) :
    t.Valid := by
  unfold Blinky.getNextInt at h
  split at h
  · cases h
  · cases h
  · rename_i curr pattern _ hpattern
    split at h
    · rename_i hnul
      cases h
      refine ⟨hv.pattern, fun c hc => ⟨pattern, hpattern, ?_⟩⟩
      cases hc
      rw [← List.drop_drop]
      exact terminated_nextField bits hnul
    · cases h

theorem valid_runStep (hcb : KeepsValid callback) (hv : s.Valid)
    (h : runStep cfg callback sendOk s = .ok (success, t)) : t.Valid := by
  obtain ⟨delay, curr, hread, hcases⟩ := runStep_cases h
  have hread' := valid_getNextInt hv hread
  rcases hcases with ⟨_, _, u, hu, rfl⟩ | ⟨_, _, _, rfl⟩ | ⟨_, _, _, rfl⟩
  · exact (hcb hu (hread'.of_pointers rfl rfl)).of_pointers rfl rfl
  · exact hread'.of_pointers rfl rfl
  · exact hread'.of_pointers rfl rfl

theorem valid_startCall (a : StartArgs) (hcb : KeepsValid callback) : KeepsValid (startCall cfg callback a) := by
  intro s t h hv
  obtain ⟨success, u, hstart, rfl⟩ := startCall_cases h
  have hu : u.Valid := by
    rcases start_cases hstart with ⟨_, _, rfl⟩ | ⟨_, _, _, rfl⟩ | ⟨_, _, hrun⟩
    · exact hv.of_pointers rfl rfl
    · exact (valid_stop (s.configure a)).of_pointers rfl rfl
    · exact valid_runStep hcb (valid_load _ _) hrun
  exact hu.of_pointers rfl rfl

/-- **Every script keeps the pointers in order.** -/
theorem valid_runScript (script : Script) : KeepsValid (runScript cfg script) :=
  keeps_runScript _ (fun _ hs => hs) (fun _ _ _ hst htu hs => htu (hst hs))
    (fun s _ => valid_stopCall s) (fun a _ hcb => valid_startCall a hcb) script

theorem valid_step {act : Act} (hv : s.Valid) (h : step cfg s act = some t) : t.Valid := by
  obtain ⟨_, hact⟩ := step_eq_some.mp h
  cases act with
  | stop =>
    cases hact
    exact valid_stopCall s
  | start a callback => exact valid_startCall a (valid_runScript callback) hact hv
  | deliver sender callback callback' sendOk sendOk' =>
    have hv' : Blinky.Valid { s with inFlight := s.inFlight.erase sender } := hv.of_pointers rfl rfl
    obtain ⟨success, u, hfirst, hrest⟩ := eventHandler_cases hact
    have hu := valid_runStep (valid_runScript callback) hv' hfirst
    rcases hrest with rfl | ⟨_, _, success', hsecond⟩
    · exact hu
    · exact valid_runStep (valid_runScript callback') (valid_rewind hu) hsecond

theorem valid_fresh : Blinky.fresh.Valid := ⟨fun _ h => (nomatch h), fun _ h => (nomatch h)⟩

/-- **In every state reached the cursor is in the pattern.** -/
theorem valid_run {as : List Act} (h : run (step cfg) .fresh as = some s) : s.Valid :=
  run_invariant Blinky.Valid valid_fresh (fun _ _ _ => valid_step) h

end PelionClient.Blink
