import PelionClient.Lib.Run

/-!
# Registering with the cloud (`SimpleM2MClient`)

The main loop runs while `_register_called` is set. `call_register` sets it after `setup` has returned, whatever it has
returned, and `client_unregistered` clears it. The cloud client delivers its callbacks from its own event loop, at any time
after `setup` has been called, so they fall between the steps of `call_register`.

The flag should say whether the last `call_register` returned true and no `client_unregistered` has come since its `setup`
call (`Tracks`). It does so in exactly the runs whose attempts to register all end well (`tracks_iff`). Installing the
callbacks and the update handlers has no effect here and is left out.
-/

namespace PelionClient.Client

open Lib

/-- Where `call_register` is. -/
inductive Phase
  | outside
  /-- In `mcc_platform_init_connection`. -/
  | connecting
  /-- In `setup`. -/
  | settingUp
  /-- After `setup`, before the assignment to `_register_called`. -/
  | setUp
  /-- After the assignment. -/
  | assigned
deriving DecidableEq, Repr

structure SimpleM2MClient where
  /-- `_registered` -/
  registered : Bool
  /-- `_register_called` -/
  registerCalled : Bool
  phase : Phase
  /-- The local variable `setup` of `call_register`. -/
  setup : Bool
  /-- `setup` of the cloud client has been called, now or in an earlier attempt. -/
  setupCalled : Bool
  /-- What the last `call_register` returned. -/
  returned : Option Bool
  /-- `client_unregistered` was delivered between the last call of `setup` and the assignment. -/
  unregisteredBefore : Bool
  /-- It was delivered after the assignment. -/
  unregisteredAfter : Bool
deriving DecidableEq, Repr

/-- The constructor. -/
def SimpleM2MClient.fresh : SimpleM2MClient := ⟨false, false, .outside, false, false, none, false, false⟩

inductive Act
  /-- `call_register` is called. -/
  | callRegister
  /-- `mcc_platform_init_connection` returns. -/
  | initConnection (status : Int)
  /-- `setup` returns. -/
  | setupReturn (ok : Bool)
  /-- `_register_called = true` -/
  | assign
  /-- `call_register` returns. -/
  | ret
  | clientRegistered
  | clientUnregistered
  | error (code : Int)
deriving DecidableEq, Repr

/-! ## The callbacks -/

def clientRegistered (s : SimpleM2MClient) : SimpleM2MClient := { s with registered := true }

def clientUnregistered (s : SimpleM2MClient) : SimpleM2MClient := { s with registered := false, registerCalled := false }

/-- `error` only prints. -/
def error (s : SimpleM2MClient) (_errorCode : Int) : SimpleM2MClient := s

/-- `is_register_called`, the condition of the main loop. -/
def isRegisterCalled (s : SimpleM2MClient) : Bool := s.registerCalled

/-- The history of `client_unregistered`. -/
def noteUnregistered (s : SimpleM2MClient) : SimpleM2MClient :=
  if s.phase = .settingUp ∨ s.phase = .setUp then { s with unregisteredBefore := true }
  else { s with unregisteredAfter := true }

/-! ## The system -/

/-- When an action can happen. -/
def Enabled (s : SimpleM2MClient) : Act → Prop
  | .callRegister => s.phase = .outside
  | .initConnection _ => s.phase = .connecting
  | .setupReturn _ => s.phase = .settingUp
  | .assign => s.phase = .setUp
  | .ret => s.phase = .assigned
  | .clientRegistered | .clientUnregistered | .error _ => s.setupCalled = true

instance (s : SimpleM2MClient) (a : Act) : Decidable (Enabled s a) := by
  cases a <;> simp only [Enabled] <;> infer_instance

/-- What it does. -/
def next (s : SimpleM2MClient) : Act → SimpleM2MClient
  | .callRegister => { s with phase := .connecting }
  | .initConnection status =>
    if status = 0 then
      { s with phase := .settingUp, setupCalled := true, unregisteredBefore := false, unregisteredAfter := false }
    else { s with phase := .outside, returned := some false }
  | .setupReturn ok => { s with phase := .setUp, setup := ok }
  | .assign => { s with phase := .assigned, registerCalled := true }
  | .ret => { s with phase := .outside, returned := some s.setup }
  | .clientRegistered => clientRegistered s
  | .clientUnregistered => noteUnregistered (clientUnregistered s)
  | .error code => error s code

/-- One action, if it can happen. -/
def step (s : SimpleM2MClient) (a : Act) : Option SimpleM2MClient := if Enabled s a then some (next s a) else none

theorem step_eq_some {s t : SimpleM2MClient} {a : Act} : step s a = some t ↔ Enabled s a ∧ next s a = t := by
  simp [step]

/-! ## What the flag says -/

/-- Outside `call_register`, the flag is set exactly if the last attempt returned true and no `client_unregistered` has been
delivered since its call of `setup`. -/
def Tracks (s : SimpleM2MClient) : Prop :=
  s.phase = .outside → (isRegisterCalled s = true ↔
    s.returned = some true ∧ s.unregisteredBefore = false ∧ s.unregisteredAfter = false)

/-- An attempt ends well. If the connection fails, the flag is not set from an earlier attempt; otherwise `setup` has
succeeded and `client_unregistered` has not come before the assignment, or it has come after it. -/
def EndsWell (s : SimpleM2MClient) : Act → Prop
  | .initConnection status => status ≠ 0 → s.registerCalled = false
  | .ret => (s.setup = true ∧ s.unregisteredBefore = false) ∨ s.unregisteredAfter = true
  | _ => True

/-- Before the assignment `client_unregistered` has not come after it; from the assignment to the return the flag is set
unless it has. -/
def Pending (s : SimpleM2MClient) : Prop :=
  (s.phase = .settingUp ∨ s.phase = .setUp → s.unregisteredAfter = false) ∧
    (s.phase = .assigned → s.registerCalled = !s.unregisteredAfter)

/-! ## One step -/

section Steps

variable {s t : SimpleM2MClient} {a : Act}

/-- Inside `call_register` nothing is said. -/
theorem tracks_of_inside (h : s.phase ≠ .outside) : Tracks s := fun hout => absurd hout h

theorem pending_outside (h : s.phase = .outside) : Pending s := by
  constructor
  · rintro (hp | hp) <;> rw [h] at hp <;> cases hp
  · intro hp
    rw [h] at hp
    cases hp

/-- What `client_unregistered` does. -/
theorem next_clientUnregistered (s : SimpleM2MClient) :
    (next s .clientUnregistered).phase = s.phase ∧ (next s .clientUnregistered).registerCalled = false ∧
      (if s.phase = .settingUp ∨ s.phase = .setUp then
        (next s .clientUnregistered).unregisteredAfter = s.unregisteredAfter
      else (next s .clientUnregistered).unregisteredAfter = true) := by
  by_cases hp : s.phase = .settingUp ∨ s.phase = .setUp
  · have hnext : next s .clientUnregistered = { clientUnregistered s with unregisteredBefore := true } := if_pos hp
    rw [hnext, if_pos hp]
    exact ⟨rfl, rfl, rfl⟩
  · have hnext : next s .clientUnregistered = { clientUnregistered s with unregisteredAfter := true } := if_neg hp
    rw [hnext, if_neg hp]
    exact ⟨rfl, rfl, rfl⟩

theorem pending_step (hI : Pending s) (h : step s a = some t) : Pending t := by
  obtain ⟨hen, rfl⟩ := step_eq_some.mp h
  cases a with
  | callRegister =>
    refine ⟨?_, fun hp => (nomatch hp)⟩
    rintro (hp | hp) <;> cases hp
  | initConnection status =>
    simp only [next]
    split
    · exact ⟨fun _ => rfl, fun hp => (nomatch hp)⟩
    · exact pending_outside rfl
  | setupReturn ok => exact ⟨fun _ => hI.1 (Or.inl hen), fun hp => (nomatch hp)⟩
  | assign =>
    have hafter : s.unregisteredAfter = false := hI.1 (Or.inr hen)
    constructor
    · rintro (hp | hp) <;> cases hp
    · intro _
      show true = !s.unregisteredAfter
      rw [hafter]
      rfl
  | ret => exact pending_outside rfl
  | clientRegistered => exact hI
  | clientUnregistered =>
    obtain ⟨hphase, hflag, hafter⟩ := next_clientUnregistered s
    constructor
    · intro hp
      rw [hphase] at hp
      rw [if_pos hp] at hafter
      rw [hafter]
      exact hI.1 hp
    · intro hp
      rw [hphase] at hp
      rw [if_neg (by rw [hp]; simp)] at hafter
      rw [hflag, hafter]
      rfl
  | error code => exact hI

/-- **The steps that keep the flag right** are those that end an attempt well. -/
theorem tracks_step_iff (hI : Pending s) (hs : Tracks s) :
    (Enabled s a → EndsWell s a) ↔ ∀ t, step s a = some t → Tracks t := by
  have hnext : (∀ t, step s a = some t → Tracks t) ↔ (Enabled s a → Tracks (next s a)) := by
    constructor
    · intro h hen
      exact h _ (step_eq_some.mpr ⟨hen, rfl⟩)
    · intro h t ht
      obtain ⟨hen, rfl⟩ := step_eq_some.mp ht
      exact h hen
  rw [hnext]
  refine imp_congr_right fun hen => ?_
  cases a with
  | callRegister => exact iff_of_true trivial (tracks_of_inside (by simp [next]))
  | initConnection status =>
    by_cases hok : status = 0
    · refine iff_of_true (fun hfail => absurd hok hfail) (tracks_of_inside ?_)
      simp [next, hok]
    · simp [EndsWell, Tracks, isRegisterCalled, next, hok]
  | setupReturn ok => exact iff_of_true trivial (tracks_of_inside (by simp [next]))
  | assign => exact iff_of_true trivial (tracks_of_inside (by simp [next]))
  | ret =>
    have hflag : s.registerCalled = !s.unregisteredAfter := hI.2 hen
    cases hafter : s.unregisteredAfter with
    | true => simp [EndsWell, Tracks, isRegisterCalled, next, hflag, hafter]
    | false => simp [EndsWell, Tracks, isRegisterCalled, next, hflag, hafter]
  | clientRegistered => exact iff_of_true trivial hs
  | clientUnregistered =>
    obtain ⟨hphase, hflag, hafter⟩ := next_clientUnregistered s
    refine iff_of_true trivial fun hout => ?_
    rw [hphase] at hout
    rw [if_neg (by rw [hout]; simp)] at hafter
    simp [isRegisterCalled, hflag, hafter]
  | error code => exact iff_of_true trivial hs

/-- Past the connection, and whenever the flag is set, `setup` has been called. -/
structure SetupFirst (s : SimpleM2MClient) : Prop where
  inside : s.phase = .settingUp ∨ s.phase = .setUp ∨ s.phase = .assigned → s.setupCalled = true
  flag : s.registerCalled = true → s.setupCalled = true

theorem setupFirst_fresh : SetupFirst .fresh := by
  refine ⟨?_, fun hflag => by cases hflag⟩
  rintro (hp | hp | hp) <;> cases hp

theorem setupFirst_next (hI : SetupFirst s) (hen : Enabled s a) : SetupFirst (next s a) := by
  cases a with
  | callRegister =>
    refine ⟨?_, hI.flag⟩
    rintro (hp | hp | hp) <;> cases hp
  | initConnection status =>
    simp only [next]
    split
    · exact ⟨fun _ => rfl, fun _ => rfl⟩
    · refine ⟨?_, hI.flag⟩
      rintro (hp | hp | hp) <;> cases hp
  | setupReturn ok => exact ⟨fun _ => hI.inside (Or.inl hen), hI.flag⟩
  | assign =>
    have hcalled : s.setupCalled = true := hI.inside (Or.inr (Or.inl hen))
    exact ⟨fun _ => hcalled, fun _ => hcalled⟩
  | ret =>
    refine ⟨?_, hI.flag⟩
    rintro (hp | hp | hp) <;> cases hp
  | clientRegistered | error code => exact ⟨hI.inside, hI.flag⟩
  | clientUnregistered =>
    have hcalled : (next s .clientUnregistered).setupCalled = true := by
      simp only [next, noteUnregistered]
      split <;> exact hen
    exact ⟨fun _ => hcalled, fun _ => hcalled⟩

end Steps

/-! ## Runs -/

/-- **The flag tracks registration in exactly the runs whose attempts end well.** -/
theorem tracks_iff (as : List Act) :
    (∀ pre, pre <+: as → ∀ s, run step .fresh pre = some s → Tracks s) ↔
      Meets (fun s a => Enabled s a → EndsWell s a) step .fresh as := by
  have h0 : Tracks .fresh := by
    intro _
    decide
  rw [← always_iff]
  exact always_iff_meets Pending Tracks (pending_outside rfl) h0 (fun _ _ _ => pending_step)
    fun _ _ hI hs => tracks_step_iff hI hs

/-! ## A setup that fails -/

/-- `setup` returns false, and the flag is set. -/
theorem setupFails_not_tracks : ∃ s,
    run step .fresh [.callRegister, .initConnection 0, .setupReturn false, .assign, .ret] = some s ∧
      s.returned = some false ∧ isRegisterCalled s = true ∧ ¬Tracks s := by
  refine ⟨⟨false, true, .outside, false, true, some false, false, false⟩, by decide, rfl, rfl, fun h => ?_⟩
  have hflag := (h rfl).mp rfl
  cases hflag.1

end PelionClient.Client
