import PelionClient.Lib.Trace
import PelionClient.Main.Program

/-!
# The end of the program

The loop of `main_application` runs while `_register_called` is set. `call_register` is called once, so the flag is set once
at most, and what it says at any time can be read off the run (`Registered`): it is set exactly if `call_register` has got to
its assignment and no `client_unregistered` has come since.

- So the test of the loop goes as the run says, and every scan begins behind a test that passed (`program_flag`).
- After `client_unregistered` the test passes no more. It may have passed before, so one scan can still begin, and one
  publication is left (`program_unregistered`).
- `close` is called once for each POST on one of the two executable resources (`program_posts`).
-/

namespace PelionClient.Main

open Lib Beacon Platform
open Client (AddCall RequestLibrary ResourcePath SimpleM2MClient)

section Steps

variable {lib : RequestLibrary DataType} {fmt : ValueFormat} {cb : Callbacks} {s t : Program}

theorem programStep_eq_some {a : ProgramAct} :
    programStep lib fmt cb s a = some t ↔ programAct lib fmt cb s a = some (.ok t) := by
  rw [programStep, Option.bind_eq_some_iff]
  constructor
  · rintro ⟨r, hr, hok⟩
    rw [hr, toOption_eq_some_iff.mp hok]
  · intro h
    exact ⟨_, h, rfl⟩

/-- What a step that is none of the client's leaves alone. -/
structure Keeps (s t : Program) : Prop where
  mbedClient : t.mbedClient = s.mbedClient
  closes : t.closes = s.closes
  factoryResets : t.factoryResets = s.factoryResets

/-- An initialisation returns: the program goes on initialising, or ends, or registers. -/
theorem step_initReturn {ok : Bool} (h : programStep lib fmt cb s (.initReturn ok) = some t) :
    s.stage.control = none ∧ t.closes = s.closes ∧ t.factoryResets = s.factoryResets ∧
      ((t.stage.control = none ∧ t.mbedClient = s.mbedClient) ∨
        (t.stage = .registering ∧ t.mbedClient = Client.next s.mbedClient .callRegister)) := by
  rw [programStep_eq_some, programAct] at h
  split at h
  · rename_i call hstage
    refine ⟨by rw [hstage]; rfl, ?_⟩
    have hinit := Option.some.inj h
    rw [initReturn] at hinit
    split at hinit
    · split at hinit
      · cases hinit
        exact ⟨rfl, rfl, Or.inl ⟨rfl, rfl⟩⟩
      · rw [prepare] at hinit
        split at hinit
        · cases hinit
          exact ⟨rfl, rfl, Or.inr ⟨rfl, rfl⟩⟩
        · cases hinit
    · cases hinit
      exact ⟨rfl, rfl, Or.inl ⟨rfl, rfl⟩⟩
  · cases h

theorem step_connect {network : Network} (h : programStep lib fmt cb s (.connect network) = some t) :
    s.stage = .registering ∧ s.mbedClient.phase = .connecting ∧ t = connected s network := by
  rw [programStep_eq_some, programAct, Option.ite_none_right_eq_some] at h
  obtain ⟨⟨hstage, hphase⟩, h⟩ := h
  cases h
  exact ⟨hstage, hphase, rfl⟩

theorem step_client {a : Client.Act} (h : programStep lib fmt cb s (.client a) = some t) :
    s.stage.Alive ∧ FromClient a ∧ ∃ m, Client.step s.mbedClient a = some m ∧ t = s.withClient m := by
  rw [programStep_eq_some, programAct, Option.ite_none_right_eq_some] at h
  obtain ⟨⟨halive, hfrom⟩, h⟩ := h
  obtain ⟨m, hm, hok⟩ := Option.map_eq_some_iff.mp h
  cases hok
  exact ⟨halive, hfrom, m, hm, rfl⟩

/-- How the actions of the loop move it, when the flag is this. -/
inductive Moves (flag : Bool) : Control → LoopAct → Control → Prop
  | test : Moves flag .testing (.test flag) (controlTested flag)
  | start {c : Control} (hc : c = .running ∨ c = .publishing) : Moves flag .entering .run c
  | scan {a : LoopAct} {c : Control} (ha : (∃ b, a = .gap b) ∨ ∃ now data, a = .advertisement now data)
      (hc : c = .running ∨ c = .publishing) : Moves flag .running a c
  | publish : Moves flag .publishing .publish .testing

theorem controlAfter_cases (g : Gap.GapDevice) : controlAfter g = .running ∨ controlAfter g = .publishing := by
  unfold controlAfter
  split
  · exact Or.inr rfl
  · exact Or.inl rfl

theorem step_loop {a : LoopAct} (h : programStep lib fmt cb s (.loop a) = some t) :
    Keeps s t ∧ ∃ c c', s.stage = .looping c ∧ t.stage = .looping c' ∧
      Moves (Client.isRegisterCalled s.mbedClient) c a c' := by
  rw [programStep_eq_some, programAct] at h
  split at h
  · rename_i c hstage
    cases a with
    | test registered =>
      rw [loopAct, Option.ite_none_right_eq_some] at h
      obtain ⟨⟨rfl, hflag⟩, h⟩ := h
      cases h
      refine ⟨⟨rfl, rfl, rfl⟩, _, _, hstage, rfl, ?_⟩
      rw [hflag]
      exact .test
    | run =>
      rw [loopAct, Option.ite_none_right_eq_some] at h
      obtain ⟨rfl, h⟩ := h
      obtain ⟨g, _, hok⟩ := Option.map_eq_some_iff.mp h
      cases hok
      exact ⟨⟨rfl, rfl, rfl⟩, _, _, hstage, rfl, .start (controlAfter_cases g)⟩
    | gap a =>
      rw [loopAct, Option.ite_none_right_eq_some] at h
      obtain ⟨⟨rfl, _⟩, h⟩ := h
      obtain ⟨g, _, hok⟩ := Option.map_eq_some_iff.mp h
      cases hok
      exact ⟨⟨rfl, rfl, rfl⟩, _, _, hstage, rfl, .scan (Or.inl ⟨a, rfl⟩) (controlAfter_cases g)⟩
    | advertisement now data =>
      rw [loopAct, Option.ite_none_right_eq_some] at h
      obtain ⟨rfl, h⟩ := h
      obtain ⟨g, _, hok⟩ := Option.map_eq_some_iff.mp h
      split at hok
      · cases hok
        exact ⟨⟨rfl, rfl, rfl⟩, _, _, hstage, rfl, .scan (Or.inr ⟨now, data, rfl⟩) (controlAfter_cases g)⟩
      · cases hok
    | publish =>
      rw [loopAct, Option.ite_none_right_eq_some] at h
      obtain ⟨rfl, h⟩ := h
      split at h
      · cases h
        exact ⟨⟨rfl, rfl, rfl⟩, _, _, hstage, rfl, .publish⟩
      · cases h
  · cases h

theorem step_post {p : ResourcePath} (h : programStep lib fmt cb s (.post p) = some t) :
    s.stage.Alive ∧ t.stage = s.stage ∧ t.mbedClient = s.mbedClient ∧ post lib cb s p = .ok t := by
  rw [programStep_eq_some, programAct, Option.ite_none_right_eq_some] at h
  obtain ⟨⟨halive, _⟩, h⟩ := h
  have hpost := Option.some.inj h
  have hclose : ∀ u, close s = .ok u → u.stage = s.stage ∧ u.mbedClient = s.mbedClient := fun u hu => by
    rw [close] at hu
    split at hu
    · cases hu
      exact ⟨rfl, rfl⟩
    · cases hu
  refine ⟨halive, ?_⟩
  rw [← and_assoc]
  refine ⟨?_, hpost⟩
  rw [post] at hpost
  split at hpost
  · cases hpost
    exact ⟨rfl, rfl⟩
  · split at hpost
    · exact hclose t hpost
    · split at hpost
      · rw [factoryReset] at hpost
        cases hu : close s with
        | ok u =>
          rw [hu] at hpost
          cases hpost
          exact hclose u hu
        | error f =>
          rw [hu] at hpost
          cases hpost
      · cases hpost

theorem step_put {p : ResourcePath} {v : String} (h : programStep lib fmt cb s (.put p v) = some t) :
    t.stage = s.stage ∧ Keeps s t := by
  rw [programStep_eq_some, programAct, Option.ite_none_right_eq_some] at h
  have hput := Option.some.inj h.2
  rw [put] at hput
  split at hput
  · cases hput
    exact ⟨rfl, rfl, rfl, rfl⟩
  · cases hput

end Steps

/-! ## The flag -/

def IsAssign (a : ProgramAct) : Prop := a = .client .assign

def IsUnregistered (a : ProgramAct) : Prop := a = .client .clientUnregistered

/-- `call_register` has got to its assignment, and no `client_unregistered` has come since. -/
abbrev FlagSet (as : List ProgramAct) : Prop := Since IsUnregistered IsAssign as

/-- The client after `as`: `call_register` is left when the loop is entered, it assigns once, and the flag is as it should
be. -/
structure Registered (as : List ProgramAct) (s : Program) : Prop where
  early : s.stage.control = none → s.mbedClient = .fresh ∧ .client .assign ∉ as
  phase : ∀ c, s.stage.control = some c → (s.mbedClient.phase = .outside ↔ s.stage ≠ .registering)
  once : .client .assign ∈ as → s.mbedClient.phase = .assigned ∨ s.mbedClient.phase = .outside
  flag : Client.isRegisterCalled s.mbedClient = true ↔ FlagSet as

section Flag

variable {lib : RequestLibrary DataType} {fmt : ValueFormat} {cb : Callbacks} {capacity : Nat} {as : List ProgramAct}
  {s t : Program}

theorem flagSet_other {a : ProgramAct} (ha : ¬IsAssign a) (hb : ¬IsUnregistered a) : FlagSet (as ++ [a]) ↔ FlagSet as := by
  rw [FlagSet, since_snoc]
  exact ⟨fun h => (h.resolve_left ha).2, fun h => Or.inr ⟨hb, h⟩⟩

theorem mem_snoc_other {a b : ProgramAct} (hne : b ≠ a) : b ∈ as ++ [a] ↔ b ∈ as := by
  rw [List.mem_append, List.mem_singleton, or_iff_left hne]

/-- A step that leaves the client alone. -/
theorem Registered.other {a : ProgramAct} (h : Registered as s) (ha : ¬IsAssign a) (hb : ¬IsUnregistered a)
    (hclient : t.mbedClient = s.mbedClient) (hcontrol : t.stage.control = none → s.stage.control = none)
    (hphase : ∀ c, t.stage.control = some c →
      ∃ c', s.stage.control = some c' ∧ (t.stage ≠ .registering ↔ s.stage ≠ .registering)) :
    Registered (as ++ [a]) t := by
  have hne : ProgramAct.client .assign ≠ a := fun he => ha he.symm
  refine ⟨fun hc => ?_, fun c hc => ?_, fun hmem => ?_, ?_⟩
  · obtain ⟨hfresh, hno⟩ := h.early (hcontrol hc)
    exact ⟨hclient.trans hfresh, (mem_snoc_other hne).not.mpr hno⟩
  · obtain ⟨c', hc', hiff⟩ := hphase c hc
    rw [hclient, hiff]
    exact h.phase c' hc'
  · rw [hclient]
    exact h.once ((mem_snoc_other hne).mp hmem)
  · rw [hclient, flagSet_other ha hb]
    exact h.flag

/-- The client moves, and does not enter `call_register`. -/
theorem phase_withClient {m : SimpleM2MClient} (h : s.mbedClient.phase = .outside ↔ s.stage ≠ .registering)
    (hkeep : s.mbedClient.phase = .outside → m.phase = .outside) :
    m.phase = .outside ↔ (s.withClient m).stage ≠ .registering := by
  unfold Program.withClient
  split
  · rename_i hleave
    exact iff_of_true hleave.2 (by simp)
  · rename_i hstay
    constructor
    · exact fun hm hreg => hstay ⟨hreg, hm⟩
    · exact fun hne => hkeep (h.mpr hne)

theorem registered_initReturn {ok : Bool} (hI : Registered as s) (h : programStep lib fmt cb s (.initReturn ok) = some t) :
    Registered (as ++ [.initReturn ok]) t := by
  obtain ⟨hc, _, _, ⟨ht, hclient⟩ | ⟨ht, hclient⟩⟩ := step_initReturn h
  · refine hI.other (by simp [IsAssign]) (by simp [IsUnregistered]) hclient (fun _ => hc) fun c hc' => ?_
    rw [ht] at hc'
    cases hc'
  · obtain ⟨hfresh, hno⟩ := hI.early hc
    have hflag : ¬FlagSet as := fun hset => by
      have := hI.flag.mpr hset
      rw [hfresh] at this
      cases this
    have hnot : .client .assign ∉ as ++ [.initReturn ok] := (mem_snoc_other (by simp)).not.mpr hno
    refine ⟨fun hc' => ?_, fun c _ => ?_, fun hmem => absurd hmem hnot, ?_⟩
    · rw [ht] at hc'
      cases hc'
    · rw [ht, hclient, hfresh]
      exact iff_of_false (by simp [Client.next]) (by simp)
    · rw [hclient, hfresh, flagSet_other (by simp [IsAssign]) (by simp [IsUnregistered])]
      exact iff_of_false (by simp [Client.isRegisterCalled, Client.next, SimpleM2MClient.fresh]) hflag

theorem registered_connect {network : Network} (hI : Registered as s)
    (h : programStep lib fmt cb s (.connect network) = some t) : Registered (as ++ [.connect network]) t := by
  obtain ⟨hstage, hphase, rfl⟩ := step_connect h
  have hcontrol : s.stage.control = some .testing := by rw [hstage]; rfl
  have hno : .client .assign ∉ as := fun hmem => by
    rcases hI.once hmem with hp | hp <;> rw [hphase] at hp <;> cases hp
  have hnot : .client .assign ∉ as ++ [.connect network] := (mem_snoc_other (by simp)).not.mpr hno
  refine ⟨fun hc => ?_, fun c _ => ?_, fun hmem => absurd hmem hnot, ?_⟩
  · rw [connected, control_withClient] at hc
    exact absurd (hcontrol.symm.trans hc) (by simp)
  · refine phase_withClient (hI.phase .testing hcontrol) fun hp => ?_
    rw [hphase] at hp
    cases hp
  · rw [flagSet_other (by simp [IsAssign]) (by simp [IsUnregistered]), ← hI.flag]
    show Client.isRegisterCalled (Client.next s.mbedClient _) = true ↔ _
    rw [Client.next]
    split <;> rfl

/-- What the client does to its phase. -/
theorem phase_next {m : SimpleM2MClient} {a : Client.Act} (hfrom : FromClient a) (hen : Client.Enabled m a) :
    (m.phase = .outside → (Client.next m a).phase = .outside) ∧
      (a = .assign ∨ m.phase = .assigned ∨ m.phase = .outside →
        (Client.next m a).phase = .assigned ∨ (Client.next m a).phase = .outside) := by
  cases a with
  | callRegister => cases hfrom
  | initConnection status => cases hfrom
  | setupReturn ok =>
    have hphase : m.phase = .settingUp := hen
    refine ⟨fun hp => ?_, fun hp => ?_⟩
    · rw [hphase] at hp
      cases hp
    · rw [hphase] at hp
      rcases hp with hp | hp | hp <;> cases hp
  | assign =>
    have hphase : m.phase = .setUp := hen
    refine ⟨fun hp => ?_, fun _ => Or.inl rfl⟩
    rw [hphase] at hp
    cases hp
  | ret => exact ⟨fun _ => rfl, fun _ => Or.inr rfl⟩
  | clientRegistered => exact ⟨fun hp => hp, fun hp => hp.resolve_left (by simp)⟩
  | clientUnregistered =>
    rw [(Client.next_clientUnregistered m).1]
    exact ⟨fun hp => hp, fun hp => hp.resolve_left (by simp)⟩
  | error code => exact ⟨fun hp => hp, fun hp => hp.resolve_left (by simp)⟩

theorem registered_client {a : Client.Act} (hI : Registered as s) (h : programStep lib fmt cb s (.client a) = some t) :
    Registered (as ++ [.client a]) t := by
  obtain ⟨halive, hfrom, m, hm, rfl⟩ := step_client h
  obtain ⟨hen, rfl⟩ := Client.step_eq_some.mp hm
  obtain ⟨c, hc⟩ := halive.control
  obtain ⟨hkeep, honce⟩ := phase_next hfrom hen
  refine ⟨fun hc' => ?_, fun _ _ => phase_withClient (hI.phase c hc) hkeep, fun hmem => honce ?_, ?_⟩
  · rw [control_withClient] at hc'
    exact absurd (hc.symm.trans hc') (by simp)
  · rcases List.mem_append.mp hmem with hmem | hmem
    · exact Or.inr (hI.once hmem)
    · cases List.mem_singleton.mp hmem
      exact Or.inl rfl
  · show Client.isRegisterCalled (Client.next s.mbedClient a) = true ↔ _
    cases a with
    | callRegister => cases hfrom
    | initConnection status => cases hfrom
    | assign => exact iff_of_true rfl (since_snoc.mpr (Or.inl rfl))
    | clientUnregistered =>
      refine iff_of_false ?_ fun hset => ?_
      · rw [Client.isRegisterCalled, (Client.next_clientUnregistered s.mbedClient).2.1]
        simp
      · rcases since_snoc.mp hset with hassign | ⟨hnot, _⟩
        · cases hassign
        · exact hnot rfl
    | _ =>
      rw [flagSet_other (by simp [IsAssign]) (by simp [IsUnregistered])]
      exact hI.flag

/-- **Every action keeps the flag right.** -/
theorem registered_step {a : ProgramAct} (hI : Registered as s) (h : programStep lib fmt cb s a = some t) :
    Registered (as ++ [a]) t := by
  cases a with
  | initReturn ok => exact registered_initReturn hI h
  | connect network => exact registered_connect hI h
  | client a => exact registered_client hI h
  | loop a =>
    obtain ⟨hkeeps, c, c', hs, ht, _⟩ := step_loop h
    refine hI.other (by simp [IsAssign]) (by simp [IsUnregistered]) hkeeps.mbedClient (fun hc => ?_) fun _ _ => ⟨c, ?_, ?_⟩
    · rw [ht] at hc
      cases hc
    · rw [hs]
      rfl
    · rw [hs, ht]
      simp
  | post p =>
    obtain ⟨_, hstage, hclient, _⟩ := step_post h
    exact hI.other (by simp [IsAssign]) (by simp [IsUnregistered]) hclient (fun hc => hstage ▸ hc)
      fun c hc => ⟨c, hstage ▸ hc, by rw [hstage]⟩
  | put p v =>
    obtain ⟨hstage, hkeeps⟩ := step_put h
    exact hI.other (by simp [IsAssign]) (by simp [IsUnregistered]) hkeeps.mbedClient (fun hc => hstage ▸ hc)
      fun c hc => ⟨c, hstage ▸ hc, by rw [hstage]⟩

theorem registered_init : Registered [] (.init capacity) := by
  refine ⟨fun _ => ⟨rfl, List.not_mem_nil⟩, fun c hc => ?_, fun hmem => absurd hmem List.not_mem_nil, ?_⟩
  · cases hc
  · refine iff_of_false (by simp [Client.isRegisterCalled, Program.init, SimpleM2MClient.fresh]) ?_
    rintro ⟨pre, x, post, h, _⟩
    simp at h

theorem registered_run (h : run (programStep lib fmt cb) (.init capacity) as = some s) : Registered as s :=
  run_history Registered registered_init (fun _ _ _ _ => registered_step) h

/-! ## Before the flag is set -/

/-- `call_register` has connected: there is an interface, and one of the attempts has succeeded. -/
def ConnectedIn (as : List ProgramAct) : Prop :=
  ∃ network, .connect network ∈ as ∧ network.present = true ∧ ∃ k < connectionRetryCount, network.connect k = 0

/-- `setup` is called when it has. -/
def SetUpConnected (as : List ProgramAct) (s : Program) : Prop :=
  s.mbedClient.phase = .settingUp ∨ s.mbedClient.phase = .setUp → ConnectedIn as

/-- Only the connection leads to the call of `setup`. -/
theorem phase_before_setUp {m : SimpleM2MClient} {a : Client.Act} (hfrom : FromClient a) (hen : Client.Enabled m a)
    (h : (Client.next m a).phase = .settingUp ∨ (Client.next m a).phase = .setUp) :
    m.phase = .settingUp ∨ m.phase = .setUp := by
  cases a with
  | callRegister => cases hfrom
  | initConnection status => cases hfrom
  | setupReturn ok => exact Or.inl hen
  | assign => rcases h with hp | hp <;> cases hp
  | ret => rcases h with hp | hp <;> cases hp
  | clientUnregistered =>
    rw [(Client.next_clientUnregistered m).1] at h
    exact h
  | clientRegistered | error code => exact h

theorem setUpConnected_step {a : ProgramAct} (hI : SetUpConnected as s) (h : programStep lib fmt cb s a = some t) :
    SetUpConnected (as ++ [a]) t := by
  have hmore : ConnectedIn as → ConnectedIn (as ++ [a]) := by
    rintro ⟨network, hmem, hok⟩
    exact ⟨network, List.mem_append_left _ hmem, hok⟩
  have hsame (hclient : t.mbedClient = s.mbedClient) : SetUpConnected (as ++ [a]) t := by
    intro hphase
    rw [hclient] at hphase
    exact hmore (hI hphase)
  cases a with
  | initReturn ok =>
    obtain ⟨_, _, _, ⟨_, hclient⟩ | ⟨_, hclient⟩⟩ := step_initReturn h
    · exact hsame hclient
    · intro hphase
      rw [hclient] at hphase
      rcases hphase with hp | hp <;> cases hp
  | connect network =>
    obtain ⟨_, _, rfl⟩ := step_connect h
    intro hphase
    by_cases hok : (initConnection network).1 = 0
    · obtain ⟨hpresent, hattempt⟩ := initConnection_eq_zero.mp hok
      exact ⟨network, List.mem_append_right _ (List.mem_singleton_self _), hpresent, hattempt⟩
    · have hout : (Client.next s.mbedClient (.initConnection (initConnection network).1)).phase = .outside := by
        rw [Client.next, if_neg hok]
      rcases hphase with hp | hp <;> exact absurd (hout.symm.trans hp) (by decide)
  | client a =>
    obtain ⟨_, hfrom, m, hm, rfl⟩ := step_client h
    obtain ⟨hen, rfl⟩ := Client.step_eq_some.mp hm
    exact fun hphase => hmore (hI (phase_before_setUp hfrom hen hphase))
  | loop a => exact hsame (step_loop h).1.mbedClient
  | post p => exact hsame (step_post h).2.2.1
  | put p v => exact hsame (step_put h).2.mbedClient

/-! ## What the loop does with it -/

/-- At `a` after `pre`: a test passes exactly if the flag is set, `run` begins behind a test that has passed, with nothing of
the loop between them, and the flag is set only over a connection. -/
structure FollowsFlag (pre : List ProgramAct) (a : ProgramAct) : Prop where
  test : ∀ registered, a = .loop (.test registered) → (registered = true ↔ FlagSet pre)
  run : a = .loop .run → [LoopAct.test true] <:+ loopActs pre
  assign : a = .client .assign → ConnectedIn pre

/-- Where the loop is past the test, that was its last action. -/
theorem entering_run (hI : Refines fmt cb capacity as s) (hs : s.stage = .looping .entering) :
    [LoopAct.test true] <:+ loopActs as := by
  obtain ⟨d, hrun, _⟩ := (hI.ready (show s.stage.control = some .entering by rw [hs]; rfl)).loop
  exact entering_of_run hrun rfl

theorem followsFlag_step {a : ProgramAct} (hreg : Registered as s) (hI : Refines fmt cb capacity as s)
    (hsetUp : SetUpConnected as s) (h : programStep lib fmt cb s a = some t) : FollowsFlag as a := by
  constructor
  · rintro registered rfl
    obtain ⟨_, c, c', _, _, hmove⟩ := step_loop h
    cases hmove with
    | test => exact hreg.flag
    | scan ha _ => rcases ha with ⟨b, hb⟩ | ⟨now, data, hb⟩ <;> cases hb
  · rintro rfl
    obtain ⟨_, c, c', hs, _, hmove⟩ := step_loop h
    cases hmove with
    | start _ => exact entering_run hI hs
    | scan ha _ => rcases ha with ⟨b, hb⟩ | ⟨now, data, hb⟩ <;> cases hb
  · rintro rfl
    obtain ⟨_, _, m, hm, _⟩ := step_client h
    have hphase : s.mbedClient.phase = .setUp := (Client.step_eq_some.mp hm).1
    exact hsetUp (Or.inr hphase)

/-- What is known of the flag after `as`. -/
structure Flagged (fmt : ValueFormat) (cb : Callbacks) (capacity : Nat) (as : List ProgramAct) (s : Program) : Prop where
  registered : Registered as s
  refines : Refines fmt cb capacity as s
  setUp : SetUpConnected as s
  each : EachAfter FollowsFlag as

/-- **The loop follows the registration**, in every run: its flag is set exactly if `call_register` has assigned it, which it
does over a connection only, and no `client_unregistered` has come since; each test of the loop passes exactly if the flag
is set then, and each `gap_device.run()` begins behind a test that passed. -/
theorem program_flag (h : run (programStep lib fmt cb) (.init capacity) as = some s) :
    (Client.isRegisterCalled s.mbedClient = true ↔ FlagSet as) ∧ EachAfter FollowsFlag as := by
  have hstart : SetUpConnected [] (.init capacity) := by
    rintro (hp | hp) <;> cases hp
  have hflagged : Flagged fmt cb capacity as s := by
    refine run_history (Flagged fmt cb capacity) ⟨registered_init, refines_init, hstart, eachAfter_nil _⟩ ?_ h
    rintro pre t a u ⟨hreg, hI, hsetUp, heach⟩ ht
    exact ⟨registered_step hreg ht, refines_step hI ht, setUpConnected_step hsetUp ht,
      eachAfter_snoc.mpr ⟨heach, followsFlag_step hreg hI hsetUp ht⟩⟩
  exact ⟨hflagged.registered.flag, hflagged.each⟩

theorem program_flag_firstCycle :
    ∃ s, run (programStep .plain plainFormat someCallbacks) (.init 32) firstCycle = some s ∧
      (Client.isRegisterCalled s.mbedClient = true ↔ FlagSet firstCycle) ∧ EachAfter FollowsFlag firstCycle := by
  obtain ⟨s, hs⟩ := Option.isSome_iff_exists.mp (show (run (programStep .plain plainFormat someCallbacks) (.init 32)
    firstCycle).isSome = true from rfl)
  exact ⟨s, hs, program_flag hs⟩

end Flag

/-! ## After `client_unregistered` -/

/-- The flag is cleared, and `call_register` is past its assignment. -/
structure Unregistered (s : Program) : Prop where
  stage : s.stage.control ≠ none
  phase : s.mbedClient.phase = .assigned ∨ s.mbedClient.phase = .outside
  flag : Client.isRegisterCalled s.mbedClient = false

def isPublish : ProgramAct → Bool
  | .loop .publish => true
  | _ => false

def isRun : ProgramAct → Bool
  | .loop .run => true
  | _ => false

/-- The scans that can still begin: the one that the last test has let through. -/
def scansLeft (s : Program) : Nat := if s.stage = .looping .entering then 1 else 0

/-- The publications that are left: that of this scan, or of the one in progress. -/
def publicationsLeft (s : Program) : Nat :=
  if s.stage = .looping .entering ∨ s.stage = .looping .running ∨ s.stage = .looping .publishing then 1 else 0

section Unregistered

variable {lib : RequestLibrary DataType} {fmt : ValueFormat} {cb : Callbacks} {capacity : Nat} {as : List ProgramAct}
  {s t : Program}

theorem left_withClient (s : Program) (m : SimpleM2MClient) :
    scansLeft (s.withClient m) = scansLeft s ∧ publicationsLeft (s.withClient m) = publicationsLeft s := by
  unfold scansLeft publicationsLeft Program.withClient
  split
  · rename_i hleave
    rw [hleave.1]
    exact ⟨rfl, rfl⟩
  · exact ⟨rfl, rfl⟩

/-- The client stays unregistered. -/
theorem unregistered_client {a : Client.Act} (hI : Unregistered s) (h : programStep lib fmt cb s (.client a) = some t) :
    Unregistered t ∧ scansLeft t = scansLeft s ∧ publicationsLeft t = publicationsLeft s := by
  obtain ⟨_, hfrom, m, hm, rfl⟩ := step_client h
  obtain ⟨hen, rfl⟩ := Client.step_eq_some.mp hm
  refine ⟨⟨?_, (phase_next hfrom hen).2 (Or.inr hI.phase), ?_⟩, left_withClient s _⟩
  · rw [control_withClient]
    exact hI.stage
  · show Client.isRegisterCalled (Client.next s.mbedClient a) = false
    cases a with
    | callRegister => cases hfrom
    | initConnection status => cases hfrom
    | assign =>
      have hphase : s.mbedClient.phase = .setUp := hen
      rcases hI.phase with hp | hp <;> rw [hphase] at hp <;> cases hp
    | clientUnregistered => exact (Client.next_clientUnregistered s.mbedClient).2.1
    | _ => exact hI.flag

/-- What a step uses up of the scans and publications that are left. -/
structure Spends (a : ProgramAct) (s t : Program) : Prop where
  test : a ≠ .loop (.test true)
  scans : (if isRun a then 1 else 0) + scansLeft t ≤ scansLeft s
  publications : (if isPublish a then 1 else 0) + publicationsLeft t ≤ publicationsLeft s

/-- A step that is not of the loop. -/
theorem Spends.of_left {a : ProgramAct} (ha : loopActOf a = none) (hscans : scansLeft t = scansLeft s)
    (hpublications : publicationsLeft t = publicationsLeft s) : Spends a s t := by
  cases a with
  | loop a => cases ha
  | _ => exact ⟨by simp, by simp [isRun, hscans], by simp [isPublish, hpublications]⟩

/-- A step of the loop with the flag cleared: the scan that is let through begins, and its publication is the last. -/
theorem Moves.spends {a : LoopAct} {c c' : Control} (h : Moves false c a c') (hs : s.stage = .looping c)
    (ht : t.stage = .looping c') : Spends (.loop a) s t := by
  have hleft (htest : a ≠ .test true)
      (hscans : (if isRun (.loop a) then 1 else 0) + (if c' = .entering then 1 else 0) ≤ if c = .entering then 1 else 0)
      (hpublications : (if isPublish (.loop a) then 1 else 0) +
        (if c' = .entering ∨ c' = .running ∨ c' = .publishing then 1 else 0) ≤
          if c = .entering ∨ c = .running ∨ c = .publishing then 1 else 0) : Spends (.loop a) s t := by
    constructor
    · simpa using htest
    · simpa [scansLeft, hs, ht] using hscans
    · simpa [publicationsLeft, hs, ht] using hpublications
  cases h with
  | test => exact hleft (by simp) (by simp [controlTested, isRun]) (by simp [controlTested, isPublish])
  | start hc => rcases hc with rfl | rfl <;> exact hleft (by simp) (by simp [isRun]) (by simp [isPublish])
  | scan ha hc =>
    rcases ha with ⟨b, rfl⟩ | ⟨now, data, rfl⟩ <;> rcases hc with rfl | rfl <;>
      exact hleft (by simp) (by simp [isRun]) (by simp [isPublish])
  | publish => exact hleft (by simp) (by simp [isRun]) (by simp [isPublish])

theorem unregistered_step {a : ProgramAct} (hI : Unregistered s) (h : programStep lib fmt cb s a = some t) :
    Unregistered t ∧ Spends a s t := by
  have hstage (hs : t.stage = s.stage) : scansLeft t = scansLeft s ∧ publicationsLeft t = publicationsLeft s := by
    unfold scansLeft publicationsLeft
    rw [hs]
    exact ⟨rfl, rfl⟩
  cases a with
  | initReturn ok => exact absurd (step_initReturn h).1 hI.stage
  | connect network =>
    obtain ⟨_, hphase, _⟩ := step_connect h
    rcases hI.phase with hp | hp <;> rw [hphase] at hp <;> cases hp
  | client a =>
    obtain ⟨ht, hscans, hpublications⟩ := unregistered_client hI h
    exact ⟨ht, .of_left rfl hscans hpublications⟩
  | loop a =>
    obtain ⟨hkeeps, c, c', hs, ht, hmove⟩ := step_loop h
    rw [hI.flag] at hmove
    refine ⟨⟨?_, hkeeps.mbedClient ▸ hI.phase, hkeeps.mbedClient ▸ hI.flag⟩, hmove.spends hs ht⟩
    rw [ht]
    simp [Stage.control]
  | post p =>
    obtain ⟨_, hs, hclient, _⟩ := step_post h
    obtain ⟨hscans, hpublications⟩ := hstage hs
    exact ⟨⟨hs ▸ hI.stage, hclient ▸ hI.phase, hclient ▸ hI.flag⟩, .of_left rfl hscans hpublications⟩
  | put p v =>
    obtain ⟨hs, hkeeps⟩ := step_put h
    obtain ⟨hscans, hpublications⟩ := hstage hs
    exact ⟨⟨hs ▸ hI.stage, hkeeps.mbedClient ▸ hI.phase, hkeeps.mbedClient ▸ hI.flag⟩, .of_left rfl hscans hpublications⟩

theorem unregistered_run (hI : Unregistered s) (h : run (programStep lib fmt cb) s as = some t) :
    .loop (.test true) ∉ as ∧ as.countP isRun + scansLeft t ≤ scansLeft s ∧
      as.countP isPublish + publicationsLeft t ≤ publicationsLeft s := by
  induction as generalizing s with
  | nil =>
    cases h
    exact ⟨List.not_mem_nil, by simp, by simp⟩
  | cons a as ih =>
    obtain ⟨u, hu, hrest⟩ := Option.bind_eq_some_iff.mp h
    obtain ⟨hu', htest, hscans, hpublications⟩ := unregistered_step hI hu
    obtain ⟨hno, hmore, hmore'⟩ := ih hu' hrest
    refine ⟨?_, ?_, ?_⟩
    · rw [List.mem_cons, not_or]
      exact ⟨Ne.symm htest, hno⟩
    · rw [List.countP_cons]
      omega
    · rw [List.countP_cons]
      omega

/-- **After `client_unregistered` the program is on its way out**, if `call_register` had assigned the flag before it: no test
of the loop passes any more, at most one scan begins, and `update_beacon_cloud_data` is called at most once. -/
theorem program_unregistered {pre post : List ProgramAct} (hassign : .client .assign ∈ pre)
    (h : run (programStep lib fmt cb) (.init capacity) (pre ++ .client .clientUnregistered :: post) = some s) :
    .loop (.test true) ∉ post ∧ post.countP isRun ≤ 1 ∧ post.countP isPublish ≤ 1 := by
  rw [run_append, Option.bind_eq_some_iff] at h
  obtain ⟨c, hc, hrest⟩ := h
  obtain ⟨u, hu, hlast⟩ := Option.bind_eq_some_iff.mp hrest
  have hI := registered_run hc
  have hI' : Registered _ u := registered_step hI hu
  obtain ⟨halive, _, m, _, rfl⟩ := step_client hu
  obtain ⟨control, hcontrol⟩ := halive.control
  have hnot : ¬FlagSet (pre ++ [.client .clientUnregistered]) := fun hset => by
    rcases since_snoc.mp hset with hassigns | ⟨hno, _⟩
    · cases hassigns
    · exact hno rfl
  have hflag : Client.isRegisterCalled (c.withClient m).mbedClient = false := by
    rw [← Bool.not_eq_true, hI'.flag]
    exact hnot
  have hout : Unregistered (c.withClient m) := by
    refine ⟨?_, hI'.once (List.mem_append_left _ hassign), hflag⟩
    rw [control_withClient, hcontrol]
    simp
  obtain ⟨hno, hscans, hpublications⟩ := unregistered_run hout hlast
  have hleft : scansLeft (c.withClient m) ≤ 1 ∧ publicationsLeft (c.withClient m) ≤ 1 := by
    unfold scansLeft publicationsLeft
    split <;> split <;> exact ⟨by decide, by decide⟩
  exact ⟨hno, by omega, by omega⟩

/-- The actions up to the first test. -/
def firstTest : List ProgramAct :=
  [.initReturn true, .initReturn true, .initReturn true, .initReturn true, .connect ⟨true, fun _ => 0⟩,
    .client (.setupReturn true), .client .assign, .client .ret, .loop (.test true)]

/-- The scan that the test has let through, and the way out. -/
def lastCycle : List ProgramAct := [.loop .run, .loop (.gap (.initReturn true)), .loop .publish, .loop (.test false)]

theorem program_unregistered_lastCycle :
    ProgramAct.loop (.test true) ∉ lastCycle ∧ lastCycle.countP isRun ≤ 1 ∧ lastCycle.countP isPublish ≤ 1 := by
  obtain ⟨s, hs⟩ := Option.isSome_iff_exists.mp (show (run (programStep .plain plainFormat someCallbacks) (.init 32)
    (firstTest ++ .client .clientUnregistered :: lastCycle)).isSome = true from rfl)
  exact program_unregistered (by simp [firstTest]) hs

end Unregistered

/-! ## Closing -/

/-- The functions are there. -/
structure Callbacks.NotNull (cb : Callbacks) : Prop where
  unregister : cb.unregister ≠ 0
  factoryReset : cb.factoryReset ≠ 0

/-- A POST for the path calls `close`. -/
def Closes (cb : Callbacks) (p : ResourcePath) : Prop := p = (unregisterCall cb).path ∨ p = (factoryResetCall cb).path

instance (cb : Callbacks) (p : ResourcePath) : Decidable (Closes cb p) := inferInstanceAs (Decidable (_ ∨ _))

def isClosing (cb : Callbacks) : ProgramAct → Bool
  | .post p => Closes cb p
  | _ => false

def isFactoryReset (cb : Callbacks) : ProgramAct → Bool
  | .post p => p = (factoryResetCall cb).path
  | _ => false

section Posts

variable {lib : RequestLibrary DataType} {fmt : ValueFormat} {cb : Callbacks} {capacity : Nat} {as : List ProgramAct}
  {s t : Program}

/-- **The function that a POST calls.** -/
theorem post_iff {b : BeaconState} {val : AddCall DataType → Option String} {app : Application} (hcb : cb.NotNull)
    (h : Shows cb b val app) (p : ResourcePath) :
    ((lib.post p app.tree.objList).isSome ↔ Closes cb p) ∧
      (lib.post p app.tree.objList = some cb.factoryReset ↔ p = (factoryResetCall cb).path) := by
  have hcalls (c : AddCall DataType) (hc : c ∈ cloudCalls cb) (hpost : c.allowed.postAllowed = true)
      (hput : c.allowed.putAllowed = false) (hnull : c.cb ≠ 0) : lib.post c.path app.tree.objList = some c.cb :=
    h.values.post_executes hc (fun d hd => path_unique cb hd hc) hpost hput hnull
  have hunregister : lib.post (unregisterCall cb).path app.tree.objList = some cb.unregister :=
    hcalls (unregisterCall cb) List.mem_cons_self rfl rfl hcb.unregister
  have hreset : lib.post (factoryResetCall cb).path app.tree.objList = some cb.factoryReset :=
    hcalls (factoryResetCall cb) (List.mem_cons_of_mem _ List.mem_cons_self) rfl rfl hcb.factoryReset
  refine ⟨⟨fun hsome => ?_, ?_⟩, fun hf => ?_, ?_⟩
  · obtain ⟨f, hf⟩ := Option.isSome_iff_exists.mp hsome
    exact (post_calls h hf).imp And.left And.left
  · rintro (rfl | rfl)
    · rw [hunregister]
      rfl
    · rw [hreset]
      rfl
  · rcases post_calls h hf with ⟨_, hsame⟩ | ⟨hp, _⟩
    · exact absurd hsame.symm cb.distinct
    · exact hp
  · rintro rfl
    exact hreset

/-- A step counts the calls that a POST makes. -/
theorem counts_step {a : ProgramAct} (hcb : cb.NotNull) (hI : Refines fmt cb capacity as s)
    (h : programStep lib fmt cb s a = some t) :
    t.closes = s.closes + (if isClosing cb a then 1 else 0) ∧
      t.factoryResets = s.factoryResets + if isFactoryReset cb a then 1 else 0 := by
  cases a with
  | initReturn ok =>
    obtain ⟨_, hcloses, hresets, _⟩ := step_initReturn h
    exact ⟨hcloses, hresets⟩
  | connect network =>
    obtain ⟨_, _, rfl⟩ := step_connect h
    exact ⟨rfl, rfl⟩
  | client a =>
    obtain ⟨_, _, m, _, rfl⟩ := step_client h
    exact ⟨rfl, rfl⟩
  | loop a => exact ⟨(step_loop h).1.closes, (step_loop h).1.factoryResets⟩
  | post p =>
    obtain ⟨halive, _, _, hpost⟩ := step_post h
    obtain ⟨c, hc⟩ := halive.control
    have hready := hI.ready hc
    obtain ⟨d, _, hd⟩ := hready.loop
    rw [post_eq hd hready.client] at hpost
    cases hpost
    obtain ⟨hcloses, hresets⟩ := @post_iff lib cb _ _ _ hcb hd p
    simp only [posted, isClosing, isFactoryReset, decide_eq_true_eq, hcloses, hresets, and_self]
  | put p v => exact ⟨(step_put h).2.closes, (step_put h).2.factoryResets⟩

/-- **A POST calls what its path says**, over every run: `close` once for each POST for 5000/0/1 and 5000/0/2,
`kcm_factory_reset` once for each for 5000/0/2, and nothing else calls them. -/
theorem program_posts (hcb : cb.NotNull) (h : run (programStep lib fmt cb) (.init capacity) as = some s) :
    s.closes = as.countP (isClosing cb) ∧ s.factoryResets = as.countP (isFactoryReset cb) := by
  have hboth : Refines fmt cb capacity as s ∧
      s.closes = as.countP (isClosing cb) ∧ s.factoryResets = as.countP (isFactoryReset cb) := by
    refine run_history (fun as s => Refines fmt cb capacity as s ∧
      s.closes = as.countP (isClosing cb) ∧ s.factoryResets = as.countP (isFactoryReset cb)) ⟨refines_init, rfl, rfl⟩ ?_ h
    rintro pre t a u ⟨hI, hcloses, hresets⟩ hu
    obtain ⟨hcloses', hresets'⟩ := counts_step hcb hI hu
    refine ⟨refines_step hI hu, ?_, ?_⟩
    · rw [hcloses', hcloses, List.countP_append, List.countP_singleton]
    · rw [hresets', hresets, List.countP_append, List.countP_singleton]
  exact hboth.2

/-- Both resources are executed. -/
def bothPosts : List ProgramAct := [.post ⟨5000, 0, 1⟩, .post ⟨5000, 0, 2⟩]

theorem program_posts_both :
    ∃ s, run (programStep .plain plainFormat someCallbacks) (.init 32) (firstCycle ++ bothPosts) = some s ∧
      s.closes = (firstCycle ++ bothPosts).countP (isClosing someCallbacks) ∧
      s.factoryResets = (firstCycle ++ bothPosts).countP (isFactoryReset someCallbacks) := by
  obtain ⟨s, hs⟩ := Option.isSome_iff_exists.mp (show (run (programStep .plain plainFormat someCallbacks) (.init 32)
    (firstCycle ++ bothPosts)).isSome = true from rfl)
  exact ⟨s, hs, program_posts ⟨by decide, by decide⟩ hs⟩

end Posts

end PelionClient.Main
