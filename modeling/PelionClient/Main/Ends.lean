import PelionClient.Main.Exit

/-!
# Whether the program can end

The cloud ends the program by `client_unregistered`, but the loop tests the flag only between two scans. So from a state of a
run the program can come to its end, without a connection timeout, exactly if the scan that is in progress can
(`program_can_end_iff`); once `break_dispatch` has been called it always can. The way to the end is found backwards: from the
test of the loop (`canEnd_testing`), from the publication before it, from the scan before that, from the beginning of that
scan, and from `call_register`.
-/

namespace PelionClient.Main

open Lib Beacon Platform
open Client (RequestLibrary SimpleM2MClient)

/-- `main_application` has returned. -/
def Stage.Ended (s : Stage) : Prop := s = .failed ∨ s = .looping .exited

/-- The scanner's connection attempt times out. -/
def connTimeout : ProgramAct := .loop (.gap (.timeout .conn))

/-- From this state the program can come to its end without a connection timeout. -/
def CanEnd (lib : RequestLibrary DataType) (fmt : ValueFormat) (cb : Callbacks) (s : Program) : Prop :=
  ∃ bs t, connTimeout ∉ bs ∧ run (programStep lib fmt cb) s bs = some t ∧ t.stage.Ended

section Backwards

variable {lib : RequestLibrary DataType} {fmt : ValueFormat} {cb : Callbacks} {capacity : Nat} {as : List ProgramAct}
  {s t : Program}

theorem canEnd_of_ended (h : s.stage.Ended) : CanEnd lib fmt cb s := ⟨[], s, List.not_mem_nil, rfl, h⟩

/-- A step on the way. -/
theorem CanEnd.step {a : ProgramAct} (hconn : a ≠ connTimeout) (h : programStep lib fmt cb s a = some t)
    (ht : CanEnd lib fmt cb t) : CanEnd lib fmt cb s := by
  obtain ⟨bs, u, hno, hrun, hend⟩ := ht
  refine ⟨a :: bs, u, ?_, by rw [run_cons, h, Option.bind_some, hrun], hend⟩
  rw [List.mem_cons, not_or]
  exact ⟨Ne.symm hconn, hno⟩

/-! ## The client -/

/-- A step of the client on the way. -/
theorem CanEnd.client {a : Client.Act} (halive : s.stage.Alive) (hen : Client.Enabled s.mbedClient a)
    (hfrom : FromClient a) (ht : CanEnd lib fmt cb (s.withClient (Client.next s.mbedClient a))) :
    CanEnd lib fmt cb s := by
  have hstep : programStep lib fmt cb s (.client a) = some (s.withClient (Client.next s.mbedClient a)) := by
    rw [programStep_eq_some, programAct, if_pos ⟨halive, hfrom⟩, Client.step_eq_some.mpr ⟨hen, rfl⟩]
    rfl
  exact ht.step (by simp [connTimeout]) hstep

/-- `setup` has been called before the flag is set. -/
theorem setupFirst_run (h : run (programStep lib fmt cb) (.init capacity) as = some s) :
    Client.SetupFirst s.mbedClient := by
  have hboth : Registered as s ∧ Client.SetupFirst s.mbedClient := by
    refine run_history (fun as s => Registered as s ∧ Client.SetupFirst s.mbedClient)
      ⟨registered_init, Client.setupFirst_fresh⟩ ?_ h
    rintro pre t a u ⟨hreg, hI⟩ hu
    refine ⟨registered_step hreg hu, ?_⟩
    cases a with
    | initReturn ok =>
      obtain ⟨hc, _, _, ⟨_, hclient⟩ | ⟨_, hclient⟩⟩ := step_initReturn hu
      · exact hclient ▸ hI
      · have hen : Client.Enabled t.mbedClient .callRegister := by
          rw [(hreg.early hc).1]
          rfl
        exact hclient ▸ Client.setupFirst_next hI hen
    | connect network =>
      obtain ⟨_, hphase, rfl⟩ := step_connect hu
      have hen : Client.Enabled t.mbedClient (.initConnection (initConnection network).1) := hphase
      exact Client.setupFirst_next hI hen
    | client a =>
      obtain ⟨_, _, m, hm, rfl⟩ := step_client hu
      obtain ⟨hen, rfl⟩ := Client.step_eq_some.mp hm
      exact Client.setupFirst_next hI hen
    | loop a => exact (step_loop hu).1.mbedClient ▸ hI
    | post p => exact (step_post hu).2.2.1 ▸ hI
    | put p v => exact (step_put hu).2.mbedClient ▸ hI
  exact hboth.2

/-! ## The way to the end -/

theorem canEnd_flag (hstage : s.stage = .looping .testing) (hflag : Client.isRegisterCalled s.mbedClient = false) :
    CanEnd lib fmt cb s := by
  have hstep : programStep lib fmt cb s (.loop (.test false)) = some { s with stage := .looping .exited } := by
    rw [programStep_eq_some, programAct, hstage]
    simp only [loopAct, hflag, and_self, if_true]
    rfl
  exact (canEnd_of_ended (Or.inr rfl)).step (by simp [connTimeout]) hstep

/-- **At the test of the loop** the cloud can unregister the client. -/
theorem canEnd_testing (hset : Client.SetupFirst s.mbedClient) (hstage : s.stage = .looping .testing) :
    CanEnd lib fmt cb s := by
  cases hflag : Client.isRegisterCalled s.mbedClient with
  | false => exact canEnd_flag hstage hflag
  | true =>
    have halive : s.stage.Alive := Or.inr ⟨.testing, hstage, by simp⟩
    have hen : Client.Enabled s.mbedClient .clientUnregistered := hset.flag hflag
    refine CanEnd.client halive hen trivial (canEnd_flag ?_ ?_)
    · rw [Program.withClient, hstage]
      rfl
    · exact (Client.next_clientUnregistered s.mbedClient).2.1

/-- After a scan the table is published. -/
theorem canEnd_publishing (hs : run (programStep lib fmt cb) (.init capacity) as = some s)
    (hstage : s.stage = .looping .publishing) : CanEnd lib fmt cb s := by
  obtain ⟨app, n, happ, _⟩ := ((refines_run hs).ready (show s.stage.control = some .publishing by rw [hstage]; rfl)).publish
  have hstep : programStep lib fmt cb s (.loop .publish) = some { s with stage := .looping .testing, app := app } := by
    rw [programStep_eq_some, programAct, hstage]
    simp only [loopAct, if_true, happ]
  have hset := setupFirst_run hs
  exact CanEnd.step (by simp [connTimeout]) hstep (canEnd_testing hset rfl)

/-- **In a scan** the program takes the scanner's steps. -/
theorem canEnd_scanning {gs : List Gap.Act} {g : Gap.GapDevice}
    (hs : run (programStep lib fmt cb) (.init capacity) as = some s) (hstage : s.stage = .looping (controlAfter s.gapDevice))
    (hinner : ∀ a ∈ gs, Gap.Inner a) (hrun : run Gap.step s.gapDevice gs = some g) (hout : g.phase = .outside) :
    CanEnd lib fmt cb s := by
  induction gs generalizing as s with
  | nil =>
    cases hrun
    rw [controlAfter, if_pos hout] at hstage
    exact canEnd_publishing hs hstage
  | cons a gs ih =>
    obtain ⟨ha, hgs⟩ := List.forall_mem_cons.mp hinner
    obtain ⟨u, hu, hrest⟩ := Option.bind_eq_some_iff.mp hrun
    have hne : a ≠ .run ∧ a ≠ .advertisement ∧ a ≠ .timeout .conn := by
      refine ⟨?_, ?_, ?_⟩ <;> rintro rfl <;> exact ha
    have hin : s.gapDevice.phase ≠ .outside := Gap.phase_of_inner ha (Gap.step_eq_some.mp hu).1
    rw [controlAfter, if_neg hin] at hstage
    have hstep : programStep lib fmt cb s (.loop (.gap a)) =
        some (s.scanned u (clearedScanCount s.app.beacons a)) := by
      rw [programStep_eq_some, programAct, hstage]
      simp only [loopAct, hne, ne_eq, not_false_eq_true, and_self, if_true, hu, Option.map_some]
    refine CanEnd.step ?_ hstep (ih (run_snoc.mpr ⟨s, hs, hstep⟩) rfl hgs hrest)
    simp [connTimeout, hne]

/-- **In `run`**, if the dispatch is free to come to its end. -/
theorem canEnd_running (hs : run (programStep lib fmt cb) (.init capacity) as = some s)
    (hquiet : Gap.Quiet (gapActs (loopActs as))) (hstage : s.stage = .looping .running)
    (hscan : s.gapDevice.phase = .dispatching → Gap.Free s.gapDevice) : CanEnd lib fmt cb s := by
  obtain ⟨d, hrun, _⟩ := ((refines_run hs).ready (show s.stage.control = some .running by rw [hstage]; rfl)).loop
  have hin : s.gapDevice.phase ≠ .outside := (control_run hrun).mp rfl
  obtain ⟨gs, g, hinner, hg, hout⟩ := Gap.returns (Gap.oneChain_of_quiet hquiet (gap_run hrun)) hin hscan
  refine canEnd_scanning hs ?_ hinner hg hout
  rw [controlAfter, if_neg hin]
  exact hstage

/-- **Before `run`** it begins, and the stack can fail to initialise. -/
theorem canEnd_entering (hs : run (programStep lib fmt cb) (.init capacity) as = some s)
    (hquiet : Gap.Quiet (gapActs (loopActs as))) (hstage : s.stage = .looping .entering) : CanEnd lib fmt cb s := by
  obtain ⟨d, hrun, _⟩ := ((refines_run hs).ready (show s.stage.control = some .entering by rw [hstage]; rfl)).loop
  have hphase : s.gapDevice.phase = .outside := by
    by_contra hin
    cases (control_run hrun).mpr hin
  have hgap : Gap.step s.gapDevice .run = some (Gap.next s.gapDevice .run) := Gap.step_eq_some.mpr ⟨hphase, rfl⟩
  have hstep : programStep lib fmt cb s (.loop .run) =
      some (s.scanned (Gap.next s.gapDevice .run) s.app.beacons) := by
    rw [programStep_eq_some, programAct, hstage]
    simp only [loopAct, if_true, hgap, Option.map_some]
  have hnext := run_snoc.mpr ⟨s, hs, hstep⟩
  have hafter : (Gap.next s.gapDevice .run).phase = .outside ∨ (Gap.next s.gapDevice .run).phase = .initialising := by
    simp only [Gap.next]
    split
    · exact Or.inl hphase
    · exact Or.inr rfl
  refine CanEnd.step (by simp [connTimeout]) hstep ?_
  rcases hafter with hout | hin
  · refine canEnd_publishing hnext ?_
    rw [Program.scanned, controlAfter, if_pos hout]
  · refine canEnd_running hnext ?_ ?_ fun hdispatching => ?_
    · rw [loopActs_snoc, gapActs, List.filterMap_append]
      exact fun hmem => (List.mem_append.mp hmem).elim hquiet (by simp [loopActOf, gapAct])
    · rw [Program.scanned, controlAfter, if_neg (by rw [hin]; decide)]
    · have hsame : (Gap.next s.gapDevice .run).phase = .dispatching := hdispatching
      rw [hin] at hsame
      cases hsame

/-- **In `call_register`** the connection can fail, and past it the other steps are left. -/
theorem canEnd_registering (hs : run (programStep lib fmt cb) (.init capacity) as = some s)
    (hstage : s.stage = .registering) : CanEnd lib fmt cb s := by
  have hassigned {t : Program} (hset : Client.SetupFirst t.mbedClient) (ht : t.stage = .registering)
      (hen : Client.Enabled t.mbedClient .ret) : CanEnd lib fmt cb t :=
    .client (Or.inl ht) hen trivial (canEnd_testing (Client.setupFirst_next hset hen) (if_pos ⟨ht, rfl⟩))
  have hsetUp {t : Program} (hset : Client.SetupFirst t.mbedClient) (ht : t.stage = .registering)
      (hen : Client.Enabled t.mbedClient .assign) : CanEnd lib fmt cb t :=
    .client (Or.inl ht) hen trivial
      (hassigned (Client.setupFirst_next hset hen) ((if_neg (by simp [Client.next])).trans ht) rfl)
  have hset := setupFirst_run hs
  cases hphase : s.mbedClient.phase with
  | outside =>
    have hout := ((registered_run hs).phase .testing (by rw [hstage]; rfl)).mp hphase
    exact absurd hstage hout
  | connecting =>
    -- without an interface
    have hstep : programStep lib fmt cb s (.connect ⟨false, fun _ => 0⟩) = some (connected s ⟨false, fun _ => 0⟩) := by
      rw [programStep_eq_some, programAct, if_pos ⟨hstage, hphase⟩]
    have hen : Client.Enabled s.mbedClient (.initConnection (-1)) := hphase
    exact CanEnd.step (by simp [connTimeout]) hstep
      (canEnd_testing (Client.setupFirst_next hset hen) (if_pos ⟨hstage, rfl⟩))
  | settingUp =>
    have hen : Client.Enabled s.mbedClient (.setupReturn true) := hphase
    exact .client (Or.inl hstage) hen trivial
      (hsetUp (Client.setupFirst_next hset hen) ((if_neg (by simp [Client.next])).trans hstage) rfl)
  | setUp => exact hsetUp hset hstage hphase
  | assigned => exact hassigned hset hstage hphase

end Backwards

/-! ## The scan in progress -/

section Program

variable {lib : RequestLibrary DataType} {fmt : ValueFormat} {cb : Callbacks} {capacity : Nat} {as bs : List ProgramAct}
  {s t : Program}

theorem control_eq_running {stage : Stage} (h : stage.control = some .running) : stage = .looping .running := by
  cases stage with
  | looping c => exact congrArg Stage.looping (Option.some.inj h)
  | _ => cases h

theorem mem_loopActs {a : LoopAct} : a ∈ loopActs as ↔ .loop a ∈ as := by
  rw [loopActs, List.mem_filterMap]
  constructor
  · rintro ⟨x, hx, hloop⟩
    cases x with
    | loop b =>
      obtain rfl := Option.some.inj hloop
      exact hx
    | _ => cases hloop
  · exact fun ha => ⟨_, ha, rfl⟩

theorem quiet_loopActs (h : connTimeout ∉ as) : Gap.Quiet (gapActs (loopActs as)) := by
  intro hmem
  obtain ⟨a, ha, hgap⟩ := List.mem_filterMap.mp hmem
  cases a with
  | gap b =>
    obtain rfl := Option.some.inj hgap
    exact h (mem_loopActs.mp ha)
  | test registered => cases hgap
  | run => cases Option.some.inj hgap
  | advertisement now data => cases Option.some.inj hgap
  | publish => cases hgap

/-- The scan in progress can come to its end: a link of its chain is outstanding, and the blinks accepted so far leave three
places on the queue. -/
def ScanCanEnd (capacity : Nat) (as : List ProgramAct) (s : Program) : Prop :=
  Gap.Outstanding s.gapDevice ∧ Gap.accepted (.fresh capacity) (gapActs (loopActs as)) + 3 ≤ capacity

/-- **If it cannot, the program neither ends nor publishes**, whatever callbacks and requests come. -/
theorem frozen_program (hquiet : connTimeout ∉ as ++ bs) (hs : run (programStep lib fmt cb) (.init capacity) as = some s)
    (hph : s.gapDevice.phase = .dispatching) (hnot : ¬ScanCanEnd capacity as s)
    (ht : run (programStep lib fmt cb) s bs = some t) : t.stage = .looping .running ∧ .loop .publish ∉ bs := by
  have hacts : loopActs (as ++ bs) = loopActs as ++ loopActs bs := List.filterMap_append
  have hboth : run (programStep lib fmt cb) (.init capacity) (as ++ bs) = some t := by
    rw [run_append, hs, Option.bind_some, ht]
  have hquiet' := quiet_loopActs hquiet
  cases hc : s.stage.control with
  | none =>
    rw [((refines_run hs).early hc).state] at hph
    cases hph
  | some c =>
    obtain ⟨d, hrun, _⟩ := ((refines_run hs).ready hc).loop
    cases hc' : t.stage.control with
    | none =>
      -- then the loop has done nothing, and the scanner is new
      have hnil := ((refines_run hboth).early hc').acts
      rw [hacts, List.append_eq_nil_iff] at hnil
      rw [hnil.1] at hrun
      have hnew : Gap.GapDevice.fresh capacity = s.gapDevice := congrArg ScanLoop.gap (Option.some.inj hrun)
      rw [← hnew] at hph
      cases hph
    | some c' =>
      obtain ⟨d', hrun', _⟩ := ((refines_run hboth).ready hc').loop
      rw [hacts] at hrun' hquiet'
      rw [run_append, hrun, Option.bind_some] at hrun'
      obtain ⟨rfl, hnone⟩ := loop_frozen hquiet' hrun hph hnot hrun'
      exact ⟨control_eq_running hc', fun hmem => hnone (mem_loopActs.mpr hmem)⟩

/-- **If it can, so can the program.** -/
theorem canEnd_of_scan (hquiet : connTimeout ∉ as) (hs : run (programStep lib fmt cb) (.init capacity) as = some s)
    (hscan : s.gapDevice.phase = .dispatching → ScanCanEnd capacity as s) : CanEnd lib fmt cb s := by
  cases hstage : s.stage with
  | failed => exact canEnd_of_ended (Or.inl hstage)
  | initialising call =>
    have hstep : programStep lib fmt cb s (.initReturn false) = some { s with stage := .failed } := by
      rw [programStep_eq_some, programAct, hstage]
      rfl
    exact CanEnd.step (by simp [connTimeout]) hstep (canEnd_of_ended (Or.inl rfl))
  | registering => exact canEnd_registering hs hstage
  | looping c =>
    cases c with
    | exited => exact canEnd_of_ended (Or.inr hstage)
    | testing => exact canEnd_testing (setupFirst_run hs) hstage
    | publishing => exact canEnd_publishing hs hstage
    | entering => exact canEnd_entering hs (quiet_loopActs hquiet) hstage
    | running =>
      obtain ⟨d, hrun, _⟩ := ((refines_run hs).ready (show s.stage.control = some .running by rw [hstage]; rfl)).loop
      exact canEnd_running hs (quiet_loopActs hquiet) hstage fun hph => (Gap.free_iff (gap_run hrun)).mpr (hscan hph)

/-- **When the program can end**: in any state of a run without connection timeouts, it can come to its end without one
exactly if it is not dispatching, or the scan can come to its end. If it cannot, it never publishes again either. -/
theorem program_can_end_iff (hquiet : connTimeout ∉ as) (hs : run (programStep lib fmt cb) (.init capacity) as = some s) :
    (CanEnd lib fmt cb s ↔ (s.gapDevice.phase = .dispatching → ScanCanEnd capacity as s)) ∧
      (¬CanEnd lib fmt cb s → ∀ bs t, connTimeout ∉ bs → run (programStep lib fmt cb) s bs = some t →
        .loop .publish ∉ bs) := by
  have hboth {bs : List ProgramAct} (hbs : connTimeout ∉ bs) : connTimeout ∉ as ++ bs := by
    rw [List.mem_append, not_or]
    exact ⟨hquiet, hbs⟩
  refine ⟨⟨?_, canEnd_of_scan hquiet hs⟩, fun hno bs t hbs ht => ?_⟩
  · rintro ⟨bs, t, hbs, ht, hend⟩ hph
    by_contra hnot
    rw [(frozen_program (hboth hbs) hs hph hnot ht).1] at hend
    rcases hend with h | h <;> cases h
  · obtain ⟨hph, hnot⟩ := Classical.not_imp.mp fun hscan => hno (canEnd_of_scan hquiet hs hscan)
    exact (frozen_program (hboth hbs) hs hph hnot ht).2

/-- A queue for three events is taken by the first blink; then the client is unregistered. -/
def firstScan : List ProgramAct :=
  [.initReturn true, .initReturn true, .initReturn true, .initReturn true, .connect ⟨true, fun _ => 0⟩,
    .client (.setupReturn true), .client .assign, .client .ret, .loop (.test true), .loop .run,
    .loop (.gap (.initReturn false)), .client .clientUnregistered]

theorem program_can_end_iff_three :
    ∃ s, run (programStep .plain plainFormat someCallbacks) (.init 3) firstScan = some s ∧
      ¬CanEnd .plain plainFormat someCallbacks s := by
  obtain ⟨s, hs⟩ := Option.isSome_iff_exists.mp (show (run (programStep .plain plainFormat someCallbacks) (.init 3)
    firstScan).isSome = true from rfl)
  have hphase : (run (programStep .plain plainFormat someCallbacks) (.init 3) firstScan).map (fun s => s.gapDevice.phase) =
    some .dispatching := rfl
  rw [hs] at hphase
  refine ⟨s, hs, fun hcan => ?_⟩
  have hscan := (program_can_end_iff (by simp [firstScan, connTimeout]) hs).1.mp hcan (Option.some.inj hphase)
  exact absurd hscan.2 (by decide)

end Program

end PelionClient.Main
