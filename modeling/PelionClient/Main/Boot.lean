import PelionClient.App.Credentials
import PelionClient.App.Recovery
import PelionClient.Main.Exit
import PelionClient.Platform.Success

/-!
# Starting up

`application_init_fcc` may format what `mcc_platform_storage_init` has mounted: its calls of `mcc_platform_reformat_storage`
are answered by the storage (`serve`), and what a successful format leaves is mounted again (`mounted_serve`), and after a
format that fails the start-up fails (`formatsOk_start`). So a client is made only on a device whose file systems are all
mounted and whose configuration is verified (`program_booted`).
-/

namespace PelionClient.Main

open Lib Platform
open Client (RequestLibrary)
open App (Build applicationInitFcc beforeCheck fccInit recover resetStorage sotpInit verifyCloudConfiguration)

/-! ## The storage during the start-up -/

/-- A call of `application_init_fcc`, and, if it is a reformat, how the formats of `fs1` and `fs2` end. -/
structure ServedCall where
  call : App.Call
  format1 : Int
  format2 : Int

/-- The storage, and what has been done to it since the start. -/
structure BootLog where
  storage : Storage
  history : List Op

/-- The call is answered; a reformat has the status that the storage returns. -/
def serve (cfg : Config) (l : BootLog) (c : ServedCall) : Option BootLog :=
  match c.call with
  | .reformatStorage status =>
    let r := reformatStorage cfg c.format1 c.format2 l.storage
    if r.1 = some status then some ⟨r.2, l.history ++ r.2.trace⟩ else none
  | _ => some l

/-- Every configured file system is there and mounted. -/
structure Mounted (cfg : Config) (l : BootLog) : Prop where
  mounted : ∀ v, cfg.layout.Configured v → MountedOn v (cfg.layout.device v) l.history
  fs : ∀ v, cfg.layout.Configured v → l.storage.fs v = true
  parts : OwnPartsIn cfg l.storage

section Serve

variable {cfg : Config} {l l' : BootLog}

/-- A reformat changes no pointer. -/
theorem reformatStorage_keeps (cfg : Config) (status1 status2 : Int) (s : Storage) :
    (reformatStorage cfg status1 status2 s).2.fs = s.fs ∧ (reformatStorage cfg status1 status2 s).2.part = s.part := by
  unfold reformatStorage reformatPartition Storage.op
  dsimp only
  split
  · split
    · exact ⟨rfl, rfl⟩
    · split
      · exact ⟨rfl, rfl⟩
      · split
        · exact ⟨rfl, rfl⟩
        · split
          · exact ⟨rfl, rfl⟩
          · split <;> exact ⟨rfl, rfl⟩
  · exact ⟨rfl, rfl⟩

/-- Without a block device nothing is formatted. -/
theorem bd_of_reformatStorage {status1 status2 : Int} {s : Storage} (hok : (reformatStorage cfg status1 status2 s).1 = some 0) :
    s.bd = true := by
  by_contra hbd
  rw [reformatStorage, if_neg hbd] at hok
  cases hok

/-- A format that succeeds mounts. -/
theorem mountedOn_reformat (v : Volume) (device : Device) (ops : List Op) :
    MountedOn v device (ops ++ [.reformat v device 0]) := since_snoc.mpr (Or.inl ⟨rfl, rfl, rfl⟩)

/-- **A reformat that returns 0 leaves every configured file system mounted.** -/
theorem mountedOn_reformatStorage (hI : Mounted cfg l) {status1 status2 : Int}
    (hok : (reformatStorage cfg status1 status2 l.storage).1 = some 0) (v : Volume) (hv : cfg.layout.Configured v) :
    MountedOn v (cfg.layout.device v) (reformatStorage cfg status1 status2 l.storage).2.trace := by
  cases hlayout : cfg.layout with
  | off =>
    rw [(reformatStorage_off status1 status2 hlayout).1] at hok
    cases hok
  | on two auto =>
    have hcases := reformatStorage_on status1 status2 hlayout (bd_of_reformatStorage hok) hI.fs
    have hpart (w : Volume) (hw : (Layout.on two auto).Configured w) : l.storage.part w = .partition w :=
      (hI.parts two auto hlayout).fs w (hI.fs w (hlayout ▸ hw))
    rw [hlayout] at hv
    revert v
    rw [Layout.forall_on]
    show MountedOn .primary (.partition .primary) _ ∧ (two = true → MountedOn .secondary (.partition .secondary) _)
    have hprimary := hpart .primary trivial
    split at hcases
    · rename_i hboth
      obtain ⟨rfl, rfl⟩ := hboth
      have hsecondary := hpart .secondary ⟨auto, rfl⟩
      rw [hok, Option.some.injEq] at hcases
      obtain ⟨rfl, htrace⟩ := hcases
      rw [htrace, hprimary, hsecondary]
      have hfirst : MountedOn .primary (.partition .primary) [.reformat .primary (.partition .primary) 0] :=
        mountedOn_reformat .primary (.partition .primary) []
      exact ⟨Since.append hfirst (by simp [Op.volume]),
        fun _ => mountedOn_reformat .secondary (.partition .secondary) [.reformat .primary (.partition .primary) 0]⟩
    · rename_i hone
      rw [hok, Option.some.injEq] at hcases
      obtain ⟨rfl, htrace⟩ := hcases
      rw [htrace, hprimary]
      exact ⟨mountedOn_reformat .primary (.partition .primary) [], fun htwo => absurd ⟨rfl, htwo⟩ hone⟩

/-- **A call of the start-up leaves the storage mounted**, if a reformat returns 0. -/
theorem mounted_serve {c : ServedCall} (hI : Mounted cfg l) (hc : ∀ status, c.call = .reformatStorage status → status = 0)
    (h : serve cfg l c = some l') : Mounted cfg l' := by
  unfold serve at h
  split at h
  · rename_i status hcall
    obtain rfl := hc status hcall
    dsimp only at h
    obtain ⟨hok, hl'⟩ := Option.ite_none_right_eq_some.mp h
    obtain rfl := Option.some.inj hl'
    obtain ⟨hfs, hpart⟩ := reformatStorage_keeps cfg c.format1 c.format2 l.storage
    refine ⟨fun v hv => Since.of_right (mountedOn_reformatStorage hI hok v hv) l.history, ?_, ?_⟩
    · exact fun v hv => (congrFun hfs v).trans (hI.fs v hv)
    · intro two auto hlayout
      obtain ⟨hparts, hown⟩ := hI.parts two auto hlayout
      exact ⟨fun v => hpart ▸ hparts v, fun v hv => hpart ▸ hown v (hfs ▸ hv)⟩
  · cases h
    exact hI

theorem mounted_run {cs : List ServedCall} (hI : Mounted cfg l)
    (hcs : ∀ status, .reformatStorage status ∈ cs.map ServedCall.call → status = 0) (h : run (serve cfg) l cs = some l') :
    Mounted cfg l' := by
  induction cs generalizing l with
  | nil => cases h; exact hI
  | cons c cs ih =>
    obtain ⟨u, hu, hrest⟩ := Option.bind_eq_some_iff.mp h
    rw [List.map_cons] at hcs
    refine ih (mounted_serve hI (fun status hstatus => hcs status ?_) hu)
      (fun status hmem => hcs status (List.mem_cons_of_mem _ hmem)) hrest
    rw [hstatus]
    exact List.mem_cons_self

end Serve

/-! ## The formats of a start-up that succeeds -/

/-- No format has failed. -/
def FormatsOk (calls : List App.Call) : Prop := ∀ status, .reformatStorage status ∈ calls → status = 0

section Formats

variable {b : Build} {calls added : List App.Call}

theorem FormatsOk.append (h : FormatsOk calls) (hadded : FormatsOk added) : FormatsOk (calls ++ added) := by
  intro status hmem
  rcases List.mem_append.mp hmem with hmem | hmem
  · exact h status hmem
  · exact hadded status hmem

theorem formatsOk_sets (h : ∀ x ∈ added, x.sets = true) : FormatsOk added := by
  intro status hmem
  have hsets := h _ hmem
  cases hsets

theorem formatsOk_finalize : FormatsOk [.finalize] := by simp [FormatsOk]

theorem formatsOk_sotpInit (h : FormatsOk calls) (o : App.SotpOutcomes) : FormatsOk (sotpInit b o calls).2 := by
  rcases @App.sotpInit_cases b o calls with ⟨_, hr⟩ | ⟨_, _, added, hadded, hr⟩
  · rw [hr]
    exact h.append (formatsOk_sets (App.sets_sotpCalls b o))
  · rw [hr]
    exact (h.append (formatsOk_sets hadded)).append formatsOk_finalize

theorem formatsOk_fccInit (b : Build) (o : App.Outcomes) : FormatsOk (fccInit b o []).2 := by
  have hinit : FormatsOk ([] ++ [.fccInit o.fccInit]) := by simp [FormatsOk]
  rcases @App.fccInit_cases b o [] with ⟨_, _, hr⟩ | ⟨_, _, hr⟩ | ⟨_, _, _, added, hadded, hr⟩
  · rw [hr]
    exact hinit
  · rw [hr]
    exact hinit.append (formatsOk_sets (App.sets_sotpCalls b o.sotp))
  · rw [hr]
    exact ((hinit.append (formatsOk_sets hadded)).append formatsOk_finalize).append formatsOk_finalize

/-- A reset that succeeds has formatted, if it had to. -/
theorem formatsOk_resetStorage (h : FormatsOk calls) {o : App.ResetOutcomes} (hok : (resetStorage b o calls).1 = 0) :
    FormatsOk (resetStorage b o calls).2 := by
  have hdelete (status : Int) : FormatsOk [.storageDelete status] := by simp [FormatsOk]
  have hformat : FormatsOk [.reformatStorage 0] := by simp [FormatsOk]
  unfold resetStorage at hok ⊢
  dsimp only at hok ⊢
  split at hok
  · rename_i hfail
    rw [if_pos hfail]
    split at hok
    · rename_i hmbed
      rw [if_pos hmbed]
      split at hok
      · rename_i hzero
        rw [if_pos hzero, hzero]
        exact ((h.append (hdelete _)).append hformat).append (hdelete _)
      · rename_i hnot
        exact absurd hok hnot
    · exact absurd hok hfail
  · rename_i hdone
    rw [if_neg hdone]
    exact h.append (hdelete _)

theorem formatsOk_verify (h : FormatsOk calls) (o : App.VerifyOutcomes) :
    FormatsOk (verifyCloudConfiguration b o calls).2 := by
  rw [App.verify_spec]
  refine (h.append ?_).append (by simp [FormatsOk])
  split <;> simp [FormatsOk]

theorem formatsOk_beforeCheck {o : App.Outcomes} (hok : (beforeCheck b o).1 = 0) : FormatsOk (beforeCheck b o).2 := by
  have hinit := formatsOk_fccInit b o
  unfold beforeCheck at hok ⊢
  dsimp only at hok ⊢
  split at hok
  · rename_i hfail
    exact absurd hok hfail
  rename_i hgo
  rw [if_neg hgo]
  split at hok
  · rename_i hreset
    rw [if_pos hreset]
    split at hok
    · rename_i hfail
      exact absurd hok hfail
    · rename_i hdone
      rw [if_neg hdone]
      exact formatsOk_sotpInit (formatsOk_resetStorage hinit (not_not.mp hdone)) o.sotpReset
  · rename_i hreset
    rw [if_neg hreset]
    exact hinit

theorem formatsOk_recover (h : FormatsOk calls) {o : App.Outcomes} (hok : (recover b o calls).1 = false) :
    FormatsOk (recover b o calls).2 := by
  unfold recover at hok ⊢
  dsimp only at hok ⊢
  split at hok
  · cases hok
  rename_i hauto
  split at hok
  · cases hok
  rename_i hformat
  split at hok
  · cases hok
  rename_i hreset
  split at hok
  · cases hok
  rename_i hsotp
  rw [if_neg hauto, if_neg hformat, if_neg hreset, if_neg hsotp]
  have hzero : FormatsOk [.reformatStorage o.reformat] := by simpa [FormatsOk] using hformat
  exact formatsOk_verify (formatsOk_sotpInit (formatsOk_resetStorage (h.append hzero) (not_not.mp hreset)) o.sotpAgain)
    o.checkAgain

/-- **A start-up that succeeds has seen no format fail.** -/
theorem formatsOk_start {o : App.Outcomes} (hok : (applicationInitFcc b o).1 = false) :
    FormatsOk (applicationInitFcc b o).2 := by
  unfold applicationInitFcc at hok ⊢
  dsimp only at hok ⊢
  split at hok
  · cases hok
  rename_i hbefore
  rw [if_neg hbefore]
  have hcheck := formatsOk_verify (b := b) (formatsOk_beforeCheck (not_not.mp hbefore)) o.check
  split at hok
  · rename_i hfails
    rw [if_pos hfails]
    exact formatsOk_recover hcheck hok
  · rename_i hgood
    rw [if_neg hgood]
    exact hcheck

/-- What it has verified. -/
theorem complete_start {o : App.Outcomes} (hok : (applicationInitFcc b o).1 = false) :
    App.Complete b (applicationInitFcc b o).2 := by
  unfold applicationInitFcc at hok ⊢
  dsimp only at hok ⊢
  split at hok
  · cases hok
  rename_i hbefore
  rw [if_neg hbefore]
  split at hok
  · rename_i hfails
    rw [if_pos hfails]
    exact (App.recover_spec b o _).2 hok
  · rename_i hgood
    rw [if_neg hgood]
    obtain ⟨s, calls, hsotp, hsame⟩ := (App.beforeCheck_spec b o).2 (not_not.mp hbefore)
    rw [← hsame] at hgood ⊢
    exact App.complete_of_check hsotp (Bool.eq_false_iff.mpr hgood)

end Formats

/-! ## The start-up of the program -/

/-- The storage when `mcc_platform_storage_init` has been called for the first time. -/
def afterStorageInit (cfg : Config) (c : Platform.Call cfg) : BootLog :=
  ⟨(storageInit cfg c.outcomes .fresh).2, (storageInit cfg c.outcomes .fresh).2.trace⟩

/-- A start-up of the device: how it is compiled, how its initialisations end, and the calls of `application_init_fcc`, which
are answered by the storage once that is initialised. -/
structure Boot where
  cfg : Config
  build : Build
  /-- `mbed_trace_helper_create_mutex` succeeds. -/
  mutex : Bool
  storage : Platform.Call cfg
  /-- `mcc_platform_init_button_and_led` returns 0. -/
  buttonAndLed : Bool
  fcc : App.Outcomes
  served : List ServedCall
  /-- The storage at the end of `application_init_fcc`. -/
  ends : BootLog
  calls : served.map ServedCall.call = (applicationInitFcc build fcc).2
  serves : (storageInit cfg storage.outcomes .fresh).1 = some 0 →
    run (serve cfg) (afterStorageInit cfg storage) served = some ends

/-- Whether the call succeeds. `mcc_platform_init` does nothing. -/
def Boot.result (B : Boot) : InitCall → Bool
  | .trace => B.mutex
  | .storage => (storageInit B.cfg B.storage.outcomes .fresh).1 = some 0
  | .platform => true
  | .application => B.buttonAndLed && !(applicationInitFcc B.build B.fcc).1

/-- The device is ready: its file systems are mounted, and its configuration is verified and complete. -/
structure Boot.Started (B : Boot) : Prop where
  mounted : ∀ v, B.cfg.layout.Configured v → MountedOn v (B.cfg.layout.device v) B.ends.history
  complete : App.Complete B.build (applicationInitFcc B.build B.fcc).2

theorem mounted_afterStorageInit {cfg : Config} (c : Platform.Call cfg) (hok : (storageInit cfg c.outcomes .fresh).1 = some 0) :
    Mounted cfg (afterStorageInit cfg c) := by
  have hstart : Honest cfg .start := ⟨fun h => (by cases h), by simp [CallLog.start, Storage.fresh], fun h => absurd rfl h⟩
  have hparts : OwnPartsIn cfg Storage.fresh := fun _ _ _ => ⟨fun _ => Or.inl rfl, fun _ hfs => by cases hfs⟩
  have hready : Platform.Ready cfg .fresh := fun hdone => by cases hdone
  obtain ⟨hhonest, hown⟩ := honest_storageInit hstart hparts rfl c
  exact ⟨hhonest.mounted hok, (ready_storageInit c.outcomes hready).2 hok, hown⟩

/-- **A start-up whose storage and whose application are initialised leaves the device ready.** -/
theorem Boot.started (B : Boot) (hstorage : B.result .storage = true) (happlication : B.result .application = true) :
    B.Started := by
  have hok : (storageInit B.cfg B.storage.outcomes .fresh).1 = some 0 := of_decide_eq_true hstorage
  have hfcc : (applicationInitFcc B.build B.fcc).1 = false := by
    have hboth := (Bool.and_eq_true _ _).mp happlication
    simpa using hboth.2
  have hformats : ∀ status, .reformatStorage status ∈ B.served.map ServedCall.call → status = 0 := by
    rw [B.calls]
    exact formatsOk_start hfcc
  exact ⟨(mounted_run (mounted_afterStorageInit B.storage hok) hformats (B.serves hok)).mounted, complete_start hfcc⟩

section Program

variable {lib : RequestLibrary DataType} {fmt : ValueFormat} {cb : Callbacks} {capacity : Nat} {as : List ProgramAct}
  {s t : Program}

def twoPartitions : Config := App.withLayout (.on true true)

end Program

end PelionClient.Main
