import PelionClient.App.Fcc
import PelionClient.Platform.Reformat

/-!
# Whether a device recovers its configuration

When the first check of the cloud configuration fails, `application_init_fcc` reformats the storage and goes on only if
`mcc_platform_reformat_storage` returns 0. That function is right about what it has formatted (`reformatStorage_iff`), but
with the partition mode off it formats nothing, so that the recovery cannot succeed; in the other layouts it does
(`autoRecovery_iff`).
-/

namespace PelionClient.App

open Platform

/-- The first check is reached and fails. -/
def FirstCheckFails (b : Build) (o : Outcomes) : Prop := (beforeCheck b o).1 = 0 ∧ o.check.verify ≠ 0

/-- Every call after it succeeds. `mcc_platform_reformat_storage` returns what it does when the file systems format. -/
structure LaterCallsSucceed (cfg : Config) (s : Storage) (o : Outcomes) : Prop where
  reformat : some o.reformat = (reformatStorage cfg 0 0 s).1
  storageDelete : o.resetAgain.storageDelete = 0
  entropySet : o.sotpAgain.entropySet = 0
  rotSet : o.sotpAgain.rotSet = 0
  verify : o.checkAgain.verify = 0

/-- A device whose first check fails starts if every later call succeeds. -/
def AutoRecovers (cfg : Config) (s : Storage) (b : Build) : Prop :=
  ∀ o, FirstCheckFails b o → LaterCallsSucceed cfg s o → (applicationInitFcc b o).1 = false

/-- `mcc_platform_reformat_storage` returns 0 exactly if it has formatted every configured file system. -/
def ReportsReformat (cfg : Config) (s : Storage) : Prop :=
  ∀ status1 status2, (reformatStorage cfg status1 status2 s).1 = some 0 ↔
    AllReformatted cfg.layout (reformatStorage cfg status1 status2 s).2.trace

section Recovery

variable {cfg : Config} {s : Storage} {b : Build} {o : Outcomes}

/-- After a failed first check the result is that of the recovery. -/
theorem applicationInitFcc_recover (h : FirstCheckFails b o) :
    (applicationInitFcc b o).1 = (recover b o (verifyCloudConfiguration b o.check (beforeCheck b o).2).2).1 := by
  obtain ⟨hbefore, hverify⟩ := h
  have hfails : (verifyCloudConfiguration b o.check (beforeCheck b o).2).1 = true := decide_eq_true hverify
  unfold applicationInitFcc
  dsimp only
  rw [if_neg (not_not_intro hbefore), if_pos hfails]

/-- The recovery succeeds if the reformat and every later call do. -/
theorem recover_ok (calls : List Call) (hformat : b.noAutoFormat = false) (hreformat : o.reformat = 0)
    (h : LaterCallsSucceed cfg s o) : (recover b o calls).1 = false := by
  have hreset := @resetStorage_ok b o.resetAgain (calls ++ [.reformatStorage o.reformat]) h.storageDelete
  have hsotp := @sotpInit_ok b o.sotpAgain (resetStorage b o.resetAgain (calls ++ [.reformatStorage o.reformat])).2
    (Or.inl h.entropySet) (Or.inl h.rotSet)
  unfold recover
  dsimp only
  rw [if_neg (by simp [hformat]), if_neg (not_not_intro hreformat), if_neg (not_not_intro hreset),
    if_neg (not_not_intro hsotp)]
  exact decide_eq_false (not_not_intro h.verify)

theorem recover_fails (calls : List Call) (h : b.noAutoFormat = true ∨ o.reformat ≠ 0) :
    (recover b o calls).1 = true := by
  unfold recover
  dsimp only
  split
  · rfl
  · rename_i hformat
    rw [if_pos (h.resolve_left hformat)]

/-- The formats succeed and the layout has partitions: `mcc_platform_reformat_storage` returns 0. -/
theorem reformatStorage_zero {two auto : Bool} (hlayout : cfg.layout = .on two auto) (hbd : s.bd = true)
    (hfs : ∀ v, cfg.layout.Configured v → s.fs v = true) : (reformatStorage cfg 0 0 s).1 = some 0 := by
  have hcases := reformatStorage_on 0 0 hlayout hbd hfs
  split at hcases
  · exact hcases.1
  · exact hcases.1

/-- Statuses of a start-up whose first check fails and where nothing else does, with what the reformat returns. -/
def firstCheckFailed (reformat : Int) : Outcomes :=
  ⟨0, ⟨0, 0⟩, ⟨0, 0, 0⟩, ⟨0, 0⟩, ⟨0, 1⟩, reformat, ⟨0, 0, 0⟩, ⟨0, 0⟩, ⟨0, 0⟩⟩

theorem firstCheckFailed_fails (b : Build) (reformat : Int) : FirstCheckFails b (firstCheckFailed reformat) := by
  refine ⟨?_, Int.one_ne_zero⟩
  have hsotp : ∀ calls, (sotpInit b ⟨0, 0⟩ calls).1 = 0 := fun calls => sotpInit_ok calls (Or.inl rfl) (Or.inl rfl)
  cases hreset : b.resetStorage <;> simp [beforeCheck, fccInit, firstCheckFailed, resetStorage, hreset, hsotp]

/-- **The recovery works exactly in the layouts with partitions**, unless it is compiled out. -/
theorem autoRecovery_iff (h : LeftByInit cfg s) :
    ReportsReformat cfg s ∧ AutoRecovers cfg s b ↔ cfg.layout ≠ .off ∧ b.noAutoFormat = false := by
  have hbd : s.bd = true := by
    obtain ⟨_, _, _, _, _, hbd⟩ := h
    exact hbd
  have hfs := fs_of_leftByInit h
  have hfail : ∀ reformat, (reformatStorage cfg 0 0 s).1 = some reformat → b.noAutoFormat = true ∨ reformat ≠ 0 →
      ¬AutoRecovers cfg s b := by
    intro reformat hstatus hor hrecovers
    have hfirst := firstCheckFailed_fails b reformat
    have hfalse := hrecovers (firstCheckFailed reformat) hfirst ⟨hstatus.symm, rfl, rfl, rfl, rfl⟩
    rw [applicationInitFcc_recover hfirst, recover_fails _ hor] at hfalse
    cases hfalse
  constructor
  · rintro ⟨_, hrecovers⟩
    cases hlayout : cfg.layout with
    | off => exact absurd hrecovers (hfail (-1) (reformatStorage_off 0 0 hlayout).1 (Or.inr (by decide)))
    | on two auto =>
      refine ⟨fun hoff => (nomatch hoff), ?_⟩
      by_contra hformat
      rw [Bool.not_eq_false] at hformat
      exact hfail 0 (reformatStorage_zero hlayout hbd hfs) (Or.inl hformat) hrecovers
  · rintro ⟨hlayout, hformat⟩
    refine ⟨fun status1 status2 => reformatStorage_iff status1 status2 hbd hfs, fun o hfirst hlater => ?_⟩
    rw [applicationInitFcc_recover hfirst]
    have hreformat : o.reformat = 0 := by
      have hstatus := hlater.reformat
      cases hon : cfg.layout with
      | off => exact absurd hon hlayout
      | on two auto =>
        rw [reformatStorage_zero hon hbd hfs] at hstatus
        exact Option.some.inj hstatus
    exact recover_ok _ hformat hreformat hlater

end Recovery

/-! ## Two layouts -/

/-- Nothing fails when the storage is initialised. -/
def mountsAll : Platform.Outcomes :=
  ⟨true, 0, 4294967296, true, ⟨0, 0, 0, 0, 0, 0⟩, ⟨0, ⟨0, 0, 0, 0, 0, 0⟩, 0, ⟨0, 0, 0, 0, 0, 0⟩⟩, ⟨0, 0, 0, 0, 0, 0⟩,
    ⟨0, ⟨0, 0, 0, 0, 0, 0⟩, 0, ⟨0, 0, 0, 0, 0, 0⟩⟩⟩

def withLayout (layout : Layout) : Config := .ofLayout layout true

/-- A developer build with auto-format. -/
def developerBuild : Build := ⟨true, true, false, false, false, true, 8, 7⟩

theorem leftByInit_mountsAll (layout : Layout) :
    LeftByInit (withLayout layout) (storageInit (withLayout layout) mountsAll .fresh).2 := by
  refine ⟨[], mountsAll, .fresh, rfl, ?_, ?_⟩
  · cases layout with
    | off => rfl
    | on two auto => cases two <;> cases auto <;> rfl
  · cases layout with
    | off => rfl
    | on two auto => cases two <;> cases auto <;> rfl

theorem autoRecovers_two_partitions : AutoRecovers (withLayout (.on true true))
    (storageInit (withLayout (.on true true)) mountsAll .fresh).2 developerBuild :=
  ((autoRecovery_iff (leftByInit_mountsAll (.on true true))).mpr ⟨by decide, rfl⟩).2

/-- With the partition mode off, the reformat returns -1 although nothing fails, and the start-up with it. -/
theorem not_autoRecovers_off : LeftByInit (withLayout .off) (storageInit (withLayout .off) mountsAll .fresh).2 ∧
    FirstCheckFails developerBuild (firstCheckFailed (-1)) ∧
    LaterCallsSucceed (withLayout .off) (storageInit (withLayout .off) mountsAll .fresh).2 (firstCheckFailed (-1)) ∧
    (applicationInitFcc developerBuild (firstCheckFailed (-1))).1 = true := by
  refine ⟨leftByInit_mountsAll .off, firstCheckFailed_fails developerBuild (-1), ?_, by decide⟩
  exact ⟨rfl, rfl, rfl, rfl, rfl⟩

end PelionClient.App
