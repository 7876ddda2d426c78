import PelionClient.Platform.Setup

/-!
# What a successful storage initialisation leaves

A call of `mcc_platform_storage_init` that returns 0 leaves an object for every configured file system: it has mounted them
all, or finds `init_done` set by a call that has (`ready_storageInit`). So it is after any number of calls (`ready_run`,
`fs_of_leftByInit`). What repartitioning can do is said once, in `createPartitions_cases`.
-/

namespace PelionClient.Platform

open Lib

/-- The file systems of a layout. -/
def Layout.Configured (layout : Layout) : Volume → Prop
  | .primary => True
  | .secondary => ∃ auto, layout = .on true auto

theorem Layout.forall_off {P : Volume → Prop} : (∀ v, Layout.off.Configured v → P v) ↔ P .primary := by
  constructor
  · exact fun h => h .primary trivial
  · intro h v hv
    cases v with
    | primary => exact h
    | secondary =>
      obtain ⟨auto, hon⟩ := hv
      cases hon

theorem Layout.forall_on {P : Volume → Prop} {two auto : Bool} :
    (∀ v, (Layout.on two auto).Configured v → P v) ↔ P .primary ∧ (two = true → P .secondary) := by
  constructor
  · intro h
    refine ⟨h .primary trivial, ?_⟩
    rintro rfl
    exact h .secondary ⟨auto, rfl⟩
  · rintro ⟨hprimary, hsecondary⟩ v hv
    cases v with
    | primary => exact hprimary
    | secondary =>
      obtain ⟨auto', hon⟩ := hv
      injection hon with htwo _
      exact hsecondary htwo

/-! ## Init-and-mount -/

section Pieces

variable {cfg : Config} {two auto : Bool} {v w : Volume} {s : Storage}

theorem init_of_status {o : MountOutcomes} {fsExists : Bool} (h : o.status fsExists = 0) : o.init = 0 := by
  by_contra hi
  rw [MountOutcomes.status, if_pos hi] at h
  exact hi h

theorem initAndMountPartition_fs (v w : Volume) (o : MountOutcomes) (s : Storage) :
    (initAndMountPartition v o s).2.fs w = ((decide (w = v) && decide (o.init = 0)) || s.fs w) := by
  obtain ⟨ops, h⟩ := initAndMountPartition_state v o s
  rw [h]

theorem initAndMountPartition_size (v : Volume) (o : MountOutcomes) (s : Storage) :
    (initAndMountPartition v o s).2.size = s.size := by
  obtain ⟨ops, h⟩ := initAndMountPartition_state v o s
  rw [h]

/-- What the code that mounts and repartitions keeps: the flag, and the file systems there are. -/
structure Extends (s t : Storage) : Prop where
  initDone : t.initDone = s.initDone
  fs : ∀ w, s.fs w = true → t.fs w = true

theorem Extends.trans {t u : Storage} (h : Extends s t) (h' : Extends t u) : Extends s u :=
  ⟨h'.initDone.trans h.initDone, fun w hw => h'.fs w (h.fs w hw)⟩

theorem Extends.op {t : Storage} (h : Extends s t) (x : Op) : Extends s (t.op x) := ⟨h.initDone, h.fs⟩

theorem extends_initAndMountPartition (v : Volume) (o : MountOutcomes) (s : Storage) :
    Extends s (initAndMountPartition v o s).2 := by
  obtain ⟨ops, h⟩ := initAndMountPartition_state v o s
  rw [h]
  refine ⟨rfl, fun w hw => ?_⟩
  simp [hw]

/-- A partition that is mounted has a file system. -/
theorem fs_initAndMountPartition {o : MountOutcomes} (h : (initAndMountPartition v o s).1 = 0) :
    (initAndMountPartition v o s).2.fs v = true := by
  rw [initAndMountPartition_status] at h
  simp [initAndMountPartition_fs, init_of_status h]

/-! ## Repartitioning -/

/-- The first partition is rewritten. -/
def CreateOutcomes.Rewrites1 (o : CreateOutcomes) (cfg : Config) (size : UInt64) : Prop :=
  ¬(cfg.asserts = true ∧ size < cfg.primarySize.toUInt64) ∧ o.partition1 = 0

/-- The first partition is rewritten and mounted, and the second rewritten. -/
def CreateOutcomes.Rewrites2 (o : CreateOutcomes) (cfg : Config) (two : Bool) (size : UInt64) (fs1 : Bool) : Prop :=
  o.Rewrites1 cfg size ∧ o.mount1.status fs1 = 0 ∧ two = true ∧
    ¬(cfg.asserts = true ∧ size < cfg.primarySize.toUInt64 + cfg.secondarySize.toUInt64) ∧ o.partition2 = 0

/-- The state after the first partition is rewritten and mounted. -/
def rewritten1 (cfg : Config) (o : CreateOutcomes) (s : Storage) : Storage :=
  (initAndMountPartition .primary o.mount1
    (s.op (.partition .primary (cfg.start .primary) (cfg.stop .primary) o.partition1))).2

/-- The same of the second. -/
def rewritten2 (cfg : Config) (o : CreateOutcomes) (s : Storage) : Storage :=
  (initAndMountPartition .secondary o.mount2 ((rewritten1 cfg o s).op
    (.partition .secondary (cfg.start .secondary) (cfg.stop .secondary) o.partition2))).2

/-- `t` is `s`, but for an attempt to write a table entry, or a halt. -/
def UpToEntry (s t : Storage) : Prop :=
  t = s ∨ t = { s with halted := true } ∨ ∃ v a b status, t = s.op (.partition v a b status)

theorem UpToEntry.extends {t : Storage} (h : UpToEntry s t) : Extends s t := by
  rcases h with rfl | rfl | ⟨v, a, b, status, rfl⟩ <;> exact ⟨rfl, fun _ hw => hw⟩

/-- **How far repartitioning gets**: not to the first mount, not to the second, or to its end. Short of its end it succeeds
only if there is one partition. -/
theorem createPartitions_cases (cfg : Config) (two : Bool) (o : CreateOutcomes) (s : Storage) :
    (¬o.Rewrites1 cfg s.size ∧ (createPartitions cfg two o s).1 ≠ some 0 ∧
      UpToEntry s (createPartitions cfg two o s).2) ∨
    (o.Rewrites1 cfg s.size ∧ ¬o.Rewrites2 cfg two s.size (s.fs .primary) ∧
      ((createPartitions cfg two o s).1 = some 0 → o.mount1.status (s.fs .primary) = 0 ∧ two = false ∧
        (createPartitions cfg two o s).2 = rewritten1 cfg o s) ∧
      UpToEntry (rewritten1 cfg o s) (createPartitions cfg two o s).2) ∨
    (o.Rewrites2 cfg two s.size (s.fs .primary) ∧ createPartitions cfg two o s =
      (some (o.mount2.status ((rewritten1 cfg o s).fs .secondary)), rewritten2 cfg o s)) := by
  have hsize : (rewritten1 cfg o s).size = s.size := initAndMountPartition_size _ _ _
  have hstatus : (initAndMountPartition .primary o.mount1 (s.op
      (.partition .primary (cfg.start .primary) (cfg.stop .primary) o.partition1))).1 =
      o.mount1.status (s.fs .primary) := initAndMountPartition_status _ _ _
  unfold createPartitions CreateOutcomes.Rewrites2
  by_cases hbig : cfg.asserts = true ∧ s.size < cfg.primarySize.toUInt64
  · refine Or.inl ⟨fun h => h.1 hbig, ?_⟩
    rw [if_pos hbig]
    exact ⟨by simp, Or.inr (Or.inl rfl)⟩
  by_cases hone : o.partition1 = 0
  swap
  · refine Or.inl ⟨fun h => hone h.2, ?_⟩
    simp only [if_neg hbig, if_pos hone]
    exact ⟨by simpa using hone, Or.inr (Or.inr ⟨_, _, _, _, rfl⟩)⟩
  have hrewrites : o.Rewrites1 cfg s.size := ⟨hbig, hone⟩
  simp only [if_neg hbig, if_neg (not_not_intro hone), hstatus]
  right
  by_cases hmount : o.mount1.status (s.fs .primary) = 0
  swap
  · refine Or.inl ⟨hrewrites, fun h => hmount h.2.1, ?_⟩
    rw [if_pos hmount]
    exact ⟨fun h => absurd (Option.some.inj h) hmount, Or.inl rfl⟩
  rw [if_neg (not_not_intro hmount)]
  cases two with
  | false =>
    rw [if_pos rfl]
    exact Or.inl ⟨hrewrites, fun h => (nomatch h.2.2.1), fun _ => ⟨hmount, rfl, rfl⟩, Or.inl rfl⟩
  | true =>
    rw [if_neg (by simp)]
    by_cases hbig2 : cfg.asserts = true ∧ s.size < cfg.primarySize.toUInt64 + cfg.secondarySize.toUInt64
    · refine Or.inl ⟨hrewrites, fun h => h.2.2.2.1 hbig2, ?_⟩
      rw [if_pos ⟨hbig2.1, by rw [← hsize] at hbig2; exact hbig2.2⟩]
      exact ⟨fun h => (nomatch h), Or.inr (Or.inl rfl)⟩
    · rw [if_neg fun h => hbig2 ⟨h.1, by rw [← hsize]; exact h.2⟩]
      by_cases htwo : o.partition2 = 0
      · refine Or.inr ⟨⟨hrewrites, hmount, rfl, hbig2, htwo⟩, ?_⟩
        rw [if_neg (not_not_intro htwo), initAndMountPartition_status]
        rfl
      · refine Or.inl ⟨hrewrites, fun h => htwo h.2.2.2.2, ?_⟩
        rw [if_pos htwo]
        exact ⟨fun h => absurd (Option.some.inj h) htwo, Or.inr (Or.inr ⟨_, _, _, _, rfl⟩)⟩

theorem extends_rewritten1 (o : CreateOutcomes) : Extends s (rewritten1 cfg o s) := by
  have h := extends_initAndMountPartition .primary o.mount1
    (s.op (.partition .primary (cfg.start .primary) (cfg.stop .primary) o.partition1))
  exact ⟨h.initDone, h.fs⟩

theorem extends_rewritten2 (o : CreateOutcomes) : Extends (rewritten1 cfg o s) (rewritten2 cfg o s) := by
  have h := extends_initAndMountPartition .secondary o.mount2 ((rewritten1 cfg o s).op
    (.partition .secondary (cfg.start .secondary) (cfg.stop .secondary) o.partition2))
  exact ⟨h.initDone, h.fs⟩

theorem extends_createPartitions (o : CreateOutcomes) : Extends s (createPartitions cfg two o s).2 := by
  rcases createPartitions_cases cfg two o s with ⟨_, _, h⟩ | ⟨_, _, _, h⟩ | ⟨_, h⟩
  · exact h.extends
  · exact (extends_rewritten1 o).trans h.extends
  · rw [h]
    exact (extends_rewritten1 o).trans (extends_rewritten2 o)

/-- The first partition is there once it is mounted. -/
theorem fs_rewritten1 {o : CreateOutcomes} (h : o.mount1.status (s.fs .primary) = 0) :
    (rewritten1 cfg o s).fs .primary = true := by
  apply fs_initAndMountPartition
  rw [initAndMountPartition_status]
  exact h

/-- A repartitioned storage has all file systems. -/
theorem fs_createPartitions {o : CreateOutcomes} (h : (createPartitions cfg two o s).1 = some 0) :
    (createPartitions cfg two o s).2.fs .primary = true ∧
      (two = true → (createPartitions cfg two o s).2.fs .secondary = true) := by
  rcases createPartitions_cases cfg two o s with ⟨_, hfail, _⟩ | ⟨_, _, hone, hsame⟩ | ⟨hyes, hend⟩
  · exact absurd h hfail
  · obtain ⟨hmount, hfalse, _⟩ := hone h
    refine ⟨hsame.extends.fs _ (fs_rewritten1 hmount), fun htwo => ?_⟩
    rw [hfalse] at htwo
    cases htwo
  · rw [hend] at h ⊢
    refine ⟨(extends_rewritten2 o).fs _ (fs_rewritten1 hyes.2.1), fun _ => ?_⟩
    apply fs_initAndMountPartition
    rw [initAndMountPartition_status]
    exact Option.some.inj h

theorem mountOrCreate_eq (v : Volume) (o : MountOutcomes) (o' : CreateOutcomes) :
    mountOrCreate cfg two auto v o o' s =
      if o.status (s.fs v) = 0 then (some 0, (initAndMountPartition v o s).2)
      else if auto then createPartitions cfg two o' (initAndMountPartition v o s).2
      else (some (o.status (s.fs v)), (initAndMountPartition v o s).2) := by
  unfold mountOrCreate
  simp only [initAndMountPartition_status]
  by_cases hst : o.status (s.fs v) = 0
  · rw [if_neg (not_not_intro hst), if_pos hst, hst]
  · rw [if_pos hst, if_neg hst]

theorem extends_mountOrCreate (o : MountOutcomes) (o' : CreateOutcomes) :
    Extends s (mountOrCreate cfg two auto v o o' s).2 := by
  have h := extends_initAndMountPartition v o s
  rw [mountOrCreate_eq]
  split
  · exact h
  split
  · exact h.trans (extends_createPartitions o')
  · exact h

theorem fs_mountOrCreate {o : MountOutcomes} {o' : CreateOutcomes} (hv : v = .secondary → two = true)
    (h : (mountOrCreate cfg two auto v o o' s).1 = some 0) : (mountOrCreate cfg two auto v o o' s).2.fs v = true := by
  rw [mountOrCreate_eq] at h ⊢
  by_cases hmount : o.status (s.fs v) = 0
  · rw [if_pos hmount]
    apply fs_initAndMountPartition
    rw [initAndMountPartition_status]
    exact hmount
  · rw [if_neg hmount] at h ⊢
    cases auto with
    | false => exact absurd (Option.some.inj h) hmount
    | true =>
      obtain ⟨hprimary, hsecondary⟩ := fs_createPartitions h
      cases v with
      | primary => exact hprimary
      | secondary => exact hsecondary (hv rfl)

/-! ## One call -/

/-- A call that goes through all partitions has set the flag and has all file systems; a call that does not keeps the
flag. -/
theorem mountPartitions_done (o : Outcomes) :
    ((mountPartitions cfg two auto o s).1 = some 0 ∧ (mountPartitions cfg two auto o s).2.fs .primary = true ∧
      (two = true → (mountPartitions cfg two auto o s).2.fs .secondary = true)) ∨
    ((mountPartitions cfg two auto o s).1 ≠ some 0 ∧ (mountPartitions cfg two auto o s).2.initDone = s.initDone) := by
  have h1 := @extends_mountOrCreate cfg two auto .primary s o.mount1 o.create1
  unfold mountPartitions
  dsimp only
  split
  · rename_i hfail
    exact Or.inr ⟨hfail, h1.initDone⟩
  rename_i hok
  have hok1 := not_not.mp hok
  have hprimary := fs_mountOrCreate (by simp) hok1
  cases two with
  | false => exact Or.inl ⟨hok1, hprimary, fun h => (nomatch h)⟩
  | true =>
    rw [if_pos rfl]
    have h2 := @extends_mountOrCreate cfg true auto .secondary
      (mountOrCreate cfg true auto .primary o.mount1 o.create1 s).2 o.mount2 o.create2
    split
    · rename_i hfail
      exact Or.inr ⟨hfail, h2.initDone.trans h1.initDone⟩
    · rename_i hok'
      have hok2 := not_not.mp hok'
      exact Or.inl ⟨hok2, h2.fs _ hprimary, fun _ => fs_mountOrCreate (fun _ => rfl) hok2⟩

theorem takeDefault_fs (s : Storage) (construct : Int) : (s.takeDefault construct).fs .primary = true := by
  unfold Storage.takeDefault
  dsimp only
  split
  · simp [Storage.newFs]
  · rename_i hfs
    simpa using hfs

theorem takeDefault_initDone (s : Storage) (construct : Int) : (s.takeDefault construct).initDone = s.initDone := by
  unfold Storage.takeDefault
  dsimp only
  split <;> rfl

theorem mountDefault_done (o : Outcomes) :
    ((mountDefault o s).1 = some 0 ∧ (mountDefault o s).2.fs .primary = true) ∨
    ((mountDefault o s).1 ≠ some 0 ∧ (mountDefault o s).2.initDone = s.initDone) := by
  obtain ⟨ops, h⟩ := testAndFormat_state .primary s.device o.mount1 (s.takeDefault o.mount1.construct)
  unfold mountDefault
  dsimp only
  split
  · exact Or.inr ⟨fun hnone => (nomatch hnone), rfl⟩
  split
  · rename_i hfail
    refine Or.inr ⟨fun hzero => hfail (Option.some.inj hzero), ?_⟩
    rw [h]
    exact takeDefault_initDone s o.mount1.construct
  · rename_i hok
    refine Or.inl ⟨congrArg some (not_not.mp hok), ?_⟩
    rw [h]
    exact takeDefault_fs s o.mount1.construct

theorem mountAll_done (o : Outcomes) :
    ((mountAll cfg o s).1 = some 0 ∧ ∀ v, cfg.layout.Configured v → (mountAll cfg o s).2.fs v = true) ∨
    ((mountAll cfg o s).1 ≠ some 0 ∧ (mountAll cfg o s).2.initDone = s.initDone) := by
  unfold mountAll
  cases hlayout : cfg.layout with
  | off =>
    rcases @mountDefault_done s o with ⟨hok, hfs⟩ | hfail
    · exact Or.inl ⟨hok, Layout.forall_off.mpr hfs⟩
    · exact Or.inr hfail
  | on two auto =>
    rcases @mountPartitions_done cfg two auto s o with ⟨hok, hprimary, hsecondary⟩ | hfail
    · exact Or.inl ⟨hok, Layout.forall_on.mpr ⟨hprimary, hsecondary⟩⟩
    · exact Or.inr hfail

end Pieces

/-- Once `init_done` is set, every configured file system exists. -/
def Ready (cfg : Config) (s : Storage) : Prop := s.initDone = true → ∀ v, cfg.layout.Configured v → s.fs v = true

/-- **A call keeps the storage ready, and if it returns 0 every configured file system exists.** -/
theorem ready_storageInit {cfg : Config} {s : Storage} (o : Outcomes) (h : Ready cfg s) :
    Ready cfg (storageInit cfg o s).2 ∧
      ((storageInit cfg o s).1 = some 0 → ∀ v, cfg.layout.Configured v → (storageInit cfg o s).2.fs v = true) := by
  have hall : ∀ t : Storage, t.initDone = false → Ready cfg (mountAll cfg o t).2 ∧
      ((mountAll cfg o t).1 = some 0 → ∀ v, cfg.layout.Configured v → (mountAll cfg o t).2.fs v = true) := by
    intro t ht
    rcases @mountAll_done cfg t o with ⟨hok, hfs⟩ | ⟨hfail, hdone⟩
    · exact ⟨fun _ => hfs, fun _ => hfs⟩
    · refine ⟨fun htrue => ?_, fun hok => absurd hok hfail⟩
      rw [hdone, ht] at htrue
      cases htrue
  unfold storageInit
  dsimp only
  split
  · rename_i hdone
    exact ⟨h, fun _ => h hdone⟩
  · rename_i hdone
    have hfalse : s.initDone = false := Bool.eq_false_iff.mpr hdone
    split
    · split
      · refine ⟨fun htrue => ?_, fun hok => ?_⟩
        · rw [hfalse] at hdone
          exact absurd htrue (by simp [Storage.op, hfalse])
        · exact absurd (Option.some.inj hok) (by decide)
      · exact hall _ hfalse
    · exact hall _ hfalse

/-- **Every run of calls keeps the storage ready.** -/
theorem ready_run {cfg : Config} {os : List Outcomes} {s : Storage} (h : run (step cfg) .fresh os = some s) :
    Ready cfg s := by
  refine run_invariant (Ready cfg) (fun hdone => absurd hdone (by decide)) (fun t o u ht hu => ?_) h
  unfold step at hu
  split at hu
  · cases hu
  · cases hu
    exact (ready_storageInit o ht).1

/-- `s` is a state that a call of `mcc_platform_storage_init` leaves that returns 0, with a block device present. -/
def LeftByInit (cfg : Config) (s : Storage) : Prop :=
  ∃ os o t, run (step cfg) .fresh os = some t ∧ storageInit cfg o t = (some 0, s) ∧ s.bd = true

/-- **A successful call leaves every configured file system.** -/
theorem fs_of_leftByInit {cfg : Config} {s : Storage} (h : LeftByInit cfg s) (v : Volume)
    (hv : cfg.layout.Configured v) : s.fs v = true := by
  obtain ⟨os, o, t, hrun, hcall, _⟩ := h
  have hready := (ready_storageInit o (ready_run hrun)).2
  rw [hcall] at hready
  exact hready rfl v hv

end PelionClient.Platform
