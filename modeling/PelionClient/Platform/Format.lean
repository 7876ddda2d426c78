import PelionClient.Platform.Mounted

/-!
# What storage initialisation formats

A partition may be formatted if the call has seen it broken (`Suspect`): a mount of it has failed, or its own init-and-mount
has, and its table entry was rewritten after that. A call formats a partition that is not suspect on three ways: the file
system of the partition exists already (the call is a retry, or repartitions the storage for the other partition), so that
init-and-mount formats it without a test; or the test of a mounted file system fails to unmount it.

What each piece of code on one partition does is an `Effect`: when its formats are all of a suspect, whether it makes the
partition suspect, and whether it leaves a failed init-and-mount in the trace.
-/

namespace PelionClient.Platform

open Lib

/-- An attempt to mount `v` that has failed. -/
def Op.IsFailedMount (v : Volume) : Op → Prop
  | .construct w _ status => w = v ∧ status ≠ 0
  | .mount w _ status => w = v ∧ status ≠ 0
  | _ => False

/-- A failed init-and-mount of `v`. -/
def Op.IsFailedInit (v : Volume) : Op → Prop
  | .initAndMount w status => w = v ∧ status ≠ 0
  | _ => False

/-- The table entry of `v` is rewritten. -/
def Op.IsRewrite (v : Volume) : Op → Prop
  | .partition w _ _ _ => w = v
  | _ => False

/-- An operation on `v` that neither formats it nor rewrites its table entry. -/
def Op.IsOn (v : Volume) : Op → Prop
  | .partInit w _ | .partDeinit w | .construct w _ _ | .unmount w _ | .mount w _ _ | .initAndMount w _ => w = v
  | _ => False

/-- An init-and-mount of `v` has failed. -/
def InitFailed (v : Volume) (ops : List Op) : Prop := ∃ x ∈ ops, x.IsFailedInit v

/-- A mount of `v` has failed, or its init-and-mount has and its table entry was rewritten then. -/
def Suspect (v : Volume) (ops : List Op) : Prop :=
  (∃ x ∈ ops, x.IsFailedMount v) ∨ FollowedBy (Op.IsFailedInit v) (Op.IsRewrite v) ops

/-- Every format is of a partition that is suspect by then. -/
def FormatsSuspects (ops : List Op) : Prop :=
  EachAfter (fun pre x => ∀ v device status, x = .reformat v device status → Suspect v pre) ops

/-! ## One operation -/

section Operations

variable {ops : List Op} {x : Op} {v : Volume}

theorem exists_mem_snoc {P : Op → Prop} : (∃ y ∈ ops ++ [x], P y) ↔ (∃ y ∈ ops, P y) ∨ P x := by
  simp only [List.mem_append, List.mem_singleton, or_and_right, exists_or, exists_eq_left]

theorem initFailed_snoc : InitFailed v (ops ++ [x]) ↔ InitFailed v ops ∨ x.IsFailedInit v := exists_mem_snoc

theorem suspect_snoc :
    Suspect v (ops ++ [x]) ↔ Suspect v ops ∨ x.IsFailedMount v ∨ (x.IsRewrite v ∧ InitFailed v ops) := by
  unfold Suspect
  rw [exists_mem_snoc, followedBy_snoc]
  exact or_or_or_comm

theorem formats_snoc : FormatsSuspects (ops ++ [x]) ↔
    FormatsSuspects ops ∧ ∀ v device status, x = .reformat v device status → Suspect v ops := eachAfter_snoc

end Operations

/-! ## One partition -/

/-- A piece of code on the partition `v` took the trace from `ops` to `ops'`: its formats are all of a suspect if `v` is one
already or `safe` holds; it makes `v` suspect if `broken` holds; it leaves a failed init-and-mount if `failed` holds. -/
structure Effect (v : Volume) (safe broken failed : Prop) (ops ops' : List Op) : Prop where
  formats : FormatsSuspects ops' ↔ FormatsSuspects ops ∧ (Suspect v ops ∨ safe)
  suspect : ∀ w, Suspect w ops' ↔ Suspect w ops ∨ (w = v ∧ broken)
  initFailed : ∀ w, InitFailed w ops' ↔ InitFailed w ops ∨ (w = v ∧ failed)

section Partition

variable {v : Volume} {device : Device} {o : MountOutcomes} {ops ops' ops'' : List Op}

/-- Effects compose. -/
theorem Effect.trans {safe safe' broken broken' failed failed' : Prop} (h : Effect v safe broken failed ops ops')
    (h' : Effect v safe' broken' failed' ops' ops'') :
    Effect v (safe ∧ (broken ∨ safe')) (broken ∨ broken') (failed ∨ failed') ops ops'' := by
  constructor
  · rw [h'.formats, h.formats, h.suspect v, and_iff_right rfl, and_assoc, or_assoc, ← or_and_left]
  · intro w
    rw [h'.suspect w, h.suspect w, or_assoc, ← and_or_left]
  · intro w
    rw [h'.initFailed w, h.initFailed w, or_assoc, ← and_or_left]

theorem Effect.congr {safe safe' broken broken' failed failed' : Prop} (h : Effect v safe broken failed ops ops')
    (hs : safe ↔ safe') (hb : broken ↔ broken') (hf : failed ↔ failed') : Effect v safe' broken' failed' ops ops' := by
  rw [← hs, ← hb, ← hf]
  exact h

/-- A format: of a suspect only if the partition is one already. -/
theorem effect_reformat (status : Int) : Effect v False False False ops (ops ++ [.reformat v device status]) := by
  constructor
  · rw [formats_snoc]
    simp
  · intro w
    rw [suspect_snoc]
    simp [Op.IsFailedMount, Op.IsRewrite]
  · intro w
    rw [initFailed_snoc]
    simp [Op.IsFailedInit]

/-- An operation on `v` other than a format of it or a rewrite of its table entry. -/
theorem effect_op {x : Op} (h : x.IsOn v) : Effect v True (x.IsFailedMount v) (x.IsFailedInit v) ops (ops ++ [x]) := by
  cases x with
  | bdInit | reformat | partition => exact h.elim
  | partInit w | partDeinit w | unmount w | construct w | mount w | initAndMount w =>
    obtain rfl : w = v := h
    constructor
    · simp [formats_snoc]
    · intro u
      simp [suspect_snoc, Op.IsFailedMount, Op.IsRewrite, eq_comm]
    · intro u
      simp [initFailed_snoc, Op.IsFailedInit, eq_comm]

/-! ### `mcc_platform_init_and_mount_partition` -/

/-- The test formats a suspect only, if unmounting does not fail; a failed mount makes the partition one. -/
theorem effect_testAndFormat (s : Storage) : Effect v (o.unmount = 0) (o.unmount = 0 ∧ o.mount ≠ 0) False s.trace
    (testAndFormat v device o s).2.trace := by
  have hunmount := @effect_op v s.trace (.unmount v o.unmount) rfl
  have hmount := hunmount.trans (@effect_op v _ (.mount v device o.mount) rfl)
  rcases testAndFormat_cases v device o s with ⟨hu, h⟩ | ⟨hu, hm, h⟩ | ⟨hu, hm, h⟩
  · rw [h]
    refine (hunmount.trans (effect_reformat o.reformat)).congr ?_ ?_ ?_ <;>
      simp [hu, Op.IsFailedMount, Op.IsFailedInit]
  · rw [h]
    refine (hmount.trans (effect_reformat o.reformat)).congr ?_ ?_ ?_ <;>
      simp [hu, hm, Op.IsFailedMount, Op.IsFailedInit]
  · rw [h]
    refine hmount.congr ?_ ?_ ?_ <;> simp [hu, hm, Op.IsFailedMount, Op.IsFailedInit]

/-- A mount of the partition fails. -/
def MountOutcomes.MountFails (o : MountOutcomes) (fsExists : Bool) : Prop :=
  o.init = 0 ∧ ((fsExists = false ∧ o.construct ≠ 0) ∨
    ((fsExists = true → o.reinit = 0) ∧ o.unmount = 0 ∧ o.mount ≠ 0))

/-- A partition that is not suspect is not formatted: the file system that exists is not formatted again, and the new one
does not fail to unmount after it was mounted. -/
def MountOutcomes.Safe (o : MountOutcomes) (fsExists : Bool) : Prop :=
  if fsExists then o.init ≠ 0 else o.init = 0 → o.construct = 0 → o.unmount = 0

/-- A new file system: the test comes after its constructor. -/
theorem effect_newFs {o : MountOutcomes} (s : Storage) :
    Effect v (o.construct = 0 → o.unmount = 0) (o.construct ≠ 0 ∨ (o.unmount = 0 ∧ o.mount ≠ 0)) False s.trace
      (testAndFormat v device o (s.newFs v device o.construct)).2.trace := by
  have hnew := @effect_op v s.trace (.construct v device o.construct) rfl
  refine (hnew.trans (effect_testAndFormat (s.newFs v device o.construct))).congr ?_ ?_ ?_
  · simp only [Op.IsFailedMount, true_and]
    tauto
  · simp [Op.IsFailedMount]
  · simp [Op.IsFailedInit]

/-- **`mcc_platform_init_and_mount_partition`**, up to its return. -/
theorem effect_initAndMount (v : Volume) (o : MountOutcomes) (s : Storage) :
    Effect v (o.Safe (s.fs v)) (o.MountFails (s.fs v)) False s.trace (initAndMount v o s).2.trace := by
  have hinit := @effect_op v s.trace (.partInit v o.init) rfl
  have hdeinit := hinit.trans (@effect_op v _ (.partDeinit v) rfl)
  have hformat := hinit.trans (@effect_reformat v (s.part v) _ o.reinit)
  unfold MountOutcomes.Safe MountOutcomes.MountFails
  rcases initAndMount_cases v o s with ⟨hi, hfs, h⟩ | ⟨hi, hfs, h⟩ | ⟨hi, hfs, h⟩ | ⟨hi, hfs, hr, h⟩ | ⟨hi, hfs, hr, h⟩
  · rw [h]
    refine hdeinit.congr ?_ ?_ ?_ <;> simp [hi, hfs, Op.IsFailedMount, Op.IsFailedInit]
  · rw [h]
    refine hdeinit.congr ?_ ?_ ?_ <;> simp [hi, hfs, Op.IsFailedMount, Op.IsFailedInit]
  · rw [h]
    refine (hinit.trans (effect_newFs ((s.newPart v).op (.partInit v o.init)))).congr ?_ ?_ ?_ <;>
      simp [hi, hfs, Op.IsFailedMount, Op.IsFailedInit]
  · rw [h]
    refine hformat.congr ?_ ?_ ?_ <;> simp [hi, hfs, hr, Op.IsFailedMount, Op.IsFailedInit]
  · rw [h]
    have htest := @effect_testAndFormat v (s.part v) o
      ((s.op (.partInit v o.init)).op (.reformat v (s.part v) o.reinit))
    refine (hformat.trans htest).congr ?_ ?_ ?_ <;>
      simp [hi, hfs, hr, Op.IsFailedMount, Op.IsFailedInit]

theorem effect_initAndMountPartition (v : Volume) (o : MountOutcomes) (s : Storage) :
    Effect v (o.Safe (s.fs v)) (o.MountFails (s.fs v)) (o.status (s.fs v) ≠ 0) s.trace
      (initAndMountPartition v o s).2.trace := by
  have hreturn := @effect_op v (initAndMount v o s).2.trace (.initAndMount v (initAndMount v o s).1) rfl
  rw [initAndMount_status] at hreturn
  simp only [initAndMountPartition, initAndMount_status]
  refine ((effect_initAndMount v o s).trans hreturn).congr ?_ ?_ ?_ <;> simp [Op.IsFailedMount, Op.IsFailedInit]

end Partition

/-! ## Repartitioning -/

section Create

variable {cfg : Config} {two auto : Bool} {s : Storage}

/-- The partition is known to be broken: it is suspect, or will be once its table entry is rewritten. -/
def Broken (v : Volume) (ops : List Op) : Prop := Suspect v ops ∨ InitFailed v ops

theorem formats_partition {ops : List Op} {v : Volume} {a b : UInt64} {status : Int} :
    FormatsSuspects (ops ++ [.partition v a b status]) ↔ FormatsSuspects ops := by
  simp [formats_snoc]

theorem suspect_partition {ops : List Op} {v w : Volume} {a b : UInt64} {status : Int} :
    Suspect w (ops ++ [.partition v a b status]) ↔ Suspect w ops ∨ (w = v ∧ InitFailed w ops) := by
  simp [suspect_snoc, Op.IsFailedMount, Op.IsRewrite, eq_comm]

theorem initFailed_partition {ops : List Op} {v w : Volume} {a b : UInt64} {status : Int} :
    InitFailed w (ops ++ [.partition v a b status]) ↔ InitFailed w ops := by
  simp [initFailed_snoc, Op.IsFailedInit]

/-- Rewriting a table entry and mounting the partition formats suspects only, if the partition is broken or safe. -/
theorem formats_rewrite (v : Volume) (a b : UInt64) (status : Int) (o : MountOutcomes) (s : Storage) :
    FormatsSuspects (initAndMountPartition v o (s.op (.partition v a b status))).2.trace ↔
      FormatsSuspects s.trace ∧ (Broken v s.trace ∨ o.Safe (s.fs v)) := by
  have h := effect_initAndMountPartition v o (s.op (.partition v a b status))
  rw [h.formats]
  simp only [Storage.op, formats_partition, suspect_partition, true_and, Broken]

theorem suspect_rewrite (v w : Volume) (a b : UInt64) (status : Int) (o : MountOutcomes) (s : Storage) :
    Suspect w (initAndMountPartition v o (s.op (.partition v a b status))).2.trace ↔
      Suspect w s.trace ∨ (w = v ∧ (InitFailed w s.trace ∨ o.MountFails (s.fs v))) := by
  have h := effect_initAndMountPartition v o (s.op (.partition v a b status))
  rw [h.suspect]
  simp only [Storage.op, suspect_partition]
  rw [or_assoc, ← and_or_left]

theorem initFailed_rewrite (v w : Volume) (a b : UInt64) (status : Int) (o : MountOutcomes) (s : Storage) :
    InitFailed w (initAndMountPartition v o (s.op (.partition v a b status))).2.trace ↔
      InitFailed w s.trace ∨ (w = v ∧ o.status (s.fs v) ≠ 0) := by
  have h := effect_initAndMountPartition v o (s.op (.partition v a b status))
  rw [h.initFailed]
  simp only [Storage.op, initFailed_partition]

theorem formats_rewritten1 (o : CreateOutcomes) : FormatsSuspects (rewritten1 cfg o s).trace ↔
    FormatsSuspects s.trace ∧ (Broken .primary s.trace ∨ o.mount1.Safe (s.fs .primary)) :=
  formats_rewrite _ _ _ _ _ _

theorem rewritten1_secondary (o : CreateOutcomes) : (Broken .secondary (rewritten1 cfg o s).trace ↔
    Broken .secondary s.trace) ∧ (rewritten1 cfg o s).fs .secondary = s.fs .secondary := by
  constructor
  · unfold Broken rewritten1
    rw [suspect_rewrite, initFailed_rewrite]
    simp
  · exact (initAndMountPartition_fs _ _ _ _).trans (by simp [Storage.op])

theorem formats_rewritten2 (o : CreateOutcomes) : FormatsSuspects (rewritten2 cfg o s).trace ↔
    FormatsSuspects (rewritten1 cfg o s).trace ∧ (Broken .secondary s.trace ∨ o.mount2.Safe (s.fs .secondary)) := by
  obtain ⟨hbroken, hfs⟩ := @rewritten1_secondary cfg s o
  rw [← hbroken, ← hfs]
  exact formats_rewrite _ _ _ _ _ _

/-- A second partition that was not broken is a suspect after its rewrite only if its mount fails. -/
theorem suspect_rewritten2 (o : CreateOutcomes) (hnone : ¬Broken .secondary s.trace) :
    Suspect .secondary (rewritten2 cfg o s).trace ↔ o.mount2.MountFails (s.fs .secondary) := by
  obtain ⟨hbroken, hfs⟩ := @rewritten1_secondary cfg s o
  obtain ⟨hsuspect, hfailed⟩ := not_or.mp (mt hbroken.mp hnone)
  rw [rewritten2, suspect_rewrite, hfs]
  simp only [hsuspect, hfailed, false_or, true_and]

/-- A first partition that failed to mount stays broken. -/
theorem broken_rewritten2 (o : CreateOutcomes) (h : InitFailed .primary s.trace) :
    Broken .primary (rewritten2 cfg o s).trace := by
  refine Or.inr ?_
  rw [rewritten2, initFailed_rewrite, rewritten1, initFailed_rewrite]
  exact Or.inl (Or.inl h)

theorem rewritten2_fs (o : CreateOutcomes) (h : o.mount2.status (s.fs .secondary) = 0) :
    (rewritten2 cfg o s).fs .secondary = true := by
  rw [rewritten2, initAndMountPartition_fs]
  simp [init_of_status h]

theorem UpToEntry.formats {t : Storage} (h : UpToEntry s t) : FormatsSuspects t.trace ↔ FormatsSuspects s.trace := by
  rcases h with rfl | rfl | ⟨v, a, b, status, rfl⟩
  · exact Iff.rfl
  · exact Iff.rfl
  · exact formats_partition

/-- **Repartitioning formats suspects only** if each partition that it gets to is broken or safe. -/
theorem formats_createPartitions (o : CreateOutcomes) :
    FormatsSuspects (createPartitions cfg two o s).2.trace ↔ FormatsSuspects s.trace ∧
      (o.Rewrites1 cfg s.size → Broken .primary s.trace ∨ o.mount1.Safe (s.fs .primary)) ∧
      (o.Rewrites2 cfg two s.size (s.fs .primary) → Broken .secondary s.trace ∨ o.mount2.Safe (s.fs .secondary)) := by
  rcases createPartitions_cases cfg two o s with ⟨hno, _, h⟩ | ⟨hyes, hno, _, h⟩ | ⟨hyes, h⟩
  · have hno2 : ¬o.Rewrites2 cfg two s.size (s.fs .primary) := fun h2 => hno h2.1
    simp only [h.formats, hno, hno2, false_imp_iff, and_true]
  · simp only [h.formats, formats_rewritten1, hyes, hno, false_imp_iff, and_true, true_imp_iff]
  · have hyes1 : o.Rewrites1 cfg s.size := hyes.1
    simp only [h, formats_rewritten2, formats_rewritten1, hyes, hyes1, true_imp_iff, and_assoc]

end Create

/-! ## One call -/

section Call

variable {cfg : Config} {two auto : Bool} {s : Storage}

/-- The second partition is mounted, once the first is. -/
theorem formats_mountOrCreate_secondary (o : MountOutcomes) (o' : CreateOutcomes) :
    FormatsSuspects (mountOrCreate cfg two auto .secondary o o' s).2.trace ↔
      FormatsSuspects s.trace ∧ (Suspect .secondary s.trace ∨ o.Safe (s.fs .secondary)) ∧
        (auto = true → o.status (s.fs .secondary) ≠ 0 → o'.Rewrites1 cfg s.size →
          Broken .primary s.trace ∨ o'.mount1.Safe (s.fs .primary)) := by
  have heffect := effect_initAndMountPartition .secondary o s
  rw [mountOrCreate_eq]
  by_cases hst : o.status (s.fs .secondary) = 0
  · rw [if_pos hst, heffect.formats]
    simp [hst]
  · rw [if_neg hst]
    cases auto with
    | false => simp [heffect.formats]
    | true =>
      have hprimary : Broken .primary (initAndMountPartition .secondary o s).2.trace ↔ Broken .primary s.trace := by
        simp [Broken, heffect.suspect, heffect.initFailed]
      have hsecondary : Broken .secondary (initAndMountPartition .secondary o s).2.trace := by
        refine Or.inr ((heffect.initFailed _).mpr (Or.inr ⟨rfl, hst⟩))
      have hfs : (initAndMountPartition .secondary o s).2.fs .primary = s.fs .primary := by
        simp [initAndMountPartition_fs]
      rw [if_pos rfl, formats_createPartitions, heffect.formats, hprimary, hfs, initAndMountPartition_size]
      simp [hsecondary, hst, and_assoc]

theorem mountPartitions_trace (o : Outcomes) : (mountPartitions cfg two auto o s).2.trace =
    if (mountOrCreate cfg two auto .primary o.mount1 o.create1 s).1 = some 0 ∧ two = true then
      (mountOrCreate cfg two auto .secondary o.mount2 o.create2
        (mountOrCreate cfg two auto .primary o.mount1 o.create1 s).2).2.trace
    else (mountOrCreate cfg two auto .primary o.mount1 o.create1 s).2.trace := by
  unfold mountPartitions
  by_cases hst : (mountOrCreate cfg two auto .primary o.mount1 o.create1 s).1 = some 0
  · cases two with
    | false => simp [hst]
    | true =>
      simp only [hst, ne_eq, not_true_eq_false, if_false, if_true, and_self]
      split <;> rfl
  · simp [hst]

/-- With the partition mode on, the call takes none of the ways to format a partition that is not suspect: each partition
is safe when it is mounted; the first when it is mounted again because the second has failed; the second when it is mounted
because the first has failed, and again after that. -/
def Outcomes.SparesPartitions (o : Outcomes) (cfg : Config) (two auto : Bool) (size : UInt64) (fs : Volume → Bool) :
    Prop :=
  o.mount1.Safe (fs .primary) ∧
    if o.mount1.status (fs .primary) = 0 then
      two = true → o.mount2.Safe (fs .secondary) ∧
        (auto = true → o.mount2.status (fs .secondary) ≠ 0 → o.create2.Rewrites1 cfg size →
          o.mount1.MountFails (fs .primary) ∨ o.create2.mount1.Safe true)
    else
      auto = true → o.create1.Rewrites2 cfg two size (decide (o.mount1.init = 0) || fs .primary) →
        o.create1.mount2.Safe (fs .secondary) ∧
          (o.create1.mount2.status (fs .secondary) = 0 →
            o.create1.mount2.MountFails (fs .secondary) ∨ o.mount2.Safe true)

/-- After the first partition has failed and the storage was repartitioned. -/
theorem formats_recreated (o : Outcomes) (hprimary : InitFailed .primary s.trace)
    (hsecondary : ¬Broken .secondary s.trace) :
    FormatsSuspects (if (createPartitions cfg two o.create1 s).1 = some 0 ∧ two = true then
      (mountOrCreate cfg two true .secondary o.mount2 o.create2 (createPartitions cfg two o.create1 s).2).2.trace
      else (createPartitions cfg two o.create1 s).2.trace) ↔
    FormatsSuspects s.trace ∧ (o.create1.Rewrites2 cfg two s.size (s.fs .primary) →
      o.create1.mount2.Safe (s.fs .secondary) ∧ (o.create1.mount2.status (s.fs .secondary) = 0 →
        o.create1.mount2.MountFails (s.fs .secondary) ∨ o.mount2.Safe true)) := by
  have hbroken : Broken .primary s.trace := Or.inr hprimary
  rcases createPartitions_cases cfg two o.create1 s with ⟨hno, hfail, h⟩ | ⟨hyes, hno, hone, h⟩ | ⟨hyes, h⟩
  · have hno2 : ¬o.create1.Rewrites2 cfg two s.size (s.fs .primary) := fun h2 => hno h2.1
    rw [if_neg fun hand => hfail hand.1, h.formats]
    simp [hno2]
  · have hnot : ¬((createPartitions cfg two o.create1 s).1 = some 0 ∧ two = true) := by
      rintro ⟨hok, htwo⟩
      rw [(hone hok).2.1] at htwo
      cases htwo
    rw [if_neg hnot, h.formats, formats_rewritten1]
    simp [hbroken, hno]
  · obtain ⟨_, hfs⟩ := @rewritten1_secondary cfg s o.create1
    have htwo : two = true := hyes.2.2.1
    have hformats : FormatsSuspects (rewritten2 cfg o.create1 s).trace ↔
        FormatsSuspects s.trace ∧ o.create1.mount2.Safe (s.fs .secondary) := by
      rw [formats_rewritten2, formats_rewritten1]
      simp [hbroken, hsecondary]
    rw [h, hfs]
    simp only [hyes, true_imp_iff]
    by_cases hst : o.create1.mount2.status (s.fs .secondary) = 0
    · have hprimary' := @broken_rewritten2 cfg s o.create1 hprimary
      rw [if_pos ⟨by rw [hst], htwo⟩, formats_mountOrCreate_secondary, hformats,
        suspect_rewritten2 _ hsecondary, rewritten2_fs _ hst]
      simp [hprimary', hst, and_assoc]
    · have hnot : ¬(some (o.create1.mount2.status (s.fs .secondary)) = some 0 ∧ two = true) :=
        fun hand => hst (Option.some.inj hand.1)
      rw [if_neg hnot, hformats]
      simp [hst]

/-- **The partitions of one call**, from a trace that shows nothing broken. -/
theorem formats_mountPartitions (o : Outcomes) (hform : FormatsSuspects s.trace) (hnone : ∀ v, ¬Broken v s.trace) :
    FormatsSuspects (mountPartitions cfg two auto o s).2.trace ↔ o.SparesPartitions cfg two auto s.size s.fs := by
  have heffect := effect_initAndMountPartition .primary o.mount1 s
  have hsuspect : ∀ v, ¬Suspect v s.trace := fun v h => hnone v (Or.inl h)
  have hfailed : ∀ v, ¬InitFailed v s.trace := fun v h => hnone v (Or.inr h)
  have hformats : FormatsSuspects (initAndMountPartition .primary o.mount1 s).2.trace ↔
      o.mount1.Safe (s.fs .primary) := by simp [heffect.formats, hform, hsuspect]
  have hsecondary : ¬Broken .secondary (initAndMountPartition .primary o.mount1 s).2.trace := by
    simp [Broken, heffect.suspect, heffect.initFailed, hsuspect, hfailed]
  have hfs : (initAndMountPartition .primary o.mount1 s).2.fs .secondary = s.fs .secondary := by
    simp [initAndMountPartition_fs]
  rw [mountPartitions_trace, mountOrCreate_eq]
  unfold Outcomes.SparesPartitions
  by_cases hst : o.mount1.status (s.fs .primary) = 0
  · have hprimary : Broken .primary (initAndMountPartition .primary o.mount1 s).2.trace ↔
        o.mount1.MountFails (s.fs .primary) := by
      simp [Broken, heffect.suspect, heffect.initFailed, hsuspect, hfailed, hst]
    have hfs1 : (initAndMountPartition .primary o.mount1 s).2.fs .primary = true := by
      simp [initAndMountPartition_fs, init_of_status hst]
    have hsuspect2 : ¬Suspect .secondary (initAndMountPartition .primary o.mount1 s).2.trace :=
      fun h => hsecondary (Or.inl h)
    cases two with
    | false => simp [hst, hformats]
    | true =>
      simp only [hst, if_true, and_self, formats_mountOrCreate_secondary, hformats, hsuspect2, hprimary, hfs, hfs1,
        initAndMountPartition_size, false_or, true_imp_iff]
  · have hprimary : InitFailed .primary (initAndMountPartition .primary o.mount1 s).2.trace :=
      (heffect.initFailed _).mpr (Or.inr ⟨rfl, hst⟩)
    have hfs1 : (initAndMountPartition .primary o.mount1 s).2.fs .primary =
        (decide (o.mount1.init = 0) || s.fs .primary) := by simp [initAndMountPartition_fs]
    rw [if_neg hst, if_neg hst]
    cases auto with
    | false => simp [hst, hformats]
    | true =>
      rw [if_pos rfl]
      simp only [true_imp_iff]
      rw [← hfs1, ← hfs, ← initAndMountPartition_size .primary o.mount1 s, ← hformats]
      exact formats_recreated o hprimary hsecondary

/-- With the partition mode off, a default file system that is mounted does not fail to unmount. -/
def Outcomes.SparesDefault (o : Outcomes) (fs1 : Bool) : Prop :=
  o.defaultFs = true → fs1 = true ∨ o.mount1.construct = 0 → o.mount1.unmount = 0

theorem mountDefault_trace (o : Outcomes) (hdefault : o.defaultFs = true) : (mountDefault o s).2.trace =
    (testAndFormat .primary s.device o.mount1 (s.takeDefault o.mount1.construct)).2.trace := by
  unfold mountDefault
  rw [if_neg (by simp [hdefault])]
  dsimp only
  split <;> rfl

theorem formats_mountDefault (o : Outcomes) (hform : FormatsSuspects s.trace) (hnone : ∀ v, ¬Suspect v s.trace) :
    FormatsSuspects (mountDefault o s).2.trace ↔ o.SparesDefault (s.fs .primary) := by
  unfold Outcomes.SparesDefault
  cases hdefault : o.defaultFs with
  | false =>
    unfold mountDefault
    simp [hdefault, hform]
  | true =>
    rw [mountDefault_trace o hdefault]
    cases hfs : s.fs .primary with
    | false =>
      have hnew := @effect_op .primary s.trace (.construct .primary .whole o.mount1.construct) rfl
      have htrace : (s.takeDefault o.mount1.construct).trace =
          s.trace ++ [.construct .primary .whole o.mount1.construct] := by simp [Storage.takeDefault, hfs, Storage.newFs]
      have htest := @effect_testAndFormat .primary s.device o.mount1 (s.takeDefault o.mount1.construct)
      rw [htrace] at htest
      rw [(hnew.trans htest).formats]
      simp only [hform, hnone, Op.IsFailedMount, true_and, false_or, Bool.false_eq_true, true_imp_iff]
      tauto
    | true =>
      have htrace : (s.takeDefault o.mount1.construct).trace = s.trace := by simp [Storage.takeDefault, hfs]
      have htest := @effect_testAndFormat .primary s.device o.mount1 (s.takeDefault o.mount1.construct)
      rw [htrace] at htest
      rw [htest.formats]
      simp [hform, hnone]

/-- The call takes none of the ways to format a partition that is not suspect. -/
def Outcomes.SparesHealthy (o : Outcomes) (cfg : Config) (s : Storage) : Prop :=
  s.initDone = true ∨ (o.bd = true ∧ o.bdInit ≠ 0) ∨
    match cfg.layout with
    | .off => o.SparesDefault (s.fs .primary)
    | .on two auto => o.SparesPartitions cfg two auto (if o.bd then o.size else s.size) s.fs

/-- **A call formats suspects only** if it takes none of the ways to format others. -/
theorem formats_storageInit (o : Outcomes) :
    FormatsSuspects (storageInit cfg o s).2.trace ↔ o.SparesHealthy cfg s := by
  have hall : ∀ t : Storage, FormatsSuspects t.trace → (∀ v, ¬Broken v t.trace) →
      (FormatsSuspects (mountAll cfg o t).2.trace ↔ match cfg.layout with
        | .off => o.SparesDefault (t.fs .primary)
        | .on two auto => o.SparesPartitions cfg two auto t.size t.fs) := by
    intro t hform hnone
    unfold mountAll
    cases cfg.layout with
    | off => exact formats_mountDefault o hform fun v h => hnone v (Or.inl h)
    | on two auto => exact formats_mountPartitions o hform hnone
  have hnil : ∀ v, ¬Broken v [] := by simp [Broken, Suspect, InitFailed]
  have hbd : ∀ v, ¬Broken v ([] ++ [.bdInit o.bdInit]) := by
    intro v
    unfold Broken
    rw [suspect_snoc, initFailed_snoc]
    simp [Suspect, InitFailed, Op.IsFailedMount, Op.IsRewrite, Op.IsFailedInit]
  have hform : FormatsSuspects ([] ++ [.bdInit o.bdInit]) := by
    rw [formats_snoc]
    exact ⟨eachAfter_nil _, by simp⟩
  unfold storageInit Outcomes.SparesHealthy
  cases hdone : s.initDone with
  | true => simp [FormatsSuspects]
  | false =>
    simp only [Bool.false_eq_true, if_false, false_or]
    cases hpresent : o.bd with
    | false =>
      simp only [Bool.false_eq_true, if_false, false_and, false_or]
      exact hall { s with trace := [], bd := false, initDone := false } (eachAfter_nil _) hnil
    | true =>
      simp only [if_true, true_and]
      by_cases hi : o.bdInit = 0
      · rw [if_neg (not_not_intro hi), or_iff_right (not_not_intro hi)]
        exact hall { s with trace := [] ++ [.bdInit o.bdInit], bd := true, size := o.size, initDone := false } hform hbd
      · simp only [if_pos hi]
        exact iff_of_true hform (Or.inl hi)

end Call

/-! ## Any number of calls -/

/-- **In a run of calls every format is of a suspect** exactly if each call takes none of the ways to format others. -/
theorem formatsSuspects_iff (cfg : Config) (os : List Outcomes) :
    (∀ pre, pre <+: os → ∀ s, run (step cfg) .fresh pre = some s → FormatsSuspects s.trace) ↔
      Meets (fun s o => s.halted = false → o.SparesHealthy cfg s) (step cfg) .fresh os := by
  rw [← @always_iff _ _ (step cfg) (fun s : Storage => FormatsSuspects s.trace)]
  refine always_iff_meets (fun _ => True) _ trivial (eachAfter_nil _) (fun _ _ _ _ _ => trivial) fun s o _ _ => ?_
  unfold step
  cases s.halted with
  | true => simp
  | false => simp [formats_storageInit]

/-! ## A retry -/

/-- No driver call fails. -/
def mounted : MountOutcomes := ⟨0, 0, 0, 0, 0, 0⟩

/-- The second partition does not initialise, and then it does. -/
def failThenRetry : List Outcomes :=
  [⟨true, 0, 0, true, mounted, ⟨0, mounted, 0, mounted⟩, { mounted with init := -1 }, ⟨0, mounted, 0, mounted⟩⟩,
    ⟨true, 0, 0, true, mounted, ⟨0, mounted, 0, mounted⟩, mounted, ⟨0, mounted, 0, mounted⟩⟩]

/-- Two partitions of 1 GB, without automatic partitioning. -/
def twoPartitions : Config := .ofLayout (.on true false) true

/-- The retry formats the first partition, which nothing has been wrong with. -/
theorem retry_formats_healthy : ∃ s, run (step twoPartitions) .fresh failThenRetry = some s ∧
    .reformat .primary (.partition .primary) 0 ∈ s.trace ∧ ¬FormatsSuspects s.trace := by
  refine ⟨_, rfl, by decide, fun h => ?_⟩
  have hsuspect : Suspect .primary [.bdInit 0, .partInit .primary 0] :=
    h [.bdInit 0, .partInit .primary 0] (.reformat .primary (.partition .primary) 0) _ rfl _ _ _ rfl
  rcases hsuspect with ⟨x, hx, hmount⟩ | hrewritten
  · simp only [List.mem_cons, List.not_mem_nil, or_false] at hx
    rcases hx with rfl | rfl <;> exact hmount
  · obtain ⟨x, hx, hinit⟩ := hrewritten.fst
    simp only [List.mem_cons, List.not_mem_nil, or_false] at hx
    rcases hx with rfl | rfl <;> exact hinit

end PelionClient.Platform
