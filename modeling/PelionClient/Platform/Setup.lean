import PelionClient.Lib.CInt
import PelionClient.Lib.Run
import PelionClient.Lib.Trace

/-!
# The storage of the device (`mcc_common_setup.cpp`)

`mcc_platform_storage_init` makes a file system on each configured partition of the default block device, or, with the
partition mode off, takes the default file system. What it does depends on how the file is compiled (`Config`) and on what
the drivers return (the `Outcomes` of a call). The driver operations of a call are kept in a trace, and so is the result of
each `mcc_platform_init_and_mount_partition`.

A call that runs into `assert(0)`, or calls a method of a default file system that is NULL, does not return: the program has
halted.
-/

namespace PelionClient.Platform

open Lib

/-- The file systems `fs1` and `fs2`, and their partitions. -/
inductive Volume
  | primary
  | secondary
deriving DecidableEq, Repr

/-- What a `BlockDevice*` points to. -/
inductive Device
  | null
  /-- The default block device. -/
  | whole
  /-- The `MBRBlockDevice` of a partition. -/
  | partition (v : Volume)
deriving DecidableEq, Repr

/-- A driver operation and the status it ends with. -/
inductive Op
  | bdInit (status : Int)
  | partInit (v : Volume) (status : Int)
  | partDeinit (v : Volume)
  /-- A file-system object is made. Its constructor mounts it, and `status` is how that ends. -/
  | construct (v : Volume) (device : Device) (status : Int)
  | unmount (v : Volume) (status : Int)
  | mount (v : Volume) (device : Device) (status : Int)
  | reformat (v : Volume) (device : Device) (status : Int)
  /-- `MBRBlockDevice::partition` writes the table entry of the volume. -/
  | partition (v : Volume) (start stop : UInt64) (status : Int)
  /-- `mcc_platform_init_and_mount_partition` returns. -/
  | initAndMount (v : Volume) (status : Int)
deriving DecidableEq, Repr

/-- `MCC_PLATFORM_PARTITION_MODE`, `NUMBER_OF_PARTITIONS` and `MCC_PLATFORM_AUTO_PARTITION`. With the partition mode off the
file does not define `NUMBER_OF_PARTITIONS`. -/
inductive Layout
  | off
  | on (two auto : Bool)
deriving DecidableEq, Repr

/-- How the file is compiled. A macro that stands for a number is taken as one value of its C type. -/
structure Config where
  layout : Layout
  /-- `PRIMARY_PARTITION_START` -/
  primaryStart : CInt
  primarySize : CInt
  secondaryStart : CInt
  secondarySize : CInt
  /-- `assert` is compiled in. -/
  asserts : Bool
deriving DecidableEq, Repr

/-- `1024*1024*1024` -/
def oneGB : CInt := CType.int.convert (1024 * 1024 * 1024)

/-- The starts and sizes are left at their defaults. -/
def Config.ofLayout (layout : Layout) (asserts : Bool) : Config :=
  ⟨layout, CType.int.convert 0, oneGB, oneGB, oneGB, asserts⟩

/-- What the drivers return in one `mcc_platform_init_and_mount_partition`, each if it is called. -/
structure MountOutcomes where
  init : Int
  /-- The mount by the constructor of the file system. -/
  construct : Int
  /-- The format of a file system that exists already. -/
  reinit : Int
  unmount : Int
  mount : Int
  /-- The format after a failed test. -/
  reformat : Int
deriving DecidableEq, Repr

/-- What they return in one `mcc_platform_create_partitions`. -/
structure CreateOutcomes where
  partition1 : Int
  mount1 : MountOutcomes
  partition2 : Int
  mount2 : MountOutcomes
deriving DecidableEq, Repr

/-- What they return in one `mcc_platform_storage_init`. -/
structure Outcomes where
  /-- There is a default block device. -/
  bd : Bool
  bdInit : Int
  size : UInt64
  /-- There is a default file system. -/
  defaultFs : Bool
  mount1 : MountOutcomes
  create1 : CreateOutcomes
  mount2 : MountOutcomes
  create2 : CreateOutcomes
deriving DecidableEq, Repr

structure Storage where
  /-- `bd` is not NULL. -/
  bd : Bool
  /-- `fs1` and `fs2` are not NULL. -/
  fs : Volume → Bool
  /-- `part1` and `part2`. -/
  part : Volume → Device
  /-- `mcc_platform_storage_size` -/
  size : UInt64
  initDone : Bool
  halted : Bool
  /-- What the last call has done. -/
  trace : List Op

/-- Before the first call. -/
def Storage.fresh : Storage := ⟨false, fun _ => false, fun _ => .null, 0, false, false, []⟩

def Storage.op (s : Storage) (x : Op) : Storage := { s with trace := s.trace ++ [x] }

/-! ## The functions -/

/-- `*part = new MBRBlockDevice(..)`, if it is NULL. -/
def Storage.newPart (s : Storage) (v : Volume) : Storage :=
  { s with part := fun w => if w = v ∧ s.part w = .null then .partition v else s.part w }

/-- The file system of `v` is made, or taken from `get_default_instance`. -/
def Storage.newFs (s : Storage) (v : Volume) (device : Device) (status : Int) : Storage :=
  { s with fs := fun w => w = v || s.fs w, trace := s.trace ++ [.construct v device status] }

def reformatPartition (v : Volume) (device : Device) (status : Int) (s : Storage) : Int × Storage :=
  (status, s.op (.reformat v device status))

def testFilesystem (v : Volume) (device : Device) (o : MountOutcomes) (s : Storage) : Int × Storage :=
  let s := s.op (.unmount v o.unmount)
  if o.unmount ≠ 0 then (-1, s)
  else
    let s := s.op (.mount v device o.mount)
    if o.mount ≠ 0 then (-1, s) else (o.mount, s)

/-- The test of a file system, and its format if that fails. -/
def testAndFormat (v : Volume) (device : Device) (o : MountOutcomes) (s : Storage) : Int × Storage :=
  let (status, s) := testFilesystem v device o s
  if status ≠ 0 then reformatPartition v device o.reformat s else (status, s)

/-- `mcc_platform_init_and_mount_partition` up to its return. -/
def initAndMount (v : Volume) (o : MountOutcomes) (s : Storage) : Int × Storage :=
  if s.fs v = false then
    let s := (s.newPart v).op (.partInit v o.init)
    if o.init ≠ 0 then (o.init, s.op (.partDeinit v))
    else testAndFormat v (s.part v) o (s.newFs v (s.part v) o.construct)
  else
    let s := s.op (.partInit v o.init)
    if o.init ≠ 0 then (o.init, s.op (.partDeinit v))
    else
      let (status, s) := reformatPartition v (s.part v) o.reinit s
      if status ≠ 0 then (status, s) else testAndFormat v (s.part v) o s

def initAndMountPartition (v : Volume) (o : MountOutcomes) (s : Storage) : Int × Storage :=
  let r := initAndMount v o s
  (r.1, r.2.op (.initAndMount v r.1))

/-- The start that `mcc_platform_create_partitions` passes to `MBRBlockDevice::partition`. -/
def Config.start (cfg : Config) : Volume → UInt64
  | .primary => cfg.primaryStart.toUInt64
  | .secondary => cfg.secondaryStart.toUInt64

/-- The end. Only the summands of the second are cast to `uint64_t`. -/
def Config.stop (cfg : Config) : Volume → UInt64
  | .primary => (cfg.primaryStart.add cfg.primarySize).toUInt64
  | .secondary => cfg.secondaryStart.toUInt64 + cfg.secondarySize.toUInt64

/-- `mcc_platform_create_partitions`. Without a status it has not returned. -/
def createPartitions (cfg : Config) (two : Bool) (o : CreateOutcomes) (s : Storage) : Option Int × Storage :=
  if cfg.asserts = true ∧ s.size < cfg.primarySize.toUInt64 then (none, { s with halted := true })
  else
    let s := s.op (.partition .primary (cfg.start .primary) (cfg.stop .primary) o.partition1)
    if o.partition1 ≠ 0 then (some o.partition1, s)
    else
      let r := initAndMountPartition .primary o.mount1 s
      if r.1 ≠ 0 then (some r.1, r.2)
      else if two = false then (some r.1, r.2)
      else if cfg.asserts = true ∧ r.2.size < cfg.primarySize.toUInt64 + cfg.secondarySize.toUInt64 then
        (none, { r.2 with halted := true })
      else
        let s := r.2.op (.partition .secondary (cfg.start .secondary) (cfg.stop .secondary) o.partition2)
        if o.partition2 ≠ 0 then (some o.partition2, s)
        else
          let r := initAndMountPartition .secondary o.mount2 s
          (some r.1, r.2)

/-- The part of `mcc_platform_storage_init` about one partition: mount it, and repartition the storage if that fails. -/
def mountOrCreate (cfg : Config) (two auto : Bool) (v : Volume) (o : MountOutcomes) (o' : CreateOutcomes) (s : Storage) :
    Option Int × Storage :=
  let r := initAndMountPartition v o s
  if r.1 ≠ 0 then
    if auto then createPartitions cfg two o' r.2 else (some r.1, r.2)
  else (some r.1, r.2)

/-- The part of `mcc_platform_storage_init` after the block device is initialised, with the partition mode on. -/
def mountPartitions (cfg : Config) (two auto : Bool) (o : Outcomes) (s : Storage) : Option Int × Storage :=
  let r := mountOrCreate cfg two auto .primary o.mount1 o.create1 s
  if r.1 ≠ some 0 then r
  else if two then
    let r := mountOrCreate cfg two auto .secondary o.mount2 o.create2 r.2
    if r.1 ≠ some 0 then r else (r.1, { r.2 with initDone := true })
  else (r.1, { r.2 with initDone := true })

/-- What `bd` points to. -/
def Storage.device (s : Storage) : Device := if s.bd then .whole else .null

/-- `fs1` and `part1` with the partition mode off. The default file system is made the first time it is asked for. -/
def Storage.takeDefault (s : Storage) (construct : Int) : Storage :=
  let s := { s with part := fun w => if w = .primary then s.device else s.part w }
  if s.fs .primary = false then s.newFs .primary .whole construct else s

/-- The part of `mcc_platform_storage_init` after the block device is initialised, with the partition mode off. -/
def mountDefault (o : Outcomes) (s : Storage) : Option Int × Storage :=
  if o.defaultFs = false then (none, { s with halted := true })
  else
    let r := testAndFormat .primary s.device o.mount1 (s.takeDefault o.mount1.construct)
    if r.1 ≠ 0 then (some r.1, r.2) else (some r.1, { r.2 with initDone := true })

/-- The part of `mcc_platform_storage_init` after the block device is initialised. -/
def mountAll (cfg : Config) (o : Outcomes) (s : Storage) : Option Int × Storage :=
  match cfg.layout with
  | .off => mountDefault o s
  | .on two auto => mountPartitions cfg two auto o s

/-- `mcc_platform_storage_init` -/
def storageInit (cfg : Config) (o : Outcomes) (s : Storage) : Option Int × Storage :=
  let s := { s with trace := [] }
  if s.initDone then (some 0, s)
  else
    let s := { s with bd := o.bd }
    if o.bd then
      let s := s.op (.bdInit o.bdInit)
      if o.bdInit ≠ 0 then (some (-1), s) else mountAll cfg o { s with size := o.size }
    else mountAll cfg o s

/-- One call of `mcc_platform_storage_init`, while the program runs. -/
def step (cfg : Config) (s : Storage) (o : Outcomes) : Option Storage :=
  if s.halted then none else some (storageInit cfg o s).2

/-! ## What init-and-mount returns and leaves -/

section InitAndMount

/-- The three ends of the test: the unmount fails, the mount fails, or neither. -/
theorem testAndFormat_cases (v : Volume) (device : Device) (o : MountOutcomes) (s : Storage) :
    (o.unmount ≠ 0 ∧ testAndFormat v device o s =
      (o.reformat, (s.op (.unmount v o.unmount)).op (.reformat v device o.reformat))) ∨
    (o.unmount = 0 ∧ o.mount ≠ 0 ∧ testAndFormat v device o s =
      (o.reformat, ((s.op (.unmount v o.unmount)).op (.mount v device o.mount)).op (.reformat v device o.reformat))) ∨
    (o.unmount = 0 ∧ o.mount = 0 ∧ testAndFormat v device o s =
      (0, (s.op (.unmount v o.unmount)).op (.mount v device o.mount))) := by
  by_cases hu : o.unmount = 0
  · by_cases hm : o.mount = 0
    · refine Or.inr (Or.inr ⟨hu, hm, ?_⟩)
      simp only [testAndFormat, testFilesystem, if_neg (not_not_intro hu), hm]
      rfl
    · refine Or.inr (Or.inl ⟨hu, hm, ?_⟩)
      simp only [testAndFormat, testFilesystem, if_neg (not_not_intro hu), if_pos hm]
      rfl
  · refine Or.inl ⟨hu, ?_⟩
    simp only [testAndFormat, testFilesystem, if_pos hu]
    rfl

theorem testAndFormat_status (v : Volume) (device : Device) (o : MountOutcomes) (s : Storage) :
    (testAndFormat v device o s).1 = if o.unmount = 0 ∧ o.mount = 0 then 0 else o.reformat := by
  rcases testAndFormat_cases v device o s with ⟨hu, h⟩ | ⟨hu, hm, h⟩ | ⟨hu, hm, h⟩
  · rw [h, if_neg fun hand => hu hand.1]
  · rw [h, if_neg fun hand => hm hand.2]
  · rw [h, if_pos ⟨hu, hm⟩]

/-- The test changes the trace only. -/
theorem testAndFormat_state (v : Volume) (device : Device) (o : MountOutcomes) (s : Storage) :
    ∃ ops, (testAndFormat v device o s).2 = { s with trace := ops } := by
  rcases testAndFormat_cases v device o s with ⟨_, h⟩ | ⟨_, _, h⟩ | ⟨_, _, h⟩ <;> exact ⟨_, by rw [h]; rfl⟩

/-- What `mcc_platform_init_and_mount_partition` returns. -/
def MountOutcomes.status (o : MountOutcomes) (fsExists : Bool) : Int :=
  if o.init ≠ 0 then o.init
  else if fsExists = true ∧ o.reinit ≠ 0 then o.reinit
  else if o.unmount = 0 ∧ o.mount = 0 then 0
  else o.reformat

/-- The ends of init-and-mount: the block device fails, with or without a file system; a new file system is tested; the one
there is fails to format, or is tested. -/
theorem initAndMount_cases (v : Volume) (o : MountOutcomes) (s : Storage) :
    (o.init ≠ 0 ∧ s.fs v = false ∧
      initAndMount v o s = (o.init, ((s.newPart v).op (.partInit v o.init)).op (.partDeinit v))) ∨
    (o.init ≠ 0 ∧ s.fs v = true ∧ initAndMount v o s = (o.init, (s.op (.partInit v o.init)).op (.partDeinit v))) ∨
    (o.init = 0 ∧ s.fs v = false ∧ initAndMount v o s = testAndFormat v ((s.newPart v).part v) o
      (((s.newPart v).op (.partInit v o.init)).newFs v ((s.newPart v).part v) o.construct)) ∨
    (o.init = 0 ∧ s.fs v = true ∧ o.reinit ≠ 0 ∧
      initAndMount v o s = (o.reinit, (s.op (.partInit v o.init)).op (.reformat v (s.part v) o.reinit))) ∨
    (o.init = 0 ∧ s.fs v = true ∧ o.reinit = 0 ∧ initAndMount v o s = testAndFormat v (s.part v) o
      ((s.op (.partInit v o.init)).op (.reformat v (s.part v) o.reinit))) := by
  unfold initAndMount reformatPartition
  by_cases hi : o.init = 0
  · cases hfs : s.fs v with
    | false =>
      refine Or.inr (Or.inr (Or.inl ⟨hi, rfl, ?_⟩))
      simp only [if_true, if_neg (not_not_intro hi)]
      rfl
    | true =>
      simp only [Bool.true_eq_false, if_false, if_neg (not_not_intro hi)]
      by_cases hr : o.reinit = 0
      · exact Or.inr (Or.inr (Or.inr (Or.inr ⟨hi, trivial, hr, if_neg (not_not_intro hr)⟩)))
      · exact Or.inr (Or.inr (Or.inr (Or.inl ⟨hi, trivial, hr, if_pos hr⟩)))
  · cases s.fs v with
    | false => exact Or.inl ⟨hi, rfl, by simp only [if_true, if_pos hi]⟩
    | true => exact Or.inr (Or.inl ⟨hi, rfl, by simp only [Bool.true_eq_false, if_false, if_pos hi]⟩)

theorem initAndMount_status (v : Volume) (o : MountOutcomes) (s : Storage) :
    (initAndMount v o s).1 = o.status (s.fs v) := by
  unfold MountOutcomes.status
  rcases initAndMount_cases v o s with ⟨hi, hfs, h⟩ | ⟨hi, hfs, h⟩ | ⟨hi, hfs, h⟩ | ⟨hi, hfs, hr, h⟩ | ⟨hi, hfs, hr, h⟩
  · rw [h, if_pos hi]
  · rw [h, if_pos hi]
  · rw [h, if_neg (not_not_intro hi), testAndFormat_status, hfs]
    simp
  · rw [h, if_neg (not_not_intro hi), if_pos ⟨hfs, hr⟩]
  · rw [h, if_neg (not_not_intro hi), if_neg fun hand => hand.2 hr, testAndFormat_status]

/-- Of the pointers, only those of the partition change: its block device is made if there is no file system, and the file
system with it if that initialises. -/
theorem initAndMount_state (v : Volume) (o : MountOutcomes) (s : Storage) :
    ∃ ops, (initAndMount v o s).2 =
      { s with fs := fun w => (decide (w = v) && decide (o.init = 0)) || s.fs w
               part := if s.fs v then s.part else (s.newPart v).part
               trace := ops } := by
  rcases initAndMount_cases v o s with ⟨hi, hfs, h⟩ | ⟨hi, hfs, h⟩ | ⟨hi, hfs, h⟩ | ⟨hi, hfs, hr, h⟩ | ⟨hi, hfs, hr, h⟩
  · rw [h]
    simp only [hi, hfs, decide_false, Bool.and_false, Bool.false_or]
    exact ⟨_, rfl⟩
  · rw [h]
    simp only [hi, hfs, decide_false, Bool.and_false, Bool.false_or]
    exact ⟨_, rfl⟩
  · rw [h]
    simp only [hi, hfs, decide_true, Bool.and_true]
    exact testAndFormat_state v _ o _
  all_goals
    have hsame : (fun w => decide (w = v) || s.fs w) = s.fs := by
      funext w
      by_cases hw : w = v <;> simp [hw, hfs]
    rw [h]
    simp only [hi, hfs, decide_true, Bool.and_true, hsame, if_true]
  · exact ⟨_, rfl⟩
  · exact testAndFormat_state v _ o _

theorem initAndMountPartition_status (v : Volume) (o : MountOutcomes) (s : Storage) :
    (initAndMountPartition v o s).1 = o.status (s.fs v) := initAndMount_status v o s

theorem initAndMountPartition_state (v : Volume) (o : MountOutcomes) (s : Storage) :
    ∃ ops, (initAndMountPartition v o s).2 =
      { s with fs := fun w => (decide (w = v) && decide (o.init = 0)) || s.fs w
               part := if s.fs v then s.part else (s.newPart v).part
               trace := ops } := by
  obtain ⟨ops, h⟩ := initAndMount_state v o s
  exact ⟨_, by rw [initAndMountPartition, h]; rfl⟩

end InitAndMount

end PelionClient.Platform
