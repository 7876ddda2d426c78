import PelionClient.Platform.Mounted

/-!
# What success of a storage initialisation means

A call of `mcc_platform_storage_init` that returns 0 has mounted or reformatted every configured file system on its own
device, as the last thing it has done to it, or comes after a call that has; and `init_done` is set exactly after the
calls that return 0, so a failed call can be tried again (`honest_run`).

An init-and-mount disturbs no other partition (`Appends.mountedOn`), and the pointers to the partitions are never crossed
(`OwnParts`); so what each piece of the code mounts stays mounted through the pieces after it.
-/

namespace PelionClient.Platform

open Lib

/-- The volume that a driver operation works on. -/
def Op.volume : Op → Option Volume
  | .bdInit _ | .initAndMount _ _ => none
  | .partInit v _ | .partDeinit v | .construct v _ _ | .unmount v _ | .mount v _ _ | .reformat v _ _
  | .partition v _ _ _ => some v

/-- A successful mount or reformat of `v` on `device`. -/
def Op.Mounts (v : Volume) (device : Device) : Op → Prop
  | .mount w d status | .reformat w d status => w = v ∧ d = device ∧ status = 0
  | _ => False

/-- The last operation on `v` is a successful mount or reformat on `device`. -/
def MountedOn (v : Volume) (device : Device) (ops : List Op) : Prop :=
  Since (fun x => x.volume = some v) (Op.Mounts v device) ops

/-- The block device that a file system belongs on. -/
def Layout.device : Layout → Volume → Device
  | .off, _ => .whole
  | .on _ _, v => .partition v

/-! ## One partition -/

/-- An operation of the init-and-mount of `v`. -/
def Op.InMount (v : Volume) : Op → Prop
  | .partInit w _ | .partDeinit w | .construct w _ _ | .unmount w _ | .mount w _ _ | .reformat w _ _
  | .initAndMount w _ => w = v
  | _ => False

/-- `t` is `s` after operations of the init-and-mount of `v`. -/
def Appends (v : Volume) (s t : Storage) : Prop := ∃ added, t.trace = s.trace ++ added ∧ ∀ x ∈ added, x.InMount v

/-- Pointers to partitions are not crossed, and a file system has its partition. -/
structure OwnParts (s : Storage) : Prop where
  part : ∀ v, s.part v = .null ∨ s.part v = .partition v
  fs : ∀ v, s.fs v = true → s.part v = .partition v

section Partition

variable {v w : Volume} {device : Device} {s t u : Storage}

theorem Appends.trans (h : Appends v s t) (h' : Appends v t u) : Appends v s u := by
  obtain ⟨added, ht, hadded⟩ := h
  obtain ⟨added', hu, hadded'⟩ := h'
  refine ⟨added ++ added', by rw [hu, ht, List.append_assoc], fun x hx => ?_⟩
  rcases List.mem_append.mp hx with hx | hx
  · exact hadded x hx
  · exact hadded' x hx

theorem appends_op (x : Op) (h : x.InMount v) (s : Storage) : Appends v s (s.op x) :=
  ⟨[x], rfl, fun _ hy => List.mem_singleton.mp hy ▸ h⟩

theorem Op.InMount.volume {x : Op} (h : x.InMount v) (hw : x.volume = some w) : w = v := by
  cases x with
  | bdInit | initAndMount => cases hw
  | partition => exact h.elim
  | partInit | partDeinit | construct | unmount | mount | reformat =>
    cases hw
    exact h

/-- What is mounted elsewhere stays so. -/
theorem Appends.mountedOn (h : Appends v s t) (hw : w ≠ v) (hs : MountedOn w device s.trace) :
    MountedOn w device t.trace := by
  obtain ⟨added, ht, hadded⟩ := h
  rw [ht]
  exact Since.append hs fun x hx hvol => hw ((hadded x hx).volume hvol)

theorem appends_testAndFormat (v : Volume) (device : Device) (o : MountOutcomes) (s : Storage) :
    Appends v s (testAndFormat v device o s).2 := by
  have hunmount := appends_op (.unmount v o.unmount) rfl s
  have hmount := hunmount.trans (appends_op (.mount v device o.mount) rfl _)
  have hreformat := appends_op (.reformat v device o.reformat) rfl
  rcases testAndFormat_cases v device o s with ⟨_, h⟩ | ⟨_, _, h⟩ | ⟨_, _, h⟩
  · rw [h]
    exact hunmount.trans (hreformat _)
  · rw [h]
    exact hmount.trans (hreformat _)
  · rw [h]
    exact hmount

/-- A test that succeeds, or whose format does, ends with the file system mounted. -/
theorem mountedOn_testAndFormat {o : MountOutcomes} (h : (testAndFormat v device o s).1 = 0) :
    MountedOn v device (testAndFormat v device o s).2.trace := by
  rcases testAndFormat_cases v device o s with ⟨_, hr⟩ | ⟨_, _, hr⟩ | ⟨_, hmount, hr⟩
  · rw [hr] at h ⊢
    exact since_snoc.mpr (Or.inl ⟨rfl, rfl, h⟩)
  · rw [hr] at h ⊢
    exact since_snoc.mpr (Or.inl ⟨rfl, rfl, h⟩)
  · rw [hr]
    exact since_snoc.mpr (Or.inl ⟨rfl, rfl, hmount⟩)

theorem appends_initAndMount (v : Volume) (o : MountOutcomes) (s : Storage) : Appends v s (initAndMount v o s).2 := by
  have hpart : Appends v s (s.newPart v) := ⟨[], by simp [Storage.newPart], fun x hx => (nomatch hx)⟩
  have hinit := appends_op (.partInit v o.init) rfl
  have hdeinit := appends_op (.partDeinit v) rfl
  have hreformat : ∀ device t, Appends v t (t.op (.reformat v device o.reinit)) := fun _ => appends_op _ rfl
  have hnew : ∀ device t, Appends v t (t.newFs v device o.construct) := fun device =>
    appends_op (.construct v device o.construct) rfl
  rcases initAndMount_cases v o s with ⟨_, _, h⟩ | ⟨_, _, h⟩ | ⟨_, _, h⟩ | ⟨_, _, _, h⟩ | ⟨_, _, _, h⟩
  · rw [h]
    exact (hpart.trans (hinit _)).trans (hdeinit _)
  · rw [h]
    exact (hinit _).trans (hdeinit _)
  · rw [h]
    exact ((hpart.trans (hinit _)).trans (hnew _ _)).trans (appends_testAndFormat _ _ _ _)
  · rw [h]
    exact (hinit _).trans (hreformat _ _)
  · rw [h]
    exact ((hinit _).trans (hreformat _ _)).trans (appends_testAndFormat _ _ _ _)

theorem appends_initAndMountPartition (v : Volume) (o : MountOutcomes) (s : Storage) :
    Appends v s (initAndMountPartition v o s).2 :=
  (appends_initAndMount v o s).trans (appends_op (.initAndMount v _) rfl _)

theorem OwnParts.op (h : OwnParts s) (x : Op) : OwnParts (s.op x) := ⟨h.part, h.fs⟩

theorem OwnParts.newPart (h : OwnParts s) (v : Volume) : (s.newPart v).part v = .partition v := by
  unfold Storage.newPart
  rcases h.part v with hnull | hpart
  · simp [hnull]
  · simp [hpart]

/-- **Init-and-mount succeeds only with its partition mounted.** -/
theorem mountedOn_initAndMountPartition (h : OwnParts s) {o : MountOutcomes}
    (hok : (initAndMountPartition v o s).1 = 0) :
    MountedOn v (.partition v) (initAndMountPartition v o s).2.trace := by
  have hmounted : MountedOn v (.partition v) (initAndMount v o s).2.trace := by
    have hstatus : (initAndMount v o s).1 = 0 := hok
    rcases initAndMount_cases v o s with ⟨hi, _, hr⟩ | ⟨hi, _, hr⟩ | ⟨_, _, hr⟩ | ⟨_, _, hi, hr⟩ | ⟨_, hfs, _, hr⟩
    · rw [hr] at hstatus
      exact absurd hstatus hi
    · rw [hr] at hstatus
      exact absurd hstatus hi
    · rw [hr, h.newPart v] at hstatus ⊢
      exact mountedOn_testAndFormat hstatus
    · rw [hr] at hstatus
      exact absurd hstatus hi
    · rw [hr, h.fs v hfs] at hstatus ⊢
      exact mountedOn_testAndFormat hstatus
  exact since_snoc.mpr (Or.inr ⟨by simp [Op.volume], hmounted⟩)

theorem ownParts_initAndMountPartition (h : OwnParts s) (v : Volume) (o : MountOutcomes) :
    OwnParts (initAndMountPartition v o s).2 := by
  obtain ⟨ops, hs⟩ := initAndMountPartition_state v o s
  have hself : (initAndMountPartition v o s).2.part v = .partition v := by
    rw [hs]
    dsimp only
    split
    · rename_i hfs
      exact h.fs v hfs
    · exact h.newPart v
  have hother : ∀ w, w ≠ v → (initAndMountPartition v o s).2.part w = s.part w := by
    intro w hw
    rw [hs]
    dsimp only
    split
    · rfl
    · simp [Storage.newPart, hw]
  constructor
  · intro w
    by_cases hw : w = v
    · subst hw
      exact Or.inr hself
    · rw [hother w hw]
      exact h.part w
  · intro w hfs
    by_cases hw : w = v
    · subst hw
      exact hself
    · rw [hother w hw]
      apply h.fs w
      simpa [initAndMountPartition_fs, hw] using hfs

end Partition

/-! ## Both partitions -/

/-- The partitions of the build are mounted. -/
def PartitionsMounted (two : Bool) (ops : List Op) : Prop :=
  MountedOn .primary (.partition .primary) ops ∧ (two = true → MountedOn .secondary (.partition .secondary) ops)

section Partitions

variable {cfg : Config} {two auto : Bool} {s t : Storage}

theorem OwnParts.upToEntry (h : OwnParts s) (ht : UpToEntry s t) : OwnParts t := by
  rcases ht with rfl | rfl | ⟨v, a, b, status, rfl⟩
  · exact h
  · exact ⟨h.part, h.fs⟩
  · exact ⟨h.part, h.fs⟩

theorem ownParts_rewritten1 (h : OwnParts s) (o : CreateOutcomes) : OwnParts (rewritten1 cfg o s) :=
  ownParts_initAndMountPartition (h.op _) _ _

theorem ownParts_rewritten2 (h : OwnParts s) (o : CreateOutcomes) : OwnParts (rewritten2 cfg o s) :=
  ownParts_initAndMountPartition ((ownParts_rewritten1 h o).op _) _ _

theorem ownParts_createPartitions (h : OwnParts s) (o : CreateOutcomes) :
    OwnParts (createPartitions cfg two o s).2 := by
  rcases createPartitions_cases cfg two o s with ⟨_, _, hs⟩ | ⟨_, _, _, hs⟩ | ⟨_, hs⟩
  · exact h.upToEntry hs
  · exact (ownParts_rewritten1 h o).upToEntry hs
  · rw [hs]
    exact ownParts_rewritten2 h o

theorem mountedOn_rewritten1 (h : OwnParts s) {o : CreateOutcomes} (hok : o.mount1.status (s.fs .primary) = 0) :
    MountedOn .primary (.partition .primary) (rewritten1 cfg o s).trace := by
  apply mountedOn_initAndMountPartition
  · exact h.op _
  · rw [initAndMountPartition_status]
    exact hok

theorem mountedOn_rewritten2 (h : OwnParts s) {o : CreateOutcomes} (hok1 : o.mount1.status (s.fs .primary) = 0)
    (hok2 : o.mount2.status ((rewritten1 cfg o s).fs .secondary) = 0) :
    PartitionsMounted two (rewritten2 cfg o s).trace := by
  have h1 := @ownParts_rewritten1 cfg s h o
  constructor
  · refine (appends_initAndMountPartition .secondary o.mount2 _).mountedOn (by simp) ?_
    exact since_snoc.mpr (Or.inr ⟨by simp [Op.volume], mountedOn_rewritten1 h hok1⟩)
  · intro _
    apply mountedOn_initAndMountPartition
    · exact h1.op _
    · rw [initAndMountPartition_status]
      exact hok2

/-- **Repartitioning succeeds only with all partitions mounted.** -/
theorem mountedOn_createPartitions (h : OwnParts s) {o : CreateOutcomes} (hok : (createPartitions cfg two o s).1 = some 0) :
    PartitionsMounted two (createPartitions cfg two o s).2.trace := by
  rcases createPartitions_cases cfg two o s with ⟨_, hfail, _⟩ | ⟨_, _, hone, _⟩ | ⟨hyes, hend⟩
  · exact absurd hok hfail
  · obtain ⟨hmount, hfalse, hs⟩ := hone hok
    rw [hs]
    exact ⟨mountedOn_rewritten1 h hmount, fun htwo => by rw [hfalse] at htwo; cases htwo⟩
  · rw [hend] at hok ⊢
    exact mountedOn_rewritten2 h hyes.2.1 (Option.some.inj hok)

theorem ownParts_mountOrCreate (h : OwnParts s) (v : Volume) (o : MountOutcomes) (o' : CreateOutcomes) :
    OwnParts (mountOrCreate cfg two auto v o o' s).2 := by
  have h1 := ownParts_initAndMountPartition h v o
  rw [mountOrCreate_eq]
  split
  · exact h1
  split
  · exact ownParts_createPartitions h1 o'
  · exact h1

/-- A partition that is mounted in the end is mounted by its own init-and-mount, which disturbs no other, or with all. -/
theorem mountOrCreate_mounts (h : OwnParts s) {v : Volume} {o : MountOutcomes} {o' : CreateOutcomes}
    (hok : (mountOrCreate cfg two auto v o o' s).1 = some 0) :
    (MountedOn v (.partition v) (mountOrCreate cfg two auto v o o' s).2.trace ∧
      Appends v s (mountOrCreate cfg two auto v o o' s).2) ∨
    PartitionsMounted two (mountOrCreate cfg two auto v o o' s).2.trace := by
  rw [mountOrCreate_eq] at hok ⊢
  by_cases hst : o.status (s.fs v) = 0
  · simp only [if_pos hst]
    refine Or.inl ⟨mountedOn_initAndMountPartition h ?_, appends_initAndMountPartition v o s⟩
    rw [initAndMountPartition_status]
    exact hst
  · simp only [if_neg hst] at hok ⊢
    cases auto with
    | false => exact absurd (Option.some.inj hok) hst
    | true => exact Or.inr (mountedOn_createPartitions (ownParts_initAndMountPartition h v o) hok)

theorem ownParts_mountPartitions (h : OwnParts s) (o : Outcomes) : OwnParts (mountPartitions cfg two auto o s).2 := by
  have h1 := @ownParts_mountOrCreate cfg two auto s h .primary o.mount1 o.create1
  have h2 := @ownParts_mountOrCreate cfg two auto _ h1 .secondary o.mount2 o.create2
  unfold mountPartitions
  dsimp only
  split
  · exact h1
  split
  · split
    · exact h2
    · exact ⟨h2.part, h2.fs⟩
  · exact ⟨h1.part, h1.fs⟩

theorem mountPartitions_mounts (h : OwnParts s) {o : Outcomes} (hok : (mountPartitions cfg two auto o s).1 = some 0) :
    PartitionsMounted two (mountPartitions cfg two auto o s).2.trace := by
  have h1 := @ownParts_mountOrCreate cfg two auto s h .primary o.mount1 o.create1
  unfold mountPartitions at hok ⊢
  dsimp only at hok ⊢
  by_cases hst : (mountOrCreate cfg two auto .primary o.mount1 o.create1 s).1 = some 0
  swap
  · rw [if_pos hst] at hok
    exact absurd hok hst
  have hprimary : MountedOn .primary (.partition .primary)
      (mountOrCreate cfg two auto .primary o.mount1 o.create1 s).2.trace := by
    rcases mountOrCreate_mounts h hst with ⟨hmounted, _⟩ | hall
    · exact hmounted
    · exact hall.1
  rw [if_neg (not_not_intro hst)] at hok ⊢
  cases two with
  | false => exact ⟨hprimary, fun htwo => (nomatch htwo)⟩
  | true =>
    simp only [if_true] at hok ⊢
    by_cases hst2 : (mountOrCreate cfg true auto .secondary o.mount2 o.create2
        (mountOrCreate cfg true auto .primary o.mount1 o.create1 s).2).1 = some 0
    · rw [if_neg (not_not_intro hst2)]
      rcases mountOrCreate_mounts h1 hst2 with ⟨hmounted, happ⟩ | hall
      · exact ⟨happ.mountedOn (by simp) hprimary, fun _ => hmounted⟩
      · exact hall
    · rw [if_pos hst2] at hok
      exact absurd hok hst2

end Partitions

/-! ## One call -/

/-- A call, or the last part of it, has set the flag if it has returned 0, and has not halted if it has returned. -/
structure Reports (s : Storage) (r : Option Int × Storage) : Prop where
  flag : r.1 = some 0 → r.2.initDone = true
  running : r.1 ≠ none → r.2.halted = s.halted

section Call

variable {cfg : Config} {two auto : Bool} {s : Storage}

theorem halted_initAndMountPartition (v : Volume) (o : MountOutcomes) (s : Storage) :
    (initAndMountPartition v o s).2.halted = s.halted := by
  obtain ⟨ops, h⟩ := initAndMountPartition_state v o s
  rw [h]

theorem halted_createPartitions {o : CreateOutcomes} :
    (createPartitions cfg two o s).1 ≠ none → (createPartitions cfg two o s).2.halted = s.halted := by
  unfold createPartitions
  dsimp only
  split
  · exact fun h => absurd rfl h
  split
  · exact fun _ => rfl
  split
  · exact fun _ => halted_initAndMountPartition _ _ _
  split
  · exact fun _ => halted_initAndMountPartition _ _ _
  split
  · exact fun h => absurd rfl h
  split
  · exact fun _ => halted_initAndMountPartition _ _ _
  · exact fun _ => (halted_initAndMountPartition _ _ _).trans (halted_initAndMountPartition _ _ _)

theorem halted_mountOrCreate {v : Volume} {o : MountOutcomes} {o' : CreateOutcomes} :
    (mountOrCreate cfg two auto v o o' s).1 ≠ none → (mountOrCreate cfg two auto v o o' s).2.halted = s.halted := by
  have hmount := halted_initAndMountPartition v o s
  rw [mountOrCreate_eq]
  split
  · exact fun _ => hmount
  split
  · exact fun h => (halted_createPartitions h).trans hmount
  · exact fun _ => hmount

theorem reports_mountPartitions (o : Outcomes) : Reports s (mountPartitions cfg two auto o s) := by
  have h1 := @halted_mountOrCreate cfg two auto s .primary o.mount1 o.create1
  unfold mountPartitions
  dsimp only
  split
  · rename_i hfail
    exact ⟨fun hok => absurd hok hfail, h1⟩
  rename_i hok
  have hrunning := h1 (by rw [not_not.mp hok]; simp)
  split
  · have h2 := @halted_mountOrCreate cfg two auto
      (mountOrCreate cfg two auto .primary o.mount1 o.create1 s).2 .secondary o.mount2 o.create2
    split
    · rename_i hfail
      exact ⟨fun hok => absurd hok hfail, fun h => (h2 h).trans hrunning⟩
    · exact ⟨fun _ => rfl, fun h => (h2 h).trans hrunning⟩
  · exact ⟨fun _ => rfl, fun _ => hrunning⟩

theorem reports_mountDefault (o : Outcomes) : Reports s (mountDefault o s) := by
  obtain ⟨ops, h⟩ := testAndFormat_state .primary s.device o.mount1 (s.takeDefault o.mount1.construct)
  have hrunning : (testAndFormat .primary s.device o.mount1 (s.takeDefault o.mount1.construct)).2.halted = s.halted := by
    rw [h]
    unfold Storage.takeDefault
    dsimp only
    split <;> rfl
  unfold mountDefault
  dsimp only
  split
  · exact ⟨fun hnone => (nomatch hnone), fun h => absurd rfl h⟩
  split
  · rename_i hfail
    exact ⟨fun hok => absurd (Option.some.inj hok) hfail, fun _ => hrunning⟩
  · exact ⟨fun _ => rfl, fun _ => hrunning⟩

theorem reports_mountAll (o : Outcomes) : Reports s (mountAll cfg o s) := by
  unfold mountAll
  split
  · exact reports_mountDefault o
  · exact reports_mountPartitions o

/-- With the partition mode on, the pointers are not crossed. -/
def OwnPartsIn (cfg : Config) (s : Storage) : Prop := ∀ two auto, cfg.layout = .on two auto → OwnParts s

theorem ownPartsIn_mountAll (h : OwnPartsIn cfg s) (o : Outcomes) : OwnPartsIn cfg (mountAll cfg o s).2 := by
  intro two auto hlayout
  unfold mountAll
  rw [hlayout]
  exact ownParts_mountPartitions (h two auto hlayout) o

theorem mountedOn_mountDefault (hbd : s.bd = true) {o : Outcomes} (hok : (mountDefault o s).1 = some 0) :
    MountedOn .primary .whole (mountDefault o s).2.trace := by
  have hdevice : s.device = .whole := by rw [Storage.device, if_pos hbd]
  unfold mountDefault at hok ⊢
  dsimp only at hok ⊢
  by_cases hdefault : o.defaultFs = false
  · rw [if_pos hdefault] at hok
    cases hok
  rw [if_neg hdefault] at hok ⊢
  by_cases hst : (testAndFormat .primary s.device o.mount1 (s.takeDefault o.mount1.construct)).1 = 0
  · rw [if_neg (not_not_intro hst)]
    rw [hdevice] at hst ⊢
    exact mountedOn_testAndFormat hst
  · rw [if_pos hst] at hok
    exact absurd (Option.some.inj hok) hst

/-- **What a call that is not short-cut mounts.** -/
theorem mountedOn_mountAll (h : OwnPartsIn cfg s) (hbd : s.bd = true) {o : Outcomes}
    (hok : (mountAll cfg o s).1 = some 0) {v : Volume} (hv : cfg.layout.Configured v) :
    MountedOn v (cfg.layout.device v) (mountAll cfg o s).2.trace := by
  unfold mountAll at hok ⊢
  cases hlayout : cfg.layout with
  | off =>
    rw [hlayout] at hok hv
    revert v
    rw [Layout.forall_off]
    exact mountedOn_mountDefault hbd hok
  | on two auto =>
    rw [hlayout] at hok hv
    revert v
    rw [Layout.forall_on]
    exact mountPartitions_mounts (h two auto hlayout) hok

/-- The ends of a call with a block device: there is nothing to do, the block device fails, or it is used. -/
theorem storageInit_cases (cfg : Config) (s : Storage) {o : Outcomes} (hbd : o.bd = true) :
    (s.initDone = true ∧ storageInit cfg o s = (some 0, { s with trace := [] })) ∨
    (s.initDone = false ∧ storageInit cfg o s = (some (-1), { s with bd := true, trace := [.bdInit o.bdInit] })) ∨
    (s.initDone = false ∧ storageInit cfg o s =
      mountAll cfg o { s with bd := true, size := o.size, trace := [.bdInit o.bdInit] }) := by
  unfold storageInit
  cases hdone : s.initDone with
  | true => exact Or.inl ⟨rfl, by simp only [if_true]⟩
  | false =>
    simp only [Bool.false_eq_true, if_false, hbd, if_true]
    by_cases hi : o.bdInit = 0
    · exact Or.inr (Or.inr ⟨trivial, by rw [if_neg (not_not_intro hi)]; rfl⟩)
    · exact Or.inr (Or.inl ⟨trivial, by rw [if_pos hi]; rfl⟩)

end Call

/-! ## Any number of calls -/

/-- A call with a block device and, with the partition mode off, a default file system. -/
structure Call (cfg : Config) where
  outcomes : Outcomes
  bd : outcomes.bd = true
  defaultFs : cfg.layout = .off → outcomes.defaultFs = true

/-- The storage with the operations of all calls so far, and what the last call has returned. -/
structure CallLog where
  storage : Storage
  history : List Op
  returned : Option Int

def CallLog.start : CallLog := ⟨.fresh, [], none⟩

/-- One more call, while the program runs. -/
def callStep (cfg : Config) (l : CallLog) (c : Call cfg) : Option CallLog :=
  if l.storage.halted then none
  else
    let r := storageInit cfg c.outcomes l.storage
    some ⟨r.2, l.history ++ r.2.trace, r.1⟩

/-- After a call that returns 0 all is mounted; the flag is set exactly after such a call; and a call that returns, whatever
it returns, can be followed by another. -/
structure Honest (cfg : Config) (l : CallLog) : Prop where
  mounted : l.returned = some 0 → ∀ v, cfg.layout.Configured v → MountedOn v (cfg.layout.device v) l.history
  flag : l.storage.initDone = true ↔ l.returned = some 0
  retry : l.returned ≠ none → l.storage.halted = false

section Calls

variable {cfg : Config} {l : CallLog}

theorem honest_storageInit (hl : Honest cfg l) (hparts : OwnPartsIn cfg l.storage) (hrun : l.storage.halted = false)
    (c : Call cfg) :
    Honest cfg ⟨(storageInit cfg c.outcomes l.storage).2, l.history ++ (storageInit cfg c.outcomes l.storage).2.trace,
      (storageInit cfg c.outcomes l.storage).1⟩ ∧ OwnPartsIn cfg (storageInit cfg c.outcomes l.storage).2 := by
  rcases storageInit_cases cfg l.storage c.bd with ⟨hdone, h⟩ | ⟨hdone, h⟩ | ⟨hdone, h⟩
  · rw [h]
    refine ⟨⟨fun _ v hv => ?_, iff_of_true hdone rfl, fun _ => hrun⟩, fun two auto hlayout => ?_⟩
    · simpa using hl.mounted (hl.flag.mp hdone) v hv
    · exact ⟨(hparts two auto hlayout).part, (hparts two auto hlayout).fs⟩
  · rw [h]
    refine ⟨⟨fun hok => absurd hok (by simp), iff_of_false (by simp [hdone]) (by simp), fun _ => hrun⟩,
      fun two auto hlayout => ?_⟩
    exact ⟨(hparts two auto hlayout).part, (hparts two auto hlayout).fs⟩
  · have hown : OwnPartsIn cfg
        { l.storage with bd := true, size := c.outcomes.size, trace := [.bdInit c.outcomes.bdInit] } :=
      fun two auto hlayout => ⟨(hparts two auto hlayout).part, (hparts two auto hlayout).fs⟩
    obtain ⟨hflag, hrunning⟩ := @reports_mountAll cfg
      { l.storage with bd := true, size := c.outcomes.size, trace := [.bdInit c.outcomes.bdInit] } c.outcomes
    rw [h]
    refine ⟨⟨fun hok v hv => ?_, ?_, fun hret => ?_⟩, ownPartsIn_mountAll hown c.outcomes⟩
    · exact Since.of_right (mountedOn_mountAll hown rfl hok hv) l.history
    · refine ⟨fun hset => ?_, hflag⟩
      by_contra hfail
      rcases @mountAll_done cfg
        { l.storage with bd := true, size := c.outcomes.size, trace := [.bdInit c.outcomes.bdInit] } c.outcomes with
        ⟨hok, _⟩ | ⟨_, hkept⟩
      · exact hfail hok
      · rw [hkept] at hset
        exact absurd hset (by simp [hdone])
    · exact (hrunning hret).trans hrun

/-- **In every run of calls success means that everything is mounted**, and failure leaves a retry. -/
theorem honest_always (cfg : Config) (cs : List (Call cfg)) : Always (Honest cfg) (callStep cfg) .start cs := by
  rw [always_iff]
  intro pre _ l hrun
  have hstart : Honest cfg .start := ⟨fun h => (nomatch h), by simp [CallLog.start, Storage.fresh], fun h => absurd rfl h⟩
  have hparts : OwnPartsIn cfg CallLog.start.storage := fun _ _ _ => ⟨fun _ => Or.inl rfl, fun _ hfs => (nomatch hfs)⟩
  refine (run_invariant (fun l => Honest cfg l ∧ OwnPartsIn cfg l.storage) ⟨hstart, hparts⟩ ?_ hrun).1
  rintro l c l' ⟨hl, hown⟩ hstep
  unfold callStep at hstep
  split at hstep
  · cases hstep
  · rename_i hhalted
    cases hstep
    exact honest_storageInit hl hown (Bool.eq_false_iff.mpr hhalted) c

end Calls

end PelionClient.Platform
