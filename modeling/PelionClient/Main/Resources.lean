import PelionClient.Beacon.View
import PelionClient.Client.Value

/-!
# The resources of the application (`main_application`)

Before it registers, `main_application` creates thirteen resources: two that the cloud can execute, a temperature for each
slot of the beacon table, and the bitmap. It keeps the pointers to the last eleven, and `update_beacon_cloud_data` writes
through them. `Mirrors` ties the tree to the resources as `Beacon.Device` has them, two vectors of values: the creation
makes it true (`mirrors_createResources`), a publication keeps it and never goes through NULL (`mirrors_publish`), and so
does every run (`tree_refines`).

How the client library writes a number as a value is a parameter (`ValueFormat`), and so is how it serves a PUT
(`RequestLibrary`).
-/

namespace PelionClient.Main

open Lib Beacon Client

/-- `M2MResourceInstance::ResourceType` -/
inductive DataType
  | string
  | integer
  | float
deriving DecidableEq, Repr

/-- `M2MBase::POST_ALLOWED` -/
def postAllowed : Operation := ⟨false, false, true, false⟩

/-- `M2MBase::GET_PUT_ALLOWED` -/
def getPutAllowed : Operation := ⟨true, true, false, false⟩

/-- `sprintf("%02x", i)` -/
def hex2 (i : Nat) : List Char := List.replicate (2 - (Nat.toDigits 16 i).length) '0' ++ Nat.toDigits 16 i

/-- `res_name` -/
def resName (i : Nat) : String := "beacon_" ++ String.ofList (hex2 i) ++ "_temperature"

/-! ## Creating the resources -/

/-- The addresses of the two functions that the cloud can call. -/
structure Callbacks where
  unregister : Pointer
  factoryReset : Pointer
  distinct : unregister ≠ factoryReset

def unregisterCall (cb : Callbacks) : AddCall DataType :=
  ⟨5000, 0, 1, "unregister", .string, postAllowed, none, false, cb.unregister, 0⟩

def factoryResetCall (cb : Callbacks) : AddCall DataType :=
  ⟨5000, 0, 2, "factory_reset", .string, postAllowed, none, false, cb.factoryReset, 0⟩

def beaconCall (i : Fin maxConnectedBeacons) : AddCall DataType :=
  ⟨3303, UInt16.ofNat i, 5700, resName i, .float, getPutAllowed, some "", true, 0, 0⟩

def bitmapCall : AddCall DataType :=
  ⟨3201, 0, 5853, "beacon_validity_bitmap", .integer, getPutAllowed, none, true, 0, 0⟩

/-- The calls of `add_cloud_resource`, in order. -/
def cloudCalls (cb : Callbacks) : List (AddCall DataType) :=
  unregisterCall cb :: factoryResetCall cb :: ((List.finRange maxConnectedBeacons).map beaconCall ++ [bitmapCall])

/-- The tree and the pointers into it. -/
structure CloudTree where
  objList : List (Object DataType)
  beaconDataResTbl : Vector ResourcePointer maxConnectedBeacons
  pelionDataValidBmp : ResourcePointer

/-- The body of the loop at `i`. -/
def createBeacon (lib : ClientLibrary) (t : CloudTree) (i : Fin maxConnectedBeacons) : Option CloudTree :=
  (addCloudResourcePtr lib t.objList (beaconCall i)).map fun p =>
    { t with objList := p.1, beaconDataResTbl := t.beaconDataResTbl.set i p.2 i.isLt }

/-- The part of `main_application` that creates the resources. -/
def createResources (lib : ClientLibrary) (cb : Callbacks) : Option CloudTree := do
  let (objList, _) ← addCloudResourcePtr lib [] (unregisterCall cb)
  let (objList, _) ← addCloudResourcePtr lib objList (factoryResetCall cb)
  let t ← run (createBeacon lib) ⟨objList, Vector.replicate maxConnectedBeacons none, none⟩
    (List.finRange maxConnectedBeacons)
  let (objList, bitmap) ← addCloudResourcePtr lib t.objList bitmapCall
  return { t with objList := objList, pelionDataValidBmp := bitmap }

/-! ## Publishing through the pointers -/

/-- The text of the value that `set_value_float` and `set_value` set. -/
structure ValueFormat where
  float : ℚ → String
  integer : Int → String

/-- The statics that the main loop works on. -/
structure Application where
  beacons : BeaconState
  tree : CloudTree

/-- The body of the loop of `update_beacon_cloud_data`. -/
def publishBeacon (fmt : ValueFormat) : Application × Nat → Fin maxConnectedBeacons → Option (Application × Nat)
  | (s, updatedCount), i =>
    let beacon := s.beacons.beaconTbl[i]
    if beacon.Used ∧ beacon.updated ≠ 0 then
      (setValue s.tree.beaconDataResTbl[i] (fmt.float beacon.temp) s.tree.objList).map fun objList =>
        ({ beacons := { s.beacons with beaconTbl := s.beacons.beaconTbl.set i { beacon with updated := 0 } }
           tree := { s.tree with objList := objList } }, updatedCount + 1)
    else some (s, updatedCount)

/-- `update_beacon_cloud_data` on the tree. -/
def publishTree (fmt : ValueFormat) (s : Application) : Option (Application × Nat) := do
  let (s, updatedCount) ← run (publishBeacon fmt) (s, 0) (List.finRange maxConnectedBeacons)
  let objList ← setValue s.tree.pelionDataValidBmp (fmt.integer (s.beacons.dataValidBmp.setWidth 64).toInt) s.tree.objList
  return ({ s with tree := { s.tree with objList := objList } }, updatedCount)

/-- A PUT for the path. There is no function of the application that could be called with it. -/
def putTree (lib : RequestLibrary DataType) (s : Application) (p : ResourcePath) (v : String) : Option Application :=
  let (objList, f) := lib.put p v s.tree.objList
  match f with
  | none => some { s with tree := { s.tree with objList := objList } }
  | some _ => none

/-- What the main loop and the radio do, with the resources in the tree. -/
def treeStep (fmt : ValueFormat) (s : Application) : BleOp → Option Application
  | .advert a => (onScan s.beacons a.now a.data).toOption.map fun b => { s with beacons := b }
  | .rejected now data _ => (onScan s.beacons now data).toOption.map fun b => { s with beacons := b }
  | .publish => (publishTree fmt s).map Prod.fst

/-! ## What the tree shows -/

/-- The value that the device has written to the resource at a path. -/
def writtenValue (fmt : ValueFormat) (cloud : Beacon.Resources) (p : ResourcePath) : Option String :=
  if p.objectId = 3303 ∧ p.resourceId = 5700 then
    if h : p.instanceId.toNat < maxConnectedBeacons then
      (cloud.beaconData[(⟨p.instanceId.toNat, h⟩ : Fin maxConnectedBeacons)]).map fmt.float
    else none
  else if p = bitmapCall.path then cloud.dataValidBmp.map fun bmp => fmt.integer bmp.toInt
  else none

/-- The values `val` with those that the device has written over them. -/
def shownOver (fmt : ValueFormat) (cloud : Beacon.Resources) (val : AddCall DataType → Option String)
    (c : AddCall DataType) : Option String :=
  (writtenValue fmt cloud c.path).or (val c)

/-- The value of a resource: the last one written, or that of its call. -/
def shownValue (fmt : ValueFormat) (cloud : Beacon.Resources) : AddCall DataType → Option String :=
  shownOver fmt cloud AddCall.value

/-- The tree has the thirteen resources, with the values `val`, and the pointers point to them. -/
structure Shows (cb : Callbacks) (b : BeaconState) (val : AddCall DataType → Option String) (s : Application) : Prop where
  beacons : s.beacons = b
  values : Holds (cloudCalls cb) val s.tree.objList
  beaconPointers : ∀ i : Fin maxConnectedBeacons, s.tree.beaconDataResTbl[i] = some (beaconCall i).path
  bitmapPointer : s.tree.pelionDataValidBmp = some bitmapCall.path

/-- The values are those in `d.cloud`. -/
abbrev Mirrors (fmt : ValueFormat) (cb : Callbacks) (d : Device) (s : Application) : Prop :=
  Shows cb d.beacons (shownValue fmt d.cloud) s

theorem Shows.withBeacons {cb : Callbacks} {b : BeaconState} {val : AddCall DataType → Option String} {s : Application}
    (h : Shows cb b val s) (b' : BeaconState) : Shows cb b' val { s with beacons := b' } :=
  ⟨rfl, h.values, h.beaconPointers, h.bitmapPointer⟩

section Create

variable {lib : ClientLibrary}

theorem addCloudResourcePtr_of_some {list list' : List (Object DataType)} {c : AddCall DataType}
    (h : addCloudResource lib list c = some list') : addCloudResourcePtr lib list c = some (list', some c.path) := by
  rw [addCloudResourcePtr, h, Option.map_some]

/-- The loop creates the resources of the slots and keeps their pointers. -/
theorem createBeacons_run {is : List (Fin maxConnectedBeacons)} {t : CloudTree} {list : List (Object DataType)}
    (h : run (addCloudResource lib) t.objList (is.map beaconCall) = some list) :
    ∃ u, run (createBeacon lib) t is = some u ∧ u.objList = list ∧
      ∀ i, u.beaconDataResTbl[i] = if i ∈ is then some (beaconCall i).path else t.beaconDataResTbl[i] := by
  induction is generalizing t with
  | nil =>
    cases h
    exact ⟨t, rfl, rfl, fun i => (if_neg List.not_mem_nil).symm⟩
  | cons i is ih =>
    rw [List.map_cons, run_cons, Option.bind_eq_some_iff] at h
    obtain ⟨list', hadd, hrest⟩ := h
    have hcreate : createBeacon lib t i =
        some ⟨list', t.beaconDataResTbl.set i (some (beaconCall i).path), t.pelionDataValidBmp⟩ := by
      rw [createBeacon, addCloudResourcePtr_of_some hadd, Option.map_some]
    obtain ⟨u, hu, hlist, hptr⟩ :=
      @ih ⟨list', t.beaconDataResTbl.set i (some (beaconCall i).path), t.pelionDataValidBmp⟩ hrest
    refine ⟨u, by rw [run_cons, hcreate, Option.bind_some, hu], hlist, fun j => ?_⟩
    rw [hptr j]
    simp only [getElem_slot, Vector.getElem_set, Fin.val_inj, List.mem_cons, eq_comm (a := i)]
    by_cases hj : j ∈ is
    · rw [if_pos hj, if_pos (Or.inr hj)]
    · by_cases hji : j = i
      · subst hji
        rw [if_neg hj, if_pos rfl, if_pos (Or.inl rfl)]
      · rw [if_neg hj, if_neg hji, if_neg (not_or.mpr ⟨hji, hj⟩)]

theorem triples_nodup (cb : Callbacks) : ((cloudCalls cb).map AddCall.triple).Nodup := by
  show ((5000, 0, 1) :: (5000, 0, 2) :: ((List.finRange maxConnectedBeacons).map beaconCall ++ [bitmapCall]).map
    AddCall.triple).Nodup
  decide

/-- The paths of the calls are distinct. -/
theorem path_unique (cb : Callbacks) {c d : AddCall DataType} (hc : c ∈ cloudCalls cb) (hd : d ∈ cloudCalls cb)
    (h : c.path = d.path) : c = d := by
  refine List.inj_on_of_nodup_map (triples_nodup cb) hc hd ?_
  rw [AddCall.triple, AddCall.triple]
  simp only [AddCall.path, ResourcePath.mk.injEq] at h
  rw [h.1, h.2.1, h.2.2]

/-- Where nothing has been written. -/
theorem shownOver_blank (fmt : ValueFormat) (val : AddCall DataType → Option String) : shownOver fmt .blank val = val := by
  funext c
  have hnone : writtenValue fmt .blank c.path = none := by
    unfold writtenValue Resources.blank
    split
    · split
      · simp
      · rfl
    · split <;> rfl
  rw [shownOver, hnone, Option.none_or]

/-- **The thirteen calls succeed**, and leave the tree and the pointers as the publication needs them. -/
theorem shows_createResources (lib : ClientLibrary) (cb : Callbacks) :
    ∃ tree, createResources lib cb = some tree ∧ Shows cb .init AddCall.value ⟨.init, tree⟩ := by
  obtain ⟨list, hrun, hb⟩ := built_run lib (cloudCalls cb) (triples_nodup cb)
  obtain ⟨first, hfirst, hrun⟩ := Option.bind_eq_some_iff.mp hrun
  obtain ⟨second, hsecond, hrun⟩ := Option.bind_eq_some_iff.mp hrun
  obtain ⟨third, hthird, hlast⟩ := run_snoc.mp hrun
  obtain ⟨u, hu, rfl, hptr⟩ := @createBeacons_run lib _ ⟨second, Vector.replicate maxConnectedBeacons none, none⟩ _ hthird
  refine ⟨⟨list, u.beaconDataResTbl, some bitmapCall.path⟩, ?_, rfl, hb.holds, fun i => ?_, rfl⟩
  · simp only [createResources, addCloudResourcePtr_of_some hfirst, addCloudResourcePtr_of_some hsecond, hu,
      addCloudResourcePtr_of_some hlast, Option.bind_eq_bind, Option.bind_some]
    rfl
  · rw [hptr i, if_pos (List.mem_finRange i)]

theorem mirrors_createResources (lib : ClientLibrary) (fmt : ValueFormat) (cb : Callbacks) :
    ∃ tree, createResources lib cb = some tree ∧ Mirrors fmt cb .init ⟨.init, tree⟩ := by
  obtain ⟨tree, htree, hshows⟩ := shows_createResources lib cb
  refine ⟨tree, htree, ?_⟩
  rw [Mirrors, shownValue, show Device.init.cloud = .blank from rfl, shownOver_blank]
  exact hshows

end Create

/-! ## Writing values -/

section Values

variable (fmt : ValueFormat) (cloud : Beacon.Resources) (val : AddCall DataType → Option String)

theorem toNat_instanceId (i : Fin maxConnectedBeacons) : (UInt16.ofNat i.val).toNat = i.val := by
  rw [UInt16.toNat_ofNat']
  exact Nat.mod_eq_of_lt (Nat.lt_trans i.isLt (by decide))

/-- The path of a temperature names its slot. -/
theorem path_eq_beacon {p : ResourcePath} {i : Fin maxConnectedBeacons} :
    p = (beaconCall i).path ↔ (p.objectId = 3303 ∧ p.resourceId = 5700) ∧ p.instanceId.toNat = i.val := by
  obtain ⟨o, n, r⟩ := p
  have hinst : n = UInt16.ofNat i.val ↔ n.toNat = i.val := by
    rw [← UInt16.toNat_inj, toNat_instanceId]
  simp only [AddCall.path, beaconCall, ResourcePath.mk.injEq, ← hinst]
  tauto

/-- A temperature written through its pointer is the one of its slot. -/
theorem shownOver_beacon (i : Fin maxConnectedBeacons) (q : ℚ) (c : AddCall DataType) :
    (if c.path = (beaconCall i).path then some (fmt.float q) else shownOver fmt cloud val c) =
      shownOver fmt { cloud with beaconData := cloud.beaconData.set i (some q) i.isLt } val c := by
  unfold shownOver writtenValue
  by_cases hids : c.path.objectId = 3303 ∧ c.path.resourceId = 5700
  · rw [if_pos hids, if_pos hids]
    by_cases hlt : c.path.instanceId.toNat < maxConnectedBeacons
    · rw [dif_pos hlt, dif_pos hlt]
      simp only [getElem_slot, Vector.getElem_set]
      by_cases hi : i.val = c.path.instanceId.toNat
      · rw [if_pos (path_eq_beacon.mpr ⟨hids, hi.symm⟩), if_pos hi, Option.map_some, Option.some_or]
      · rw [if_neg fun hp => hi (path_eq_beacon.mp hp).2.symm, if_neg hi]
    · have hne : c.path ≠ (beaconCall i).path := fun hp => hlt ((path_eq_beacon.mp hp).2 ▸ i.isLt)
      rw [if_neg hne, dif_neg hlt, dif_neg hlt]
  · rw [if_neg fun hp => hids (path_eq_beacon.mp hp).1, if_neg hids, if_neg hids]

/-- So is the bitmap. -/
theorem shownOver_bitmap (bmp : BitVec 64) (c : AddCall DataType) :
    (if c.path = bitmapCall.path then some (fmt.integer bmp.toInt) else shownOver fmt cloud val c) =
      shownOver fmt { cloud with dataValidBmp := some bmp } val c := by
  unfold shownOver writtenValue
  by_cases hp : c.path = bitmapCall.path
  · have hids : ¬(c.path.objectId = 3303 ∧ c.path.resourceId = 5700) := by
      rw [hp]
      decide
    rw [if_pos hp, if_neg hids, if_pos hp, Option.map_some, Option.some_or]
  · rw [if_neg hp, if_neg hp, if_neg hp]

end Values

section Publish

variable {fmt : ValueFormat} {cb : Callbacks} {d : Device} {val : AddCall DataType → Option String} {s : Application}

theorem beaconCall_mem (cb : Callbacks) (i : Fin maxConnectedBeacons) : beaconCall i ∈ cloudCalls cb := by
  refine List.mem_cons_of_mem _ (List.mem_cons_of_mem _ (List.mem_append_left _ ?_))
  exact List.mem_map_of_mem (List.mem_finRange i)

theorem bitmapCall_mem (cb : Callbacks) : bitmapCall ∈ cloudCalls cb :=
  List.mem_cons_of_mem _ (List.mem_cons_of_mem _ (List.mem_append_right _ (List.mem_singleton_self _)))

/-- One slot. -/
theorem shows_publishBeacon (h : Shows cb d.beacons (shownOver fmt d.cloud val) s) (n : Nat) (i : Fin maxConnectedBeacons) :
    ∃ t, publishBeacon fmt (s, n) i = some (t, (publishSlot (d, n) i).2) ∧
      Shows cb (publishSlot (d, n) i).1.beacons (shownOver fmt (publishSlot (d, n) i).1.cloud val) t := by
  obtain ⟨hbeacons, hvalues, hptr, hbmp⟩ := h
  unfold publishBeacon publishSlot
  simp only [hbeacons, hptr i]
  split
  · obtain ⟨objList, hset, hholds⟩ := hvalues.setValue (beaconCall_mem cb i) (fmt.float d.beacons.beaconTbl[i].temp)
    simp only [shownOver_beacon] at hholds
    refine ⟨⟨{ d.beacons with beaconTbl := d.beacons.beaconTbl.set i { d.beacons.beaconTbl[i] with updated := 0 } },
      { s.tree with objList := objList }⟩, ?_, rfl, hholds, hptr, hbmp⟩
    rw [hset]
    rfl
  · exact ⟨s, rfl, hbeacons, hvalues, hptr, hbmp⟩

/-- The loop. -/
theorem shows_publishBeacons (is : List (Fin maxConnectedBeacons)) (h : Shows cb d.beacons (shownOver fmt d.cloud val) s) (n : Nat) :
    ∃ t, run (publishBeacon fmt) (s, n) is = some (t, (is.foldl publishSlot (d, n)).2) ∧
      Shows cb (is.foldl publishSlot (d, n)).1.beacons (shownOver fmt (is.foldl publishSlot (d, n)).1.cloud val) t := by
  induction is generalizing d s n with
  | nil => exact ⟨s, rfl, h⟩
  | cons i is ih =>
    obtain ⟨t, hstep, ht⟩ := shows_publishBeacon h n i
    obtain ⟨u, hu, hshows⟩ := ih ht (publishSlot (d, n) i).2
    exact ⟨u, by rw [run_cons, hstep, Option.bind_some, hu]; rfl, hshows⟩

/-- **A publication writes to the tree what it writes to the resources**, and counts the same. -/
theorem shows_publish (h : Shows cb d.beacons (shownOver fmt d.cloud val) s) :
    ∃ t, publishTree fmt s = some (t, (updateBeaconCloudData d).2) ∧
      Shows cb (updateBeaconCloudData d).1.beacons (shownOver fmt (updateBeaconCloudData d).1.cloud val) t := by
  have hloop := shows_publishBeacons (List.finRange maxConnectedBeacons) h 0
  rw [← publishSlots] at hloop
  unfold updateBeaconCloudData
  generalize publishSlots d = p at hloop ⊢
  obtain ⟨t, hrun, hbeacons, hvalues, hptr, hbmp⟩ := hloop
  obtain ⟨objList, hset, hholds⟩ := hvalues.setValue (bitmapCall_mem cb)
    (fmt.integer (t.beacons.dataValidBmp.setWidth 64).toInt)
  simp only [shownOver_bitmap] at hholds
  refine ⟨{ t with tree := { t.tree with objList := objList } }, ?_, hbeacons, ?_, hptr, hbmp⟩
  · simp only [publishTree, hrun, Option.bind_eq_bind, Option.bind_some, hbmp, hset]
    rfl
  · rw [hbeacons] at hholds
    exact hholds

/-! ## A PUT -/

/-- Where PUT is allowed the function is NULL. -/
theorem cb_of_putAllowed {c : AddCall DataType} (hc : c ∈ cloudCalls cb) (hput : c.allowed.putAllowed = true) : c.cb = 0 := by
  simp only [cloudCalls, List.mem_cons, List.mem_append, List.mem_map, List.not_mem_nil, or_false] at hc
  rcases hc with rfl | rfl | ⟨i, _, rfl⟩ | rfl
  · cases hput
  · cases hput
  · rfl
  · rfl

/-- **A PUT writes the resource of its path**, if that allows PUT, and calls nothing. -/
theorem shows_put (lib : RequestLibrary DataType) {b : BeaconState} (h : Shows cb b val s) (p : ResourcePath) (v : String) :
    ∃ t, putTree lib s p v = some t ∧
      Shows cb b (fun c => if c.path = p ∧ c.allowed.putAllowed = true then some v else val c) t := by
  have hnone : (lib.put p v s.tree.objList).2 = none := by
    refine Option.eq_none_iff_forall_ne_some.mpr fun f hf => ?_
    obtain ⟨hnull, c, hc, _, hput, rfl⟩ := h.values.put_calls hf
    exact hnull (cb_of_putAllowed hc hput)
  have hholds := h.values.put lib p v fun c hc d hd hp hp' => path_unique cb hc hd (hp.trans hp'.symm)
  refine ⟨{ s with tree := { s.tree with objList := (lib.put p v s.tree.objList).1 } }, ?_, h.beacons, hholds,
    h.beaconPointers, h.bitmapPointer⟩
  unfold putTree
  generalize lib.put p v s.tree.objList = r at hnone
  obtain ⟨objList, f⟩ := r
  cases hnone
  rfl

/-! ## Runs -/

theorem mirrors_step (h : Mirrors fmt cb d s) {e : Device} {op : BleOp} (hd : bleStep d op = some e) :
    ∃ t, treeStep fmt s op = some t ∧ Mirrors fmt cb e t := by
  cases op with
  | advert a =>
    obtain ⟨b, hb, rfl⟩ := Option.map_eq_some_iff.mp hd
    exact ⟨{ s with beacons := b }, by rw [treeStep, h.beacons, hb, Option.map_some], rfl, h.values, h.beaconPointers,
      h.bitmapPointer⟩
  | rejected now data hno =>
    obtain ⟨b, hb, rfl⟩ := Option.map_eq_some_iff.mp hd
    exact ⟨{ s with beacons := b }, by rw [treeStep, h.beacons, hb, Option.map_some], rfl, h.values, h.beaconPointers,
      h.bitmapPointer⟩
  | publish =>
    obtain rfl : (updateBeaconCloudData d).1 = e := Option.some.inj hd
    obtain ⟨t, ht, hmirrors⟩ := shows_publish h
    exact ⟨t, by rw [treeStep, ht, Option.map_some], hmirrors⟩

end Publish

/-- **The tree refines the vectors of values**, over every run from the resources that `main_application` creates: no
publication goes through NULL, and every resource has the value last written to it, or the one it was created with. -/
theorem tree_refines (lib : ClientLibrary) (fmt : ValueFormat) (cb : Callbacks) (ops : List BleOp) :
    ∃ tree, createResources lib cb = some tree ∧ ∃ d s, run bleStep .init ops = some d ∧
      run (treeStep fmt) ⟨.init, tree⟩ ops = some s ∧ Mirrors fmt cb d s := by
  obtain ⟨tree, htree, hinit⟩ := mirrors_createResources lib fmt cb
  obtain ⟨d, hd, -⟩ := linked_run ops
  obtain ⟨s, hs, hmirrors⟩ := run_simulates (g := treeStep fmt) (Mirrors fmt cb) hinit
    (fun _ _ _ _ _ h hstep => mirrors_step h hstep) hd
  exact ⟨tree, htree, d, s, hd, hs, hmirrors⟩

end PelionClient.Main
