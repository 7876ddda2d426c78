import PelionClient.Beacon.Schedule
import PelionClient.Main.Program

/-!
# The main loop without BLE, on the resource tree

With `FEA_BLE` 0 an iteration of the loop works on the same tree as the publication of the scan loop does, and the cloud can
PUT values between the iterations, as the client library serves them (`RequestLibrary`). Iteration `n` writes the temperature
of one slot and the bitmap (`scheduledPublication`), whatever has been put before. So the value of every resource is known
for ever (`dummy_tree`).
-/

namespace PelionClient.Main

open Lib Beacon
open Client (AddCall RequestLibrary ResourcePath)

/-- The statics, and `dummy_update_idx`. -/
structure DummyLoop where
  app : Application
  dummyUpdateIdx : UInt8

/-- An iteration when `time(NULL)` is `now`, with the number of temperatures published. -/
def dummyIteration (fmt : ValueFormat) (s : DummyLoop) (now : Int) : Except ProgramFault (DummyLoop × Nat) := do
  let beacons ← (addDummyConnected s.app.beacons).mapError .beacon
  let tbl ← (dummyUpdateBeaconData beacons.beaconTbl s.dummyUpdateIdx now).mapError .beacon
  let idx := if s.dummyUpdateIdx.toNat < maxConnectedBeacons - 1 then s.dummyUpdateIdx + 1 else 0
  match publishTree fmt { s.app with beacons := { beacons with beaconTbl := tbl } } with
  | some (app, updatedCount) => return (⟨app, idx⟩, updatedCount)
  | none => .error .nullResource

inductive DummyAct
  | iterate (now : Int)
  /-- The cloud client gets a PUT of the value for the path. -/
  | put (p : ResourcePath) (v : String)
deriving DecidableEq, Repr

def dummyStep (lib : RequestLibrary DataType) (fmt : ValueFormat) (s : DummyLoop) : DummyAct → Option DummyLoop
  | .iterate now => (dummyIteration fmt s now).toOption.map Prod.fst
  | .put p v => (putTree lib s.app p v).map fun app => { s with app := app }

/-! ## What an iteration writes -/

/-- What iteration `n` publishes: the temperature of its slot, and the bits of the beacons that have been added. -/
def scheduledPublication (n : Nat) : Beacon.Resources where
  beaconData := Vector.ofFn fun i => if i = scheduledSlot n then some (tempAfter (updatesOf i (n + 1))) else none
  dataValidBmp := some (BitVec.ofNat 64 (2 ^ min (n + 1) maxConnectedBeacons - 1))

section Vectors

variable {n : Nat} {d : Device} {s : LoopState}

/-- The add and the update of an iteration. -/
theorem scheduled_update (h : Scheduled n s) (now : Int) :
    ∃ b, addDummyConnected s.device.beacons = .ok b ∧ Added n ⟨b, s.device.cloud⟩ ∧
      dummyUpdateBeaconData b.beaconTbl s.dummyUpdateIdx now =
        .ok (Device.dummyUpdated ⟨b, s.device.cloud⟩ n now).beacons.beaconTbl := by
  obtain ⟨b, hadd, hadded⟩ := h.added
  have hidx : s.dummyUpdateIdx.toNat < maxConnectedBeacons := h.idx ▸ Nat.mod_lt n (by decide)
  refine ⟨b, hadd, hadded, ?_⟩
  rw [dummyUpdateBeaconData_of_lt hidx]
  simp only [h.idx, Device.dummyUpdated, scheduledSlot, getElem_slot]

/-- **What the publication of iteration `n` writes.** -/
theorem cloud_scheduledPublication (h : Added n d) (now : Int) :
    (updateBeaconCloudData ⟨(d.dummyUpdated n now).beacons, .blank⟩).1.cloud = scheduledPublication n := by
  have hdata : (updateBeaconCloudData ⟨(d.dummyUpdated n now).beacons, .blank⟩).1.cloud.beaconData =
      (scheduledPublication n).beaconData := by
    apply Vector.ext
    intro k hk
    have hval : (scheduledPublication n).beaconData[k] =
        if ⟨k, hk⟩ = scheduledSlot n then some (tempAfter (updatesOf k (n + 1))) else none := by
      simp [scheduledPublication]
    have hblank : (⟨(d.dummyUpdated n now).beacons, .blank⟩ : Device).slot ⟨k, hk⟩ =
        (((d.dummyUpdated n now).slot ⟨k, hk⟩).1, none) := by
      simp [Device.slot, Resources.blank]
    rw [hval, getElem_beaconData, slot_updateBeaconCloudData, hblank, published_blank]
    simp only [h.marked now ⟨k, hk⟩]
    split
    · rename_i hslot
      have hlt : k < n + 1 := by
        have hval : k = n % maxConnectedBeacons := congrArg Fin.val hslot
        have hle : n % maxConnectedBeacons ≤ n := Nat.mod_le n _
        omega
      rw [← (h.published now ⟨k, hk⟩ hlt).temp, published_temp]
    · rfl
  have hbmp : (updateBeaconCloudData ⟨(d.dummyUpdated n now).beacons, .blank⟩).1.cloud.dataValidBmp =
      (scheduledPublication n).dataValidBmp := by
    have hlt : 2 ^ min (n + 1) maxConnectedBeacons - 1 < 2 ^ 16 := by
      have hpow : 2 ^ min (n + 1) maxConnectedBeacons ≤ 2 ^ 10 := Nat.pow_le_pow_right (by decide) (Nat.min_le_right _ 10)
      omega
    have hbits : (d.dummyUpdated n now).beacons.dataValidBmp = BitVec.ofNat 16 (2 ^ min (n + 1) maxConnectedBeacons - 1) :=
      h.connected.bmp
    rw [cloudBmp_updateBeaconCloudData]
    refine congrArg some (BitVec.eq_of_toNat_eq ?_)
    simp only [hbits, BitVec.toNat_setWidth, BitVec.toNat_ofNat]
    omega
  generalize (updateBeaconCloudData ⟨(d.dummyUpdated n now).beacons, .blank⟩).1.cloud = cloud at hdata hbmp ⊢
  calc cloud = ⟨cloud.beaconData, cloud.dataValidBmp⟩ := rfl
    _ = scheduledPublication n := by rw [hdata, hbmp]

/-- The number of temperatures does not depend on the resources. -/
theorem count_publication (d : Device) (cloud : Beacon.Resources) :
    (updateBeaconCloudData ⟨d.beacons, cloud⟩).2 = (updateBeaconCloudData d).2 := by
  rw [count_updateBeaconCloudData, count_updateBeaconCloudData]
  rfl

end Vectors

/-! ## The tree -/

def isIterate : DummyAct → Bool
  | .iterate _ => true
  | .put _ _ => false

/-- What an action after those in `pre` writes to the resource of the call `c`. -/
def dummyWritten (fmt : ValueFormat) (c : AddCall DataType) (pre : List DummyAct) : DummyAct → Option String
  | .iterate _ => writtenValue fmt (scheduledPublication (pre.countP isIterate)) c.path
  | .put p v => if c.path = p ∧ c.allowed.putAllowed then some v else none

/-- The value last written to the resource of `c`, or that of the call. -/
def dummyValue (fmt : ValueFormat) (as : List DummyAct) (c : AddCall DataType) : Option String :=
  (lastWrite (dummyWritten fmt c) as).or c.value

theorem dummyValue_snoc (fmt : ValueFormat) (as : List DummyAct) (a : DummyAct) (c : AddCall DataType) :
    dummyValue fmt (as ++ [a]) c = (dummyWritten fmt c as a).or (dummyValue fmt as c) := by
  rw [dummyValue, lastWrite_snoc, Option.or_assoc]
  rfl

section Tree

variable {fmt : ValueFormat} {cb : Callbacks} {as : List DummyAct} {v : DummyLoop}

/-- The loop is where the schedule says, and the tree has the values last written. -/
structure Follows (fmt : ValueFormat) (cb : Callbacks) (as : List DummyAct) (v : DummyLoop) : Prop where
  vectors : ∃ s : LoopState, Scheduled (as.countP isIterate) s ∧ Shows cb s.device.beacons (dummyValue fmt as) v.app ∧
    v.dummyUpdateIdx = s.dummyUpdateIdx

theorem dummyIteration_of_ok {b : BeaconState} {tbl : BeaconTbl} {app : Application} {k : Nat} {now : Int}
    (hadd : addDummyConnected v.app.beacons = .ok b) (hupdate : dummyUpdateBeaconData b.beaconTbl v.dummyUpdateIdx now = .ok tbl)
    (hpublish : publishTree fmt { v.app with beacons := { b with beaconTbl := tbl } } = some (app, k)) :
    dummyIteration fmt v now = .ok
      (⟨app, if v.dummyUpdateIdx.toNat < maxConnectedBeacons - 1 then v.dummyUpdateIdx + 1 else 0⟩, k) := by
  unfold dummyIteration
  simp only [hadd, hupdate, Except.mapError, bind, Except.bind, hpublish]
  rfl

/-- **An iteration writes what its number says**, and counts one temperature. -/
theorem Follows.iteration (h : Follows fmt cb as v) (now : Int) :
    ∃ w, dummyIteration fmt v now = .ok (w, 1) ∧ Follows fmt cb (as ++ [.iterate now]) w := by
  obtain ⟨s, hs, hshows, hidx⟩ := h.vectors
  obtain ⟨b, hadd, hadded, hupdate⟩ := scheduled_update hs now
  obtain ⟨_, u, _, _, hmain, hu⟩ := hs.iteration now
  have hcloud := cloud_scheduledPublication hadded now
  have hcount := hadded.count now
  obtain ⟨d, hd⟩ : ∃ d, d = Device.dummyUpdated ⟨b, s.device.cloud⟩ (as.countP isIterate) now := ⟨_, rfl⟩
  have hbeacons : { b with beaconTbl := d.beacons.beaconTbl } = d.beacons := by rw [hd]; rfl
  rw [← hd] at hcloud hcount hupdate
  obtain ⟨hdevice, hnext⟩ : u.device.beacons = (updateBeaconCloudData d).1.beacons ∧
      u.dummyUpdateIdx = if s.dummyUpdateIdx.toNat < maxConnectedBeacons - 1 then s.dummyUpdateIdx + 1 else 0 := by
    rw [mainIteration_of_ok hadd hupdate (d := d) (by rw [hbeacons, hd]; rfl)] at hmain
    generalize updateBeaconCloudData d = p at hmain ⊢
    obtain ⟨hu', _⟩ := Prod.mk.inj (Except.ok.inj hmain)
    subst hu'
    exact ⟨rfl, rfl⟩
  -- the same publication, on the tree with the values last written
  have hblank : Shows cb d.beacons (shownOver fmt .blank (dummyValue fmt as)) { v.app with beacons := d.beacons } := by
    rw [shownOver_blank]
    exact hshows.withBeacons d.beacons
  obtain ⟨app, happ, hshows'⟩ := @shows_publish fmt cb ⟨d.beacons, .blank⟩ _ _ hblank
  rw [beacons_updateBeaconCloudData, hcloud, ← hdevice] at hshows'
  rw [count_publication, hcount, ← hbeacons] at happ
  have hvalues : dummyValue fmt (as ++ [.iterate now]) =
      shownOver fmt (scheduledPublication (as.countP isIterate)) (dummyValue fmt as) :=
    funext fun c => dummyValue_snoc fmt as (.iterate now) c
  rw [← hshows.beacons] at hadd
  rw [← hidx] at hupdate hnext
  refine ⟨_, dummyIteration_of_ok hadd hupdate happ, u, ?_, hvalues ▸ hshows', hnext.symm⟩
  rw [List.countP_append, List.countP_singleton]
  exact hu

theorem Follows.put (lib : RequestLibrary DataType) (h : Follows fmt cb as v) (p : ResourcePath) (x : String) :
    ∃ app, putTree lib v.app p x = some app ∧ Follows fmt cb (as ++ [.put p x]) { v with app := app } := by
  obtain ⟨s, hs, hshows, hidx⟩ := h.vectors
  obtain ⟨app, happ, hshows'⟩ := shows_put lib hshows p x
  have hvalues : dummyValue fmt (as ++ [.put p x]) =
      fun c => if c.path = p ∧ c.allowed.putAllowed then some x else dummyValue fmt as c := by
    funext c
    rw [dummyValue_snoc, dummyWritten]
    split <;> rfl
  refine ⟨app, happ, s, ?_, hvalues ▸ hshows', hidx⟩
  rw [List.countP_append]
  exact hs

/-- **The loop without BLE is known for ever**: from the resources that `main_application` creates, after any iterations at
any times and any PUTs between them, every resource has the value last written to it, by a PUT or by the iteration whose
number says so, or the one it was created with; and the next iteration publishes one temperature. -/
theorem dummy_tree (lib : RequestLibrary DataType) (fmt : ValueFormat) (cb : Callbacks) (as : List DummyAct) :
    ∃ tree, createResources lib.toClientLibrary cb = some tree ∧
      ∃ v, run (dummyStep lib fmt) ⟨⟨.init, tree⟩, 0⟩ as = some v ∧
      Client.Holds (cloudCalls cb) (dummyValue fmt as) v.app.tree.objList ∧
      ∀ now, ∃ w, dummyIteration fmt v now = .ok (w, 1) := by
  obtain ⟨tree, htree, hinit⟩ := shows_createResources lib.toClientLibrary cb
  have hstart : Follows fmt cb [] ⟨⟨.init, tree⟩, 0⟩ := ⟨.init, scheduled_init, hinit, rfl⟩
  have hstep : ∀ pre v a, Follows fmt cb pre v → ∃ w, dummyStep lib fmt v a = some w ∧ Follows fmt cb (pre ++ [a]) w := by
    intro pre v a h
    cases a with
    | iterate now =>
      obtain ⟨w, hw, hnext⟩ := h.iteration now
      exact ⟨w, by rw [dummyStep, hw]; rfl, hnext⟩
    | put p x =>
      obtain ⟨app, happ, hnext⟩ := h.put lib p x
      exact ⟨_, by rw [dummyStep, happ]; rfl, hnext⟩
  obtain ⟨v, hrun, hv⟩ := run_progress (Follows fmt cb) hstart hstep as
  obtain ⟨s, _, hshows, _⟩ := hv.vectors
  refine ⟨tree, htree, v, hrun, hshows.values, fun now => ?_⟩
  obtain ⟨w, hw, _⟩ := hv.iteration now
  exact ⟨w, hw⟩

end Tree

/-- A temperature is PUT before the first iteration. -/
def putFirstAct : List DummyAct := [.put ⟨3303, 4, 5700⟩ "21", .iterate 0]

/-- It stands, since the iteration writes another. -/
theorem dummy_tree_put : ∃ tree, createResources .ofDigits someCallbacks = some tree ∧
    ∃ v, run (dummyStep .plain plainFormat) ⟨⟨.init, tree⟩, 0⟩ putFirstAct = some v ∧
      Client.Holds (cloudCalls someCallbacks) (dummyValue plainFormat putFirstAct) v.app.tree.objList ∧
      dummyValue plainFormat putFirstAct (beaconCall ⟨4, by decide⟩) = some "21" := by
  obtain ⟨tree, htree, v, hv, hholds, _⟩ := dummy_tree .plain plainFormat someCallbacks putFirstAct
  exact ⟨tree, htree, v, hv, hholds, rfl⟩

end PelionClient.Main
