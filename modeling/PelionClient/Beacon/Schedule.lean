import Mathlib.Data.Nat.Count
import Mathlib.Tactic.Linarith
import PelionClient.Beacon.Cloud
import PelionClient.Beacon.Allocation

/-!
# The main loop without BLE (`main_application`)

With `FEA_BLE` 0 every iteration of the loop adds a dummy beacon while there is room, updates the slot at a cyclic index,
and publishes. The first free slot is the one at that index as long as slots are added (`Scheduled.added`), so the update
of an iteration always meets a used slot, and it is the only slot that the iteration publishes (`Scheduled.iteration`).
`schedule_run` says where this has led after any number of iterations.
-/

namespace PelionClient.Beacon

open Lib

/-- The device, and `dummy_update_idx`. -/
structure LoopState where
  device : Device
  dummyUpdateIdx : UInt8

/-- The loop is entered with the initialised table. -/
def LoopState.init : LoopState := ⟨.init, 0⟩

/-- The first part of an iteration. -/
def addDummyConnected (s : BeaconState) : Except Fault BeaconState := do
  if s.connectedBeacons.toNat < maxConnectedBeacons then
    let (tblIdx, tbl) ← addDummyBeacon s.beaconTbl
    if tblIdx ≠ invalidU32 then do
      let bit ← bitOf tblIdx.toNat
      return { s with beaconTbl := tbl, dataValidBmp := s.dataValidBmp ||| bit,
                      connectedBeacons := s.connectedBeacons + 1 }
    else
      return { s with beaconTbl := tbl }
  else
    return s

/-- An iteration when `time(NULL)` is `now`, with the number of temperatures published. -/
def mainIteration (s : LoopState) (now : Int) : Except Fault (LoopState × Nat) := do
  let beacons ← addDummyConnected s.device.beacons
  let tbl ← dummyUpdateBeaconData beacons.beaconTbl s.dummyUpdateIdx now
  let idx := if s.dummyUpdateIdx.toNat < maxConnectedBeacons - 1 then s.dummyUpdateIdx + 1 else 0
  let (device, updatedCount) := updateBeaconCloudData { s.device with beacons := { beacons with beaconTbl := tbl } }
  return (⟨device, idx⟩, updatedCount)

def loopStep (s : LoopState) (now : Int) : Option LoopState := (mainIteration s now).toOption.map Prod.fst

/-! ## The number of temperatures published -/

theorem publishSlot_count (p : Device × Nat) (i : Fin maxConnectedBeacons) :
    (publishSlot p i).2 = p.2 + if (p.1.slot i).1.Used ∧ (p.1.slot i).1.updated ≠ 0 then 1 else 0 := by
  unfold publishSlot Device.slot
  simp only
  split <;> rfl

theorem count_updateBeaconCloudData (d : Device) : (updateBeaconCloudData d).2 =
    (List.finRange maxConnectedBeacons).countP fun i => decide ((d.slot i).1.Used ∧ (d.slot i).1.updated ≠ 0) := by
  have h := foldl_slots_count (fun p : Device × Nat => p.1.slot) Prod.snd (fun p => p.1.Used ∧ p.1.updated ≠ 0)
    publishSlot_other publishSlot_count (List.nodup_finRange maxConnectedBeacons) (d, 0)
  simp only [Nat.zero_add] at h
  rw [← h]
  simp only [updateBeaconCloudData, publishSlots]

/-! ## The schedule -/

/-- How many of the first `n` iterations update slot `i`. -/
def updatesOf (i n : Nat) : Nat := Nat.count (fun k => k % maxConnectedBeacons = i) n

theorem updatesOf_succ (i n : Nat) :
    updatesOf i (n + 1) = updatesOf i n + if n % maxConnectedBeacons = i then 1 else 0 := Nat.count_succ _ n

/-- A slot is not updated before the iteration that adds it. -/
theorem updatesOf_eq_zero {i n : Nat} (hi : i < maxConnectedBeacons) (h : n ≤ i) : updatesOf i n = 0 := by
  apply Nat.count_of_forall_not
  intro k hk hmod
  rw [Nat.mod_eq_of_lt (by omega)] at hmod
  omega

/-- The temperature after `c` updates. -/
def tempAfter (c : Nat) : ℚ := 23 + (c % 28 : Nat)

theorem tempAfter_zero : tempAfter 0 = 23 := by norm_num [tempAfter]

theorem tempAfter_succ (c : Nat) : (if tempAfter c < 50 then tempAfter c + 1 else 23) = tempAfter (c + 1) := by
  have hlt : c % 28 < 28 := Nat.mod_lt c (by decide)
  unfold tempAfter
  by_cases hlast : c % 28 = 27
  · have hzero : (c + 1) % 28 = 0 := by omega
    rw [hlast, hzero]
    norm_num
  · have hsucc : (c + 1) % 28 = c % 28 + 1 := by omega
    have hq : ((c % 28 : Nat) : ℚ) < 27 := by
      have hnat : c % 28 < 27 := by omega
      exact_mod_cast hnat
    rw [if_pos (by linarith), hsucc, Nat.cast_succ, add_assoc]

/-- The beacons in use, their number and their bits after `m` of them have been added. -/
structure Connected (m : Nat) (s : BeaconState) : Prop where
  used : ∀ i : Fin maxConnectedBeacons, s.beaconTbl[i].Used ↔ i.val < m
  counter : s.connectedBeacons.toNat = m
  bmp : s.dataValidBmp = BitVec.ofNat 16 (2 ^ m - 1)

/-- Slot `i` has been updated `c` times. -/
structure Updated (c : Nat) (p : BeaconData × Option ℚ) : Prop where
  temp : p.1.temp = tempAfter c
  clean : p.1.updated = 0
  published : p.2 = some (tempAfter c)

/-- The state after `n` iterations. -/
structure Scheduled (n : Nat) (s : LoopState) : Prop where
  connected : Connected (min n maxConnectedBeacons) s.device.beacons
  slots : ∀ i : Fin maxConnectedBeacons, i.val < n → Updated (updatesOf i n) (s.device.slot i)
  idx : s.dummyUpdateIdx.toNat = n % maxConnectedBeacons

theorem scheduled_init : Scheduled 0 .init := by
  refine ⟨⟨fun i => ?_, rfl, rfl⟩, fun i hi => absurd hi (Nat.not_lt_zero _), rfl⟩
  have hfree : ¬LoopState.init.device.beacons.beaconTbl[i].Used := by
    simp [LoopState.init, Device.init, BeaconState.init, initBeaconTbl]
  exact iff_of_false hfree (Nat.not_lt_zero _)

/-! ## An iteration -/

section Iteration

variable {n : Nat} {s : LoopState}

/-- What the device is like between the add and the update of iteration `n`. -/
structure Added (n : Nat) (d : Device) : Prop where
  connected : Connected (min (n + 1) maxConnectedBeacons) d.beacons
  temps : ∀ i : Fin maxConnectedBeacons, i.val < n + 1 → (d.slot i).1.temp = tempAfter (updatesOf i n)
  others : ∀ i : Fin maxConnectedBeacons, i.val < n + 1 → n % maxConnectedBeacons ≠ i →
    Updated (updatesOf i n) (d.slot i)

theorem two_pow_succ_bits {m : Nat} (hm : m < maxConnectedBeacons) :
    BitVec.ofNat 16 (2 ^ m - 1) ||| 1#16 <<< m = BitVec.ofNat 16 (2 ^ (m + 1) - 1) := by
  refine BitVec.eq_of_getLsbD_eq fun k hk => ?_
  rw [Bool.eq_iff_iff, getLsbD_setBit hm]
  simp only [BitVec.getLsbD_ofNat, Nat.testBit_two_pow_sub_one, Bool.and_eq_true, decide_eq_true_eq]
  omega

/-- The first free slot is the next one. -/
theorem Connected.firstFree_eq {m : Nat} {b : BeaconState} (h : Connected m b) (hm : m < maxConnectedBeacons) :
    firstFree b.beaconTbl = m := by
  refine (firstFree_eq_iff hm).mpr ⟨fun hu => ?_, fun j hj => (h.used j).mpr hj⟩
  exact Nat.lt_irrefl m ((h.used ⟨m, hm⟩).mp hu)

/-- The table after a write to the slot of number `m`, read at a slot. -/
theorem getElem_set_index (t : BeaconTbl) {m : Nat} (hm : m < maxConnectedBeacons) (b : BeaconData)
    (i : Fin maxConnectedBeacons) : (t.set m b)[i] = if i.val = m then b else t[i] := by
  rw [getElem_set_slot t ⟨m, hm⟩ i b]
  simp only [Fin.ext_iff, eq_comm]

/-- Filling the next slot connects one more beacon. -/
theorem Connected.added {m : Nat} {b : BeaconState} (h : Connected m b) (hm : m < maxConnectedBeacons) :
    Connected (m + 1) { b with
      beaconTbl := b.beaconTbl.set m b.beaconTbl[m].dummyAdded
      dataValidBmp := b.dataValidBmp ||| 1#16 <<< m
      connectedBeacons := b.connectedBeacons + 1 } := by
  refine ⟨fun i => ?_, ?_, ?_⟩
  · simp only [getElem_set_index _ hm]
    split
    · simp only [BeaconData.used_dummyAdded, true_iff]
      omega
    · rw [h.used i]
      omega
  · have hone : (1 : UInt8).toNat = 1 := rfl
    simp only [maxConnectedBeacons] at hm
    simp only [UInt8.toNat_add, hone, h.counter]
    omega
  · simp only [h.bmp]
    exact two_pow_succ_bits hm

/-- While there is room the next slot is filled. -/
theorem addDummyConnected_of_lt {m : Nat} {b : BeaconState} (h : Connected m b) (hm : m < maxConnectedBeacons) :
    addDummyConnected b = .ok { b with
      beaconTbl := b.beaconTbl.set m b.beaconTbl[m].dummyAdded
      dataValidBmp := b.dataValidBmp ||| 1#16 <<< m
      connectedBeacons := b.connectedBeacons + 1 } := by
  have hfirst := h.firstFree_eq hm
  have hadd : addDummyBeacon b.beaconTbl = .ok (UInt32.ofNat m, b.beaconTbl.set m b.beaconTbl[m].dummyAdded) := by
    rw [addDummyBeacon_of_lt (Nat.lt_of_le_of_lt (Nat.le_of_eq hfirst) hm)]
    simp only [hfirst]
  unfold addDummyConnected
  simp only [h.counter, if_pos hm, hadd, bind, Except.bind, ne_eq, ofNat_ne_invalid hm, not_false_eq_true, if_true,
    toNat_ofNat_slot hm, bitOf_of_lt hm]
  rfl

theorem Scheduled.added (h : Scheduled n s) :
    ∃ b, addDummyConnected s.device.beacons = .ok b ∧ Added n ⟨b, s.device.cloud⟩ := by
  rcases Nat.lt_or_ge n maxConnectedBeacons with hlt | hge
  · have hmin : min n maxConnectedBeacons = n := Nat.min_eq_left (Nat.le_of_lt hlt)
    have hconn := h.connected
    rw [hmin] at hconn
    refine ⟨_, addDummyConnected_of_lt hconn hlt, ?_⟩
    constructor
    · rw [Nat.min_eq_left (Nat.succ_le_of_lt hlt)]
      exact hconn.added hlt
    · intro i hi
      by_cases hin : i.val = n
      · rw [Device.slot, getElem_set_index _ hlt, if_pos hin, updatesOf_eq_zero i.isLt (Nat.le_of_eq hin.symm), tempAfter_zero]
        rfl
      · rw [Device.slot, getElem_set_index _ hlt, if_neg hin]
        exact (h.slots i (by omega)).temp
    · intro i hi hne
      rw [Nat.mod_eq_of_lt hlt] at hne
      rw [Device.slot, getElem_set_index _ hlt, if_neg (Ne.symm hne)]
      exact h.slots i (by omega)
  · -- the table is full
    have hmin : min n maxConnectedBeacons = maxConnectedBeacons := Nat.min_eq_right hge
    have hconn := h.connected
    rw [hmin] at hconn
    have hfull : ¬s.device.beacons.connectedBeacons.toNat < maxConnectedBeacons := by
      rw [hconn.counter]
      exact Nat.lt_irrefl _
    have hall : ∀ i : Fin maxConnectedBeacons, i.val < n := fun i => Nat.lt_of_lt_of_le i.isLt hge
    refine ⟨s.device.beacons, ?_, ?_, fun i _ => (h.slots i (hall i)).temp, fun i _ _ => h.slots i (hall i)⟩
    · rw [addDummyConnected, if_neg hfull]
      rfl
    · rwa [Nat.min_eq_right (Nat.le_succ_of_le hge)]

/-- The slot that iteration `n` updates. -/
def scheduledSlot (n : Nat) : Fin maxConnectedBeacons := ⟨n % maxConnectedBeacons, Nat.mod_lt n (by decide)⟩

/-- The device after the update of iteration `n`. -/
def Device.dummyUpdated (d : Device) (n : Nat) (now : Int) : Device :=
  ⟨{ d.beacons with
      beaconTbl := d.beacons.beaconTbl.set (scheduledSlot n) (d.beacons.beaconTbl[scheduledSlot n].dummyMeasured now) },
    d.cloud⟩

theorem Device.slot_dummyUpdated (d : Device) (n : Nat) (now : Int) (i : Fin maxConnectedBeacons) :
    (d.dummyUpdated n now).slot i =
      if scheduledSlot n = i then ((d.slot i).1.dummyMeasured now, (d.slot i).2) else d.slot i := by
  unfold Device.slot Device.dummyUpdated
  rw [getElem_set_slot]
  by_cases hi : scheduledSlot n = i
  · subst hi
    rw [if_pos rfl, if_pos rfl]
  · rw [if_neg hi, if_neg hi]

/-- The slot of iteration `n` is in use when it is updated. -/
theorem Added.used {d : Device} (h : Added n d) : (d.slot (scheduledSlot n)).1.Used := by
  refine (h.connected.used _).mpr ?_
  have hle : n % maxConnectedBeacons ≤ n := Nat.mod_le n _
  have hlt : n % maxConnectedBeacons < maxConnectedBeacons := Nat.mod_lt n (by decide)
  have hval : (scheduledSlot n).val = n % maxConnectedBeacons := rfl
  omega

/-- After the update the slot of iteration `n` is the only one that is marked. -/
theorem Added.marked {d : Device} (h : Added n d) (now : Int) (i : Fin maxConnectedBeacons) :
    ((d.dummyUpdated n now).slot i).1.Used ∧ ((d.dummyUpdated n now).slot i).1.updated ≠ 0 ↔ i = scheduledSlot n := by
  rw [Device.slot_dummyUpdated]
  by_cases hi : scheduledSlot n = i
  · subst hi
    rw [if_pos rfl, BeaconData.used_dummyMeasured, BeaconData.dummyMeasured, if_pos h.used]
    exact iff_of_true ⟨h.used, (show (1 : UInt8) ≠ 0 by decide)⟩ rfl
  · rw [if_neg hi]
    refine iff_of_false ?_ (Ne.symm hi)
    rintro ⟨hu, hmarked⟩
    have hlt : i.val < min (n + 1) maxConnectedBeacons := (h.connected.used i).mp hu
    exact hmarked (h.others i (by omega) fun e => hi (Fin.ext e)).clean

/-- The publication after the update leaves every slot in use updated once more if it is the slot of the iteration. -/
theorem Added.published {d : Device} (h : Added n d) (now : Int) (i : Fin maxConnectedBeacons) (hi : i.val < n + 1) :
    Updated (updatesOf i (n + 1)) (published ((d.dummyUpdated n now).slot i)) := by
  rw [updatesOf_succ, Device.slot_dummyUpdated]
  by_cases heq : scheduledSlot n = i
  · have hmod : n % maxConnectedBeacons = i := congrArg Fin.val heq
    have hused : (d.slot i).1.Used := heq ▸ h.used
    have htemp : ((d.slot i).1.dummyMeasured now).temp = tempAfter (updatesOf i n + 1) := by
      rw [← tempAfter_succ, ← h.temps i hi, BeaconData.dummyMeasured, if_pos hused]
    have hmarked : ((d.slot i).1.dummyMeasured now).Used ∧ ((d.slot i).1.dummyMeasured now).updated ≠ 0 := by
      refine ⟨(BeaconData.used_dummyMeasured _ now).mpr hused, ?_⟩
      rw [BeaconData.dummyMeasured, if_pos hused]
      exact (show (1 : UInt8) ≠ 0 by decide)
    rw [if_pos heq, if_pos hmod, Beacon.published, if_pos hmarked]
    exact ⟨htemp, rfl, congrArg some htemp⟩
  · have hmod : n % maxConnectedBeacons ≠ i := fun e => heq (Fin.ext e)
    have hupdated := h.others i hi hmod
    have hclean : ¬((d.slot i).1.Used ∧ (d.slot i).1.updated ≠ 0) := fun hm => hm.2 hupdated.clean
    rw [if_neg heq, if_neg hmod, Beacon.published, if_neg hclean]
    exact hupdated

theorem Added.count {d : Device} (h : Added n d) (now : Int) :
    (updateBeaconCloudData (d.dummyUpdated n now)).2 = 1 := by
  rw [count_updateBeaconCloudData]
  apply @countP_finRange_eq_one _ _ (scheduledSlot n)
  intro i
  rw [decide_eq_true_eq]
  exact h.marked now i

/-- The update and the publication leave the beacons in use as they are. -/
theorem Added.connected_published {d : Device} (h : Added n d) (now : Int) :
    Connected (min (n + 1) maxConnectedBeacons) (updateBeaconCloudData (d.dummyUpdated n now)).1.beacons := by
  refine ⟨fun i => ?_, ?_, ?_⟩
  · have hslot : ((updateBeaconCloudData (d.dummyUpdated n now)).1.slot i).1.Used ↔ (d.slot i).1.Used := by
      rw [slot_updateBeaconCloudData, published_used, Device.slot_dummyUpdated]
      split
      · exact BeaconData.used_dummyMeasured _ now
      · rfl
    exact hslot.trans (h.connected.used i)
  · rw [counter_updateBeaconCloudData]
    exact h.connected.counter
  · rw [bmp_updateBeaconCloudData]
    exact h.connected.bmp

/-- The next index. -/
theorem nextIdx {idx : UInt8} (h : idx.toNat = n % maxConnectedBeacons) :
    (if idx.toNat < maxConnectedBeacons - 1 then idx + 1 else 0 : UInt8).toNat = (n + 1) % maxConnectedBeacons := by
  have hone : (1 : UInt8).toNat = 1 := rfl
  unfold maxConnectedBeacons at *
  split
  · rw [UInt8.toNat_add, hone]
    omega
  · show 0 = (n + 1) % 10
    omega

/-- What an iteration does: the slot at its index is in use when it is updated, and one temperature is published. -/
def IterationKeeps (s : LoopState) (now : Int) (P : LoopState → Prop) : Prop :=
  ∃ b u, addDummyConnected s.device.beacons = .ok b ∧
    (∃ i : Fin maxConnectedBeacons, i.val = s.dummyUpdateIdx.toNat ∧ b.beaconTbl[i].Used) ∧
    mainIteration s now = .ok (u, 1) ∧ P u

theorem mainIteration_of_ok {b : BeaconState} {tbl : BeaconTbl} {d : Device} {now : Int}
    (hadd : addDummyConnected s.device.beacons = .ok b)
    (hupdate : dummyUpdateBeaconData b.beaconTbl s.dummyUpdateIdx now = .ok tbl)
    (hd : d = ⟨{ b with beaconTbl := tbl }, s.device.cloud⟩) :
    mainIteration s now = .ok
      (⟨(updateBeaconCloudData d).1, if s.dummyUpdateIdx.toNat < maxConnectedBeacons - 1 then s.dummyUpdateIdx + 1 else 0⟩,
        (updateBeaconCloudData d).2) := by
  subst hd
  unfold mainIteration
  simp only [hadd, hupdate, bind, Except.bind]
  rfl

/-- **An iteration keeps the schedule.** -/
theorem Scheduled.iteration (h : Scheduled n s) (now : Int) : IterationKeeps s now (Scheduled (n + 1)) := by
  obtain ⟨b, hadd, hadded⟩ := h.added
  have hidx : s.dummyUpdateIdx.toNat < maxConnectedBeacons := h.idx ▸ Nat.mod_lt n (by decide)
  have hupdate : dummyUpdateBeaconData b.beaconTbl s.dummyUpdateIdx now = .ok
      (b.beaconTbl.set (scheduledSlot n) (b.beaconTbl[scheduledSlot n].dummyMeasured now)) := by
    rw [dummyUpdateBeaconData_of_lt hidx]
    simp only [h.idx, scheduledSlot, getElem_slot]
  obtain ⟨d, hd⟩ : ∃ d, d = Device.dummyUpdated ⟨b, s.device.cloud⟩ n now := ⟨_, rfl⟩
  have hmain := mainIteration_of_ok hadd hupdate hd
  have hconnected := hadded.connected_published now
  have hcount := hadded.count now
  rw [← hd] at hconnected hcount
  rw [hcount] at hmain
  refine ⟨b, _, hadd, ⟨scheduledSlot n, h.idx.symm, hadded.used⟩, hmain, ⟨hconnected, ?_, nextIdx h.idx⟩⟩
  intro i hi
  rw [slot_updateBeaconCloudData, hd]
  exact hadded.published now i hi

end Iteration

/-- **The main loop follows its schedule for ever**, and so does its next iteration, whenever it runs. -/
theorem schedule_run (times : List Int) : ∃ s, run loopStep .init times = some s ∧ Scheduled times.length s ∧
    ∀ now, IterationKeeps s now (Scheduled (times.length + 1)) := by
  have hstep : ∀ (pre : List Int) s now, Scheduled pre.length s →
      ∃ u, loopStep s now = some u ∧ Scheduled (pre ++ [now]).length u := by
    intro pre s now h
    obtain ⟨b, u, _, _, hu, hnext⟩ := h.iteration now
    refine ⟨u, ?_, ?_⟩
    · rw [loopStep, hu]
      rfl
    · rwa [List.length_append, List.length_singleton]
  obtain ⟨s, hrun, hs⟩ := run_progress (fun pre => Scheduled pre.length) scheduled_init hstep times
  exact ⟨s, hrun, hs, hs.iteration⟩

end PelionClient.Beacon
