import PelionClient.Beacon.Admission

/-!
# What the cloud sees (`update_beacon_cloud_data`)

Every round of the main loop publishes the temperature of each used slot whose `updated` flag is set, clears the flag, and
publishes the bitmap. `Linked` ties the four pieces of state together across any interleaving of reports, rejected
payloads and publications: a bit is set iff its slot is used, a used slot holds the temperature of its beacon's last
report, and a used slot that is not marked updated has been published. Right after a publication nothing is marked, so
the published view is the truth (`view_after_publication`).
-/

namespace PelionClient.Beacon

open Lib

/-- The values last written to the resources: `set_value_float` on `beacon_data_res_tbl[i]`, `set_value` on
`pelion_data_valid_bmp`. -/
structure Resources where
  beaconData : Vector (Option ℚ) maxConnectedBeacons
  dataValidBmp : Option (BitVec 64)

structure Device where
  beacons : BeaconState
  cloud : Resources

/-- The device when the main loop starts: no value has been written yet. -/
def Device.init : Device := ⟨.init, ⟨Vector.replicate maxConnectedBeacons none, none⟩⟩

/-- The body of the publishing loop at slot `i`, with the number of slots published so far. -/
def publishSlot : Device × Nat → Fin maxConnectedBeacons → Device × Nat
  | (d, updatedCount), i =>
    let beacon := d.beacons.beaconTbl[i]
    if beacon.Used ∧ beacon.updated ≠ 0 then
      ({ beacons := { d.beacons with beaconTbl := d.beacons.beaconTbl.set i { beacon with updated := 0 } }
         cloud := { d.cloud with beaconData := d.cloud.beaconData.set i (some beacon.temp) } }, updatedCount + 1)
    else
      (d, updatedCount)

/-- The publishing loop. -/
def publishSlots (d : Device) : Device × Nat := (List.finRange maxConnectedBeacons).foldl publishSlot (d, 0)

/-- `update_beacon_cloud_data`, with the number of slots it published. -/
def updateBeaconCloudData (d : Device) : Device × Nat :=
  let p := publishSlots d
  ({ p.1 with cloud := { p.1.cloud with dataValidBmp := some (p.1.beacons.dataValidBmp.setWidth 64) } }, p.2)

/-! ## Slot by slot -/

/-- A slot and its resource. -/
def Device.slot (d : Device) (i : Fin maxConnectedBeacons) : BeaconData × Option ℚ :=
  (d.beacons.beaconTbl[i], d.cloud.beaconData[i])

/-- A slot and its resource after a publication. -/
def published (p : BeaconData × Option ℚ) : BeaconData × Option ℚ :=
  if p.1.Used ∧ p.1.updated ≠ 0 then ({ p.1 with updated := 0 }, some p.1.temp) else p

theorem publishSlot_self (p : Device × Nat) (i : Fin maxConnectedBeacons) :
    (publishSlot p i).1.slot i = published (p.1.slot i) := by
  unfold publishSlot published Device.slot
  simp only
  split <;> simp

theorem publishSlot_other (p : Device × Nat) (i j : Fin maxConnectedBeacons) (h : j ≠ i) :
    (publishSlot p i).1.slot j = p.1.slot j := by
  have hne : i.val ≠ j.val := fun e => h (Fin.ext e.symm)
  unfold publishSlot Device.slot
  simp only
  split <;> simp [hne]

/-- Only the table and the resources are written. -/
theorem publishSlot_beacons (p : Device × Nat) (i : Fin maxConnectedBeacons) :
    ∃ tbl, (publishSlot p i).1.beacons = { p.1.beacons with beaconTbl := tbl } := by
  unfold publishSlot
  simp only
  split <;> exact ⟨_, rfl⟩

theorem foldl_publishSlot_beacons (l : List (Fin maxConnectedBeacons)) (p : Device × Nat) :
    ∃ tbl, (l.foldl publishSlot p).1.beacons = { p.1.beacons with beaconTbl := tbl } := by
  induction l generalizing p with
  | nil => exact ⟨_, rfl⟩
  | cons i l ih =>
    obtain ⟨tbl, htbl⟩ := ih (publishSlot p i)
    obtain ⟨tbl', htbl'⟩ := publishSlot_beacons p i
    rw [List.foldl_cons, htbl, htbl']
    exact ⟨_, rfl⟩

theorem beacons_publishSlots (d : Device) :
    ∃ tbl, (publishSlots d).1.beacons = { d.beacons with beaconTbl := tbl } := by
  rw [publishSlots]
  exact foldl_publishSlot_beacons (List.finRange maxConnectedBeacons) (d, 0)

theorem slot_publishSlots (d : Device) (i : Fin maxConnectedBeacons) :
    (publishSlots d).1.slot i = published (d.slot i) := by
  have h := foldl_slots (fun p : Device × Nat => p.1.slot) publishSlot_self publishSlot_other
    (List.nodup_finRange maxConnectedBeacons) (d, 0) i
  rwa [if_pos (List.mem_finRange i)] at h

/-- A publication does to every slot and its resource what it does to one. -/
theorem slot_updateBeaconCloudData (d : Device) (i : Fin maxConnectedBeacons) :
    (updateBeaconCloudData d).1.slot i = published (d.slot i) := by
  rw [← slot_publishSlots]
  simp only [Device.slot, updateBeaconCloudData]

theorem bmp_publishSlots (d : Device) : (publishSlots d).1.beacons.dataValidBmp = d.beacons.dataValidBmp := by
  obtain ⟨tbl, htbl⟩ := beacons_publishSlots d
  rw [htbl]

theorem bmp_updateBeaconCloudData (d : Device) :
    (updateBeaconCloudData d).1.beacons.dataValidBmp = d.beacons.dataValidBmp := by
  simp only [updateBeaconCloudData, bmp_publishSlots]

theorem cloudBmp_updateBeaconCloudData (d : Device) :
    (updateBeaconCloudData d).1.cloud.dataValidBmp = some (d.beacons.dataValidBmp.setWidth 64) := by
  simp only [updateBeaconCloudData, bmp_publishSlots]

theorem counter_updateBeaconCloudData (d : Device) :
    (updateBeaconCloudData d).1.beacons.connectedBeacons = d.beacons.connectedBeacons := by
  obtain ⟨tbl, htbl⟩ := beacons_publishSlots d
  simp only [updateBeaconCloudData, htbl]

section Published

variable (p : BeaconData × Option ℚ)

theorem published_used : (published p).1.Used ↔ p.1.Used := by
  unfold published
  split <;> rfl

theorem published_temp : (published p).1.temp = p.1.temp := by
  unfold published
  split <;> rfl

/-- No used slot is marked after a publication. -/
theorem published_clean (h : p.1.Used) : (published p).1.updated = 0 := by
  unfold published
  split
  · rfl
  · rename_i hmark
    exact by_contra fun h0 => hmark ⟨h, h0⟩

end Published

/-! ## The system -/

/-- What the main loop and the radio do to the device: a report about a beacon of the table, a payload that is no
report, or a publication. -/
inductive BleOp
  | advert (a : Advert)
  | rejected (now : Int) (data : List UInt8) (h : ¬IsReport data)
  | publish

def bleStep (d : Device) : BleOp → Option Device
  | .advert a => (onScan d.beacons a.now a.data).toOption.map fun s => { d with beacons := s }
  | .rejected now data _ => (onScan d.beacons now data).toOption.map fun s => { d with beacons := s }
  | .publish => some (updateBeaconCloudData d).1

theorem bleStep_advert (d : Device) (a : Advert) :
    bleStep d (.advert a) = some { d with beacons := d.beacons.received a } := by
  simp [bleStep, onScan_advert, Except.toOption]

theorem bleStep_rejected (d : Device) (now : Int) (data : List UInt8) (h : ¬IsReport data) :
    bleStep d (.rejected now data h) =
      some { d with beacons := { d.beacons with scanCount := d.beacons.scanCount + 1 } } := by
  simp [bleStep, onScan_rejected h, Except.toOption]

/-- The temperature of the last report of beacon `i`. -/
def lastReported (i : Fin maxConnectedBeacons) (ops : List BleOp) : Option UInt8 :=
  (ops.filterMap fun
    | .advert a => if a.beacon = i then some a.temp else none
    | _ => none).getLast?

theorem lastReported_advert (i : Fin maxConnectedBeacons) (ops : List BleOp) (a : Advert) :
    lastReported i (ops ++ [.advert a]) = if a.beacon = i then some a.temp else lastReported i ops := by
  unfold lastReported
  rw [List.filterMap_append]
  split <;> simp [*]

theorem lastReported_rejected (i : Fin maxConnectedBeacons) (ops : List BleOp) (now : Int) (data : List UInt8)
    (h : ¬IsReport data) : lastReported i (ops ++ [.rejected now data h]) = lastReported i ops := by
  simp [lastReported, List.filterMap_append]

theorem lastReported_publish (i : Fin maxConnectedBeacons) (ops : List BleOp) :
    lastReported i (ops ++ [.publish]) = lastReported i ops := by
  simp [lastReported, List.filterMap_append]

/-! ## The invariant -/

/-- After `ops`: bits are used slots, a used slot holds its beacon's last report, and what is not marked is published. -/
structure Linked (ops : List BleOp) (d : Device) : Prop where
  bits : ∀ n, d.beacons.dataValidBmp.getLsbD n = true ↔ ∃ i : Fin maxConnectedBeacons, i.val = n ∧ (d.slot i).1.Used
  temps : ∀ i, (d.slot i).1.Used → ∃ t, lastReported i ops = some t ∧ (d.slot i).1.temp = t.toNat
  clean : ∀ i, (d.slot i).1.Used → (d.slot i).1.updated = 0 → (d.slot i).2 = some (d.slot i).1.temp

theorem linked_init : Linked [] .init := by
  have hslot : ∀ i, ¬(Device.init.slot i).1.Used := fun i => by
    simp [Device.slot, Device.init, BeaconState.init, initBeaconTbl]
  refine ⟨fun n => ?_, fun i hi => absurd hi (hslot i), fun i hi => absurd hi (hslot i)⟩
  simp only [hslot, and_false, exists_false, iff_false, Bool.not_eq_true]
  exact BitVec.getLsbD_zero

/-- A measured slot that is used holds the measured temperature and is marked. -/
theorem BeaconData.measured_of_used {b : BeaconData} {temp : UInt8} {now : Int} (h : (b.measured temp now).Used) :
    (b.measured temp now).temp = temp.toNat ∧ (b.measured temp now).updated = 1 := by
  rw [used_measured] at h
  rw [measured, if_pos h]
  exact ⟨rfl, rfl⟩

theorem received_self (s : BeaconState) (a : Advert) : (s.received a).beaconTbl[a.beacon] =
    (if s.connectedBeacons.toNat < maxConnectedBeacons then s.beaconTbl[a.beacon].added
      else s.beaconTbl[a.beacon]).measured a.temp a.now := by
  rw [received_tbl, getElem_set_self]

theorem received_other (s : BeaconState) (a : Advert) {i : Fin maxConnectedBeacons} (h : i ≠ a.beacon) :
    (s.received a).beaconTbl[i] = s.beaconTbl[i] := by
  rw [received_tbl, getElem_set_other _ h]

theorem received_bits (s : BeaconState) (a : Advert) (n : Nat) : (s.received a).dataValidBmp.getLsbD n = true ↔
    s.dataValidBmp.getLsbD n = true ∨ (s.connectedBeacons.toNat < maxConnectedBeacons ∧ n = a.beacon.val) := by
  unfold BeaconState.received
  split
  · rw [getLsbD_setBit a.beacon.isLt]
    simp [*]
  · simp [*]

theorem linked_advert {ops : List BleOp} {d : Device} (h : Linked ops d) (a : Advert) :
    Linked (ops ++ [.advert a]) { d with beacons := d.beacons.received a } := by
  have hslot : ∀ i, i ≠ a.beacon → ({ d with beacons := d.beacons.received a } : Device).slot i = d.slot i := by
    intro i hi
    simp only [Device.slot, received_other _ _ hi]
  have hself : (({ d with beacons := d.beacons.received a } : Device).slot a.beacon).1.Used →
      (({ d with beacons := d.beacons.received a } : Device).slot a.beacon).1.temp = a.temp.toNat ∧
      (({ d with beacons := d.beacons.received a } : Device).slot a.beacon).1.updated = 1 := by
    simp only [Device.slot, received_self]
    exact BeaconData.measured_of_used
  constructor
  · intro n
    simp only [Device.slot, received_bits, received_used, h.bits]
    constructor
    · rintro (⟨i, hi, hu⟩ | ⟨hc, rfl⟩)
      · exact ⟨i, hi, Or.inl hu⟩
      · exact ⟨a.beacon, rfl, Or.inr ⟨hc, rfl⟩⟩
    · rintro ⟨i, rfl, hu | ⟨hc, rfl⟩⟩
      · exact Or.inl ⟨i, rfl, hu⟩
      · exact Or.inr ⟨hc, rfl⟩
  · intro i hu
    rw [lastReported_advert]
    by_cases hi : a.beacon = i
    · subst hi
      exact ⟨a.temp, if_pos rfl, (hself hu).1⟩
    · rw [hslot i (Ne.symm hi)] at hu ⊢
      rw [if_neg hi]
      exact h.temps i hu
  · intro i hu h0
    by_cases hi : i = a.beacon
    · -- the report has just marked this slot
      subst hi
      rw [(hself hu).2] at h0
      cases h0
    · rw [hslot i hi] at hu h0 ⊢
      exact h.clean i hu h0

theorem linked_publish {ops : List BleOp} {d : Device} (h : Linked ops d) :
    Linked (ops ++ [.publish]) (updateBeaconCloudData d).1 := by
  constructor
  · intro n
    rw [bmp_updateBeaconCloudData, h.bits]
    simp only [slot_updateBeaconCloudData, published_used]
  · intro i hu
    rw [slot_updateBeaconCloudData] at hu ⊢
    rw [lastReported_publish, published_temp]
    exact h.temps i ((published_used _).mp hu)
  · intro i hu _
    rw [slot_updateBeaconCloudData] at hu ⊢
    have hu' : (d.slot i).1.Used := (published_used _).mp hu
    rw [published_temp, published]
    split
    · rfl
    · rename_i hmark
      exact h.clean i hu' (by_contra fun h0 => hmark ⟨hu', h0⟩)

theorem linked_step {ops : List BleOp} {d : Device} (op : BleOp) (h : Linked ops d) :
    ∃ e, bleStep d op = some e ∧ Linked (ops ++ [op]) e := by
  cases op with
  | advert a => exact ⟨_, bleStep_advert d a, linked_advert h a⟩
  | rejected now data hr =>
    refine ⟨_, bleStep_rejected d now data hr, h.bits, fun i hu => ?_, h.clean⟩
    rw [lastReported_rejected]
    exact h.temps i hu
  | publish => exact ⟨_, rfl, linked_publish h⟩

theorem linked_run (ops : List BleOp) : ∃ d, run bleStep .init ops = some d ∧ Linked ops d :=
  run_progress Linked linked_init (fun _ _ op h => linked_step op h) ops

/-! ## The published view -/

/-- The published bitmap has exactly the bits of the used slots, and where a bit is set the resource holds the
temperature of the beacon's last report. -/
def TrueView (ops : List BleOp) (d : Device) : Prop :=
  ∃ bmp : BitVec 64, d.cloud.dataValidBmp = some bmp ∧
    (∀ i : Fin maxConnectedBeacons, bmp.getLsbD i = true ↔ d.beacons.beaconTbl[i].Used) ∧
    (∀ n, maxConnectedBeacons ≤ n → bmp.getLsbD n = false) ∧
    ∀ i : Fin maxConnectedBeacons, bmp.getLsbD i = true →
      ∃ t, lastReported i ops = some t ∧ d.cloud.beaconData[i] = some (t.toNat : ℚ)

/-- **Right after every publication of every run the cloud's view is the truth.** -/
theorem view_after_publication (ops : List BleOp) :
    ∃ d, run bleStep .init (ops ++ [.publish]) = some d ∧ TrueView ops d := by
  obtain ⟨c, hc, hl⟩ := linked_run ops
  have hl' := linked_publish hl
  refine ⟨(updateBeaconCloudData c).1, run_snoc.mpr ⟨c, hc, rfl⟩, _, cloudBmp_updateBeaconCloudData c, ?_⟩
  have hbits : ∀ n, (c.beacons.dataValidBmp.setWidth 64).getLsbD n = true ↔
      ∃ i : Fin maxConnectedBeacons, i.val = n ∧ ((updateBeaconCloudData c).1.slot i).1.Used := by
    intro n
    rw [BitVec.getLsbD_setWidth, ← hl'.bits n, bmp_updateBeaconCloudData]
    have hlt : c.beacons.dataValidBmp.getLsbD n = true → n < 64 := fun h =>
      Nat.lt_trans (BitVec.lt_of_getLsbD h) (by decide)
    simp only [Bool.and_eq_true, decide_eq_true_eq]
    exact ⟨fun h => h.2, fun h => ⟨hlt h, h⟩⟩
  have hused : ∀ i : Fin maxConnectedBeacons, (c.beacons.dataValidBmp.setWidth 64).getLsbD i = true ↔
      ((updateBeaconCloudData c).1.slot i).1.Used := by
    intro i
    rw [hbits]
    exact ⟨fun ⟨j, hj, hu⟩ => Fin.ext hj ▸ hu, fun hu => ⟨i, rfl, hu⟩⟩
  refine ⟨hused, fun n hn => ?_, fun i hi => ?_⟩
  · rw [← Bool.not_eq_true, hbits]
    rintro ⟨i, rfl, _⟩
    exact absurd i.isLt (Nat.not_lt.mpr hn)
  · have hu := (hused i).mp hi
    obtain ⟨t, ht, htemp⟩ := hl'.temps i hu
    rw [lastReported_publish] at ht
    refine ⟨t, ht, ?_⟩
    have hmark : ((updateBeaconCloudData c).1.slot i).1.updated = 0 := by
      rw [slot_updateBeaconCloudData] at hu ⊢
      exact published_clean _ ((published_used _).mp hu)
    have hclean := hl'.clean i hu hmark
    rw [htemp] at hclean
    exact hclean

end PelionClient.Beacon
