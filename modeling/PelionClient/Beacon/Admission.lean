import PelionClient.Lib.Run
import PelionClient.Lib.Slots
import PelionClient.Beacon.Scan

/-!
# Which beacons get a slot

`on_scan` admits a beacon while `connected_beacons` is below the table's size, and advances the counter whenever
`add_beacon` does not return `INVALID_U32`. `add_beacon` returns 0 for a beacon that is in the table already, so the
counter counts reports, not beacons: after a run over the reports `as` it is `min as.length MAX_CONNECTED_BEACONS`, and the
used slots are the beacons of the first `MAX_CONNECTED_BEACONS` reports (`admitted_run`). No beacon is turned away while
its slot is free exactly when those reports are of different beacons (`admitsAll_iff`).
-/

namespace PelionClient.Beacon

open Lib

/-- One report delivered to the scan callback. -/
def scanStep (s : BeaconState) (a : Advert) : Option BeaconState := (onScan s a.now a.data).toOption

@[simp] theorem scanStep_eq (s : BeaconState) (a : Advert) : scanStep s a = some (s.received a) := by
  rw [scanStep, onScan_advert]
  rfl

/-! ## One report -/

section Received

variable (s : BeaconState) (a : Advert)

theorem received_tbl : (s.received a).beaconTbl = s.beaconTbl.set a.beacon
    ((if s.connectedBeacons.toNat < maxConnectedBeacons then s.beaconTbl[a.beacon].added
      else s.beaconTbl[a.beacon]).measured a.temp a.now) := by
  unfold BeaconState.received
  split <;> rfl

/-- A report fills the slot of its beacon while the counter is below the table's size, and no slot after that. -/
theorem received_used (i : Fin maxConnectedBeacons) : (s.received a).beaconTbl[i].Used ↔
    s.beaconTbl[i].Used ∨ (s.connectedBeacons.toNat < maxConnectedBeacons ∧ i = a.beacon) := by
  rw [received_tbl]
  by_cases hi : i = a.beacon
  · subst hi
    rw [getElem_set_self]
    split <;> simp [*]
  · rw [getElem_set_other _ hi]
    simp [hi]

theorem received_counter (h : s.connectedBeacons.toNat ≤ maxConnectedBeacons) :
    (s.received a).connectedBeacons.toNat = min (s.connectedBeacons.toNat + 1) maxConnectedBeacons := by
  unfold BeaconState.received
  by_cases hc : s.connectedBeacons.toNat < maxConnectedBeacons
  · rw [if_pos hc]
    have hone : (1 : UInt8).toNat = 1 := rfl
    simp only [maxConnectedBeacons] at hc ⊢
    rw [UInt8.toNat_add, hone]
    omega
  · rw [if_neg hc]
    simp only
    omega

end Received

/-! ## A run -/

/-- What the table and the counter hold after the reports `as`. -/
def Admitted (as : List Advert) (s : BeaconState) : Prop :=
  s.connectedBeacons.toNat = min as.length maxConnectedBeacons ∧
    ∀ i, s.beaconTbl[i].Used ↔ i ∈ (as.map Advert.beacon).take maxConnectedBeacons

theorem admitted_init : Admitted [] .init :=
  ⟨rfl, fun i => by simp [BeaconState.init, initBeaconTbl]⟩

theorem admitted_step {as : List Advert} {s : BeaconState} (h : Admitted as s) (a : Advert) :
    Admitted (as ++ [a]) (s.received a) := by
  obtain ⟨hc, hu⟩ := h
  constructor
  · rw [received_counter s a (by omega), hc, List.length_append, List.length_singleton]
    omega
  · intro i
    have hlt : s.connectedBeacons.toNat < maxConnectedBeacons ↔ as.length < maxConnectedBeacons := by omega
    rw [received_used, hu, List.map_append, List.map_singleton, mem_take_snoc, hlt, List.length_map]

/-- **Every run of reports goes through**, and leaves the beacons of the first reports in the table. -/
theorem admitted_run (as : List Advert) : ∃ s, run scanStep .init as = some s ∧ Admitted as s :=
  run_progress Admitted admitted_init (fun _ t a h => ⟨t.received a, scanStep_eq t a, admitted_step h a⟩) as

/-! ## No beacon turned away -/

def usedSlots (t : BeaconTbl) : Finset (Fin maxConnectedBeacons) := Finset.univ.filter fun i => t[i].Used

/-- The used slots are the beacons that reported, and the counter is their number. -/
def AdmitsAll (as : List Advert) (s : BeaconState) : Prop :=
  (∀ i, s.beaconTbl[i].Used ↔ i ∈ as.map Advert.beacon) ∧ s.connectedBeacons.toNat = (usedSlots s.beaconTbl).card

theorem card_usedSlots {as : List Advert} {s : BeaconState} (h : Admitted as s) :
    s.connectedBeacons.toNat = (usedSlots s.beaconTbl).card ↔
      ((as.map Advert.beacon).take maxConnectedBeacons).Nodup := by
  have hslots : usedSlots s.beaconTbl =
      Finset.univ.filter (· ∈ (as.map Advert.beacon).take maxConnectedBeacons) := by
    ext i
    simp only [usedSlots, Finset.mem_filter, Finset.mem_univ, true_and]
    exact h.2 i
  rw [hslots, h.1, ← card_named, List.length_take, List.length_map, Nat.min_comm, eq_comm]

/-- **The counter and the table agree with the reports exactly when the first reports are of different beacons.** -/
theorem admitsAll_iff (as : List Advert) : ∃ s, run scanStep .init as = some s ∧
    (AdmitsAll as s ↔ ((as.map Advert.beacon).take maxConnectedBeacons).Nodup) := by
  obtain ⟨s, hrun, hadm⟩ := admitted_run as
  refine ⟨s, hrun, ?_⟩
  constructor
  · intro h
    exact (card_usedSlots hadm).mp h.2
  · intro hnd
    refine ⟨fun i => ?_, (card_usedSlots hadm).mpr hnd⟩
    rw [hadm.2 i, mem_take_of_nodup hnd]

/-- A report of beacon 0. -/
def advertZero : Advert where
  now := 0
  data := [0, 0, 0, 0, 0, 0, 0, 0, 0, 0, 0xAF, 0, 21, 0]
  idx := 0
  temp := 21
  isReport := ⟨by decide, rfl⟩
  idxByte := rfl
  tempByte := rfl
  inRange := by decide

/-- Two reports of the same beacon count as two beacons. -/
theorem repeated_report_counted_twice :
    ¬∃ s, run scanStep .init [advertZero, advertZero] = some s ∧ AdmitsAll [advertZero, advertZero] s := by
  rintro ⟨s, hs, hall⟩
  obtain ⟨t, ht, hadm⟩ := admitted_run [advertZero, advertZero]
  rw [hs] at ht
  cases ht
  exact absurd ((card_usedSlots hadm).mp hall.2) (by decide)

end PelionClient.Beacon
