import Mathlib.Data.Rat.Init

/-!
# The beacon table (`ble_beacon.c`)

`beacon_tbl` is a flat array of `MAX_CONNECTED_BEACONS` slots behind file-static functions that index it with whatever
byte they are given. An access outside the array has no meaning in C; here it is a `Fault`, which ends the computation
that made it. Within the array every function acts on one slot (`addBeacon_of_lt`, `updateBeaconData_of_lt`,
`deleteBeacon_of_lt`, `dummyUpdateBeaconData_of_lt`); outside it they fault (`addBeacon_of_le`, `updateBeaconData_of_le`).
`add_dummy_beacon` looks for its slot and never faults: it takes the first free one, if there is one (`firstFree_eq_iff`,
`addDummyBeacon_cases`).

The `float` fields are rationals: all temperatures are whole numbers below 256, which a `float` holds exactly, and the
coordinates are two constants, each the `float` nearest to the literal that is assigned (`defaultLat`, `defaultLon`).
-/

namespace PelionClient.Beacon

def maxConnectedBeacons : Nat := 10

def invalidU32 : UInt32 := 0xFFFFFFFF

/-- `BEACON_DATA_T`: one slot of the table. -/
structure BeaconData where
  /-- 0: free, 1: used -/
  elementUsed : UInt8
  updated : UInt8
  updateTime : Int
  rstp : UInt32
  lat : ℚ
  lon : ℚ
  temp : ℚ
deriving DecidableEq, Repr

/-- The `float` that `65.0593177` is rounded to. -/
def defaultLat : ℚ := 8527455 / 131072

/-- The `float` that `25.4662935` is rounded to. -/
def defaultLon : ℚ := 1668959 / 65536

/-- A slot after `memset(.., 0, ..)`. -/
def BeaconData.zero : BeaconData := ⟨0, 0, 0, 0, 0, 0, 0⟩

/-- The test `if(beacon_tbl[i].element_used)`. -/
def BeaconData.Used (b : BeaconData) : Prop := b.elementUsed ≠ 0

instance (b : BeaconData) : Decidable b.Used := inferInstanceAs (Decidable (_ ≠ _))

abbrev BeaconTbl := Vector BeaconData maxConnectedBeacons

/-- An index of a slot is in range by its type. -/
instance {α : Type*} : GetElem (Vector α maxConnectedBeacons) (Fin maxConnectedBeacons) α fun _ _ => True where
  getElem t i _ := getElem t i.val i.isLt

/-- A write to the slot `i`. -/
abbrev BeaconTbl.set (t : BeaconTbl) (i : Nat) (b : BeaconData)
    (h : i < maxConnectedBeacons := by first | assumption | exact Fin.isLt _ | decide) : BeaconTbl :=
  Vector.set t i b h

def initBeaconTbl : BeaconTbl := Vector.replicate maxConnectedBeacons .zero

/-! ## Accesses -/

/-- The first operation of a computation that leaves the object it works on. -/
inductive Fault
  /-- `beacon_tbl[i]` with `i` past the table. -/
  | tblIndex (i : Nat)
  /-- `advertisingData[i]` with `i` past the payload. -/
  | payloadIndex (i : Nat)
  /-- A shift of the bitmap's bit by the bitmap's width or more. -/
  | bitShift (n : Nat)
deriving DecidableEq, Repr

def readTbl (t : BeaconTbl) (i : Nat) : Except Fault BeaconData :=
  if h : i < maxConnectedBeacons then .ok t[i] else .error (.tblIndex i)

def writeTbl (t : BeaconTbl) (i : Nat) (b : BeaconData) : Except Fault BeaconTbl :=
  if h : i < maxConnectedBeacons then .ok (t.set i b) else .error (.tblIndex i)

/-! ## The functions -/

/-- `add_beacon`. The slot is read before its index is checked. -/
def addBeacon (t : BeaconTbl) (i : UInt8) : Except Fault (UInt32 × BeaconTbl) := do
  let b ← readTbl t i.toNat
  if b.Used then
    return (0, t)
  if maxConnectedBeacons ≤ i.toNat then
    return (invalidU32, t)
  let t ← writeTbl t i.toNat
    { b with elementUsed := 1, updated := 1, rstp := invalidU32, lat := defaultLat, lon := defaultLon, temp := 0 }
  return (0, t)

/-- `update_beacon_data`, called when `time(NULL)` is `now`. -/
def updateBeaconData (t : BeaconTbl) (index temp : UInt8) (now : Int) : Except Fault BeaconTbl := do
  let b ← readTbl t index.toNat
  if b.Used then
    writeTbl t index.toNat { b with temp := temp.toNat, updated := 1, updateTime := now }
  else
    return t

/-- The loop of `add_dummy_beacon`: the index of the first free slot, or the table's size. -/
def firstFree (t : BeaconTbl) : Nat := t.toList.findIdx fun b => b.elementUsed == 0

/-- `add_dummy_beacon` -/
def addDummyBeacon (t : BeaconTbl) : Except Fault (UInt32 × BeaconTbl) := do
  let i := firstFree t
  if i = maxConnectedBeacons then
    return (invalidU32, t)
  let b ← readTbl t i
  let t ← writeTbl t i
    { b with elementUsed := 1, updated := 1, rstp := invalidU32, lat := defaultLat, lon := defaultLon, temp := 23 }
  return (UInt32.ofNat i, t)

/-- `delete_beacon` -/
def deleteBeacon (t : BeaconTbl) (tblIdx : UInt8) : Except Fault BeaconTbl := writeTbl t tblIdx.toNat .zero

/-- `dummy_update_beacon_data`, called when `time(NULL)` is `now`. -/
def dummyUpdateBeaconData (t : BeaconTbl) (index : UInt8) (now : Int) : Except Fault BeaconTbl := do
  let b ← readTbl t index.toNat
  if b.Used then
    writeTbl t index.toNat
      { b with temp := if b.temp < 50 then b.temp + 1 else 23, updated := 1, updateTime := now }
  else
    return t

/-! ## What they do to a slot -/

/-- A slot after `add_beacon` on it. -/
def BeaconData.added (b : BeaconData) : BeaconData :=
  if b.Used then b
  else { b with elementUsed := 1, updated := 1, rstp := invalidU32, lat := defaultLat, lon := defaultLon, temp := 0 }

/-- A slot after `update_beacon_data` on it. -/
def BeaconData.measured (b : BeaconData) (temp : UInt8) (now : Int) : BeaconData :=
  if b.Used then { b with temp := temp.toNat, updated := 1, updateTime := now } else b

/-- A free slot after `add_dummy_beacon` on it. -/
def BeaconData.dummyAdded (b : BeaconData) : BeaconData :=
  { b with elementUsed := 1, updated := 1, rstp := invalidU32, lat := defaultLat, lon := defaultLon, temp := 23 }

/-- A slot after `dummy_update_beacon_data` on it. -/
def BeaconData.dummyMeasured (b : BeaconData) (now : Int) : BeaconData :=
  if b.Used then { b with temp := if b.temp < 50 then b.temp + 1 else 23, updated := 1, updateTime := now } else b

@[simp] theorem BeaconData.not_used_zero : ¬BeaconData.zero.Used := by decide

@[simp] theorem BeaconData.used_added (b : BeaconData) : b.added.Used := by
  unfold added
  split
  · assumption
  · simp [Used]

@[simp] theorem BeaconData.used_measured (b : BeaconData) (temp : UInt8) (now : Int) :
    (b.measured temp now).Used ↔ b.Used := by
  unfold measured
  split <;> rfl

@[simp] theorem BeaconData.used_dummyAdded (b : BeaconData) : b.dummyAdded.Used := by simp [dummyAdded, Used]

@[simp] theorem BeaconData.used_dummyMeasured (b : BeaconData) (now : Int) : (b.dummyMeasured now).Used ↔ b.Used := by
  unfold dummyMeasured
  split <;> rfl

@[simp] theorem getElem_slot {α : Type*} (v : Vector α maxConnectedBeacons) (i : Fin maxConnectedBeacons) :
    v[i] = v[i.val] := rfl

/-- The table after a write to slot `i`, read at a slot. -/
theorem getElem_set_slot (t : BeaconTbl) (i j : Fin maxConnectedBeacons) (b : BeaconData) :
    (t.set i b)[j] = if i = j then b else t[j] := by
  simp only [getElem_slot, Vector.getElem_set, Fin.ext_iff]

theorem getElem_set_self (t : BeaconTbl) (i : Fin maxConnectedBeacons) (b : BeaconData) : (t.set i b)[i] = b := by
  rw [getElem_set_slot, if_pos rfl]

theorem getElem_set_other (t : BeaconTbl) {i j : Fin maxConnectedBeacons} (h : j ≠ i) (b : BeaconData) :
    (t.set i b)[j] = t[j] := by
  rw [getElem_set_slot, if_neg (Ne.symm h)]

/-- A write of what is there. -/
theorem set_getElem_self (t : BeaconTbl) {i : Nat} (h : i < maxConnectedBeacons) : t.set i t[i] = t :=
  Vector.set_getElem_self h

/-- An index of the table is a number that `uint32_t` holds. -/
theorem toNat_ofNat_slot {i : Nat} (hi : i < maxConnectedBeacons) : (UInt32.ofNat i).toNat = i := by
  rw [UInt32.toNat_ofNat']
  exact Nat.mod_eq_of_lt (Nat.lt_trans hi (by decide))

section Accesses

variable {t : BeaconTbl} {i : UInt8}

theorem readTbl_of_lt {i : Nat} (h : i < maxConnectedBeacons) : readTbl t i = .ok t[i] := dif_pos h

theorem readTbl_of_le {i : Nat} (h : maxConnectedBeacons ≤ i) : readTbl t i = .error (.tblIndex i) :=
  dif_neg (Nat.not_lt.mpr h)

theorem writeTbl_of_lt {i : Nat} {b : BeaconData} (h : i < maxConnectedBeacons) : writeTbl t i b = .ok (t.set i b) :=
  dif_pos h

/-- A byte below the table's length: `add_beacon` acts on that slot and returns 0, also when the slot is used. -/
theorem addBeacon_of_lt (h : i.toNat < maxConnectedBeacons) :
    addBeacon t i = .ok (0, t.set i.toNat t[i.toNat].added) := by
  unfold addBeacon
  rw [readTbl_of_lt h]
  by_cases hu : t[i.toNat].Used
  · have ht : t.set i.toNat t[i.toNat].added = t := by
      rw [BeaconData.added, if_pos hu, set_getElem_self]
    rw [ht]
    simp only [bind, Except.bind, if_pos hu]
    rfl
  · simp only [bind, Except.bind, if_neg hu, if_neg (Nat.not_le.mpr h), writeTbl_of_lt h]
    rw [BeaconData.added, if_neg hu]
    rfl

/-- Any other byte: `add_beacon` faults on its first read, before its range check. -/
theorem addBeacon_of_le (h : maxConnectedBeacons ≤ i.toNat) : addBeacon t i = .error (.tblIndex i.toNat) := by
  unfold addBeacon
  rw [readTbl_of_le h]
  rfl

theorem updateBeaconData_of_lt {temp : UInt8} {now : Int} (h : i.toNat < maxConnectedBeacons) :
    updateBeaconData t i temp now = .ok (t.set i.toNat (t[i.toNat].measured temp now)) := by
  unfold updateBeaconData
  rw [readTbl_of_lt h]
  by_cases hu : t[i.toNat].Used
  · simp only [bind, Except.bind, if_pos hu, writeTbl_of_lt h]
    rw [BeaconData.measured, if_pos hu]
  · have ht : t.set i.toNat (t[i.toNat].measured temp now) = t := by
      rw [BeaconData.measured, if_neg hu, set_getElem_self]
    rw [ht]
    simp only [bind, Except.bind, if_neg hu]
    rfl

theorem updateBeaconData_of_le {temp : UInt8} {now : Int} (h : maxConnectedBeacons ≤ i.toNat) :
    updateBeaconData t i temp now = .error (.tblIndex i.toNat) := by
  unfold updateBeaconData
  rw [readTbl_of_le h]
  rfl

theorem deleteBeacon_of_lt (h : i.toNat < maxConnectedBeacons) : deleteBeacon t i = .ok (t.set i.toNat .zero) :=
  writeTbl_of_lt h

theorem dummyUpdateBeaconData_of_lt {now : Int} (h : i.toNat < maxConnectedBeacons) :
    dummyUpdateBeaconData t i now = .ok (t.set i.toNat (t[i.toNat].dummyMeasured now)) := by
  unfold dummyUpdateBeaconData
  rw [readTbl_of_lt h]
  by_cases hu : t[i.toNat].Used
  · simp only [bind, Except.bind, if_pos hu, writeTbl_of_lt h]
    rw [BeaconData.dummyMeasured, if_pos hu]
  · have ht : t.set i.toNat (t[i.toNat].dummyMeasured now) = t := by
      rw [BeaconData.dummyMeasured, if_neg hu, set_getElem_self]
    rw [ht]
    simp only [bind, Except.bind, if_neg hu]
    rfl

/-- A slot is free if the loop of `add_dummy_beacon` stops at it. -/
theorem beq_zero_iff {b : BeaconData} : (b.elementUsed == 0) = true ↔ ¬b.Used := by
  simp [BeaconData.Used]

/-- The loop stops at the first free slot. -/
theorem firstFree_eq_iff {i : Nat} (h : i < maxConnectedBeacons) :
    firstFree t = i ↔ ¬t[i].Used ∧ ∀ j : Fin maxConnectedBeacons, j.val < i → t[j].Used := by
  have hlen : i < t.toList.length := by simpa using h
  unfold firstFree
  rw [List.findIdx_eq hlen]
  simp only [Vector.getElem_toList, beq_zero_iff, ← Bool.not_eq_true, Decidable.not_not]
  refine and_congr_right fun _ => ⟨fun hj j hlt => hj j hlt, fun hj j hlt => hj ⟨j, Nat.lt_trans hlt h⟩ hlt⟩

/-- It goes to the end if there is none. -/
theorem firstFree_eq_max : firstFree t = maxConnectedBeacons ↔ ∀ i : Fin maxConnectedBeacons, t[i].Used := by
  have hlen : t.toList.length = maxConnectedBeacons := Vector.length_toList
  have hend := @List.findIdx_eq_length _ (fun b : BeaconData => b.elementUsed == 0) t.toList
  rw [hlen] at hend
  rw [firstFree, hend]
  constructor
  · intro hall i
    have hmem : t[i] ∈ t.toList := Vector.mem_toList_iff.mpr (Vector.getElem_mem i.isLt)
    have hnot := hall t[i] hmem
    rwa [← Bool.not_eq_true, beq_zero_iff, Decidable.not_not] at hnot
  · intro hall b hb
    obtain ⟨i, hi, rfl⟩ := List.getElem_of_mem hb
    rw [hlen] at hi
    rw [← Bool.not_eq_true, beq_zero_iff, Decidable.not_not]
    exact hall ⟨i, hi⟩

theorem firstFree_le (t : BeaconTbl) : firstFree t ≤ maxConnectedBeacons := by
  have hlen : t.toList.length = maxConnectedBeacons := Vector.length_toList
  rw [← hlen]
  exact List.findIdx_le_length

/-- With a free slot, `add_dummy_beacon` fills the first one. -/
theorem addDummyBeacon_of_lt (h : firstFree t < maxConnectedBeacons) :
    addDummyBeacon t = .ok (UInt32.ofNat (firstFree t), t.set (firstFree t) t[firstFree t].dummyAdded) := by
  unfold addDummyBeacon
  simp only [if_neg (Nat.ne_of_lt h), readTbl_of_lt h, bind, Except.bind, writeTbl_of_lt h]
  rfl

/-- A full table is left as it is. -/
theorem addDummyBeacon_of_full (h : firstFree t = maxConnectedBeacons) : addDummyBeacon t = .ok (invalidU32, t) := by
  unfold addDummyBeacon
  simp only [if_pos h]
  rfl

/-- **`add_dummy_beacon`** fills the first free slot and returns its index, or there is none. -/
theorem addDummyBeacon_cases (t : BeaconTbl) :
    (∃ i : Fin maxConnectedBeacons, firstFree t = i ∧ ¬t[i].Used ∧
      addDummyBeacon t = .ok (UInt32.ofNat i, t.set i t[i].dummyAdded)) ∨
    (firstFree t = maxConnectedBeacons ∧ addDummyBeacon t = .ok (invalidU32, t)) := by
  rcases Nat.lt_or_ge (firstFree t) maxConnectedBeacons with hlt | hge
  · exact Or.inl ⟨⟨firstFree t, hlt⟩, rfl, ((firstFree_eq_iff hlt).mp rfl).1, addDummyBeacon_of_lt hlt⟩
  · have hfull := Nat.le_antisymm (firstFree_le t) hge
    exact Or.inr ⟨hfull, addDummyBeacon_of_full hfull⟩

end Accesses

end PelionClient.Beacon
