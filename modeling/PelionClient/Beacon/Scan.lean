import PelionClient.Beacon.Table

/-!
# The scan callback (`GAPDevice::on_scan`)

`on_scan` reads a beacon's tag, index and temperature out of an advertisement, adds the beacon while the counter of
connected beacons is below the table's size, sets its bit in the bitmap, and stores the temperature.

- `onScan_rejected`: a payload that is too short or has another tag changes nothing but the count of scan events;
- `onScan_advert`: a beacon report whose index is in the table acts on that one slot (`BeaconState.received`);
- `onScan_outOfRange`: a beacon report with any other index faults, whatever the state;
- `onScan_safe_iff`: so the callback stays inside the table exactly when the report's index does.
-/

namespace PelionClient.Beacon

def bleBeaconTagOffset : Nat := 10
def bleBeaconIdxOffset : Nat := 11
def bleBeaconTempOffset : Nat := 12

/-- The tag that on_scan looks for. -/
def beaconTag : UInt8 := 0xAF

/-- The statics that the beacon code works on. -/
structure BeaconState where
  beaconTbl : BeaconTbl
  connectedBeacons : UInt8
  dataValidBmp : BitVec 16
  /-- `GAPDevice::_scan_count` -/
  scanCount : UInt32
deriving DecidableEq, Repr

/-- The state when the main loop starts. -/
def BeaconState.init : BeaconState := ⟨initBeaconTbl, 0, 0, 0⟩

def readPayload (data : List UInt8) (i : Nat) : Except Fault UInt8 :=
  if h : i < data.length then .ok data[i] else .error (.payloadIndex i)

/-- `0x1u << n` for the 16 bits of `data_valid_bmp`. -/
def bitOf (n : Nat) : Except Fault (BitVec 16) :=
  if n < 16 then .ok (1#16 <<< n) else .error (.bitShift n)

/-- `GAPDevice::on_scan` on the payload `data`, when `time(NULL)` is `now`. -/
def onScan (s : BeaconState) (now : Int) (data : List UInt8) : Except Fault BeaconState := do
  let s := { s with scanCount := s.scanCount + 1 }
  if bleBeaconTempOffset + 1 < data.length then
    let tag ← readPayload data bleBeaconTagOffset
    if tag = beaconTag then
      let idx ← readPayload data bleBeaconIdxOffset
      let temp ← readPayload data bleBeaconTempOffset
      let s ←
        if s.connectedBeacons.toNat < maxConnectedBeacons then do
          let (result, tbl) ← addBeacon s.beaconTbl idx
          if result ≠ invalidU32 then do
            let bit ← bitOf idx.toNat
            pure { s with beaconTbl := tbl, dataValidBmp := s.dataValidBmp ||| bit,
                          connectedBeacons := s.connectedBeacons + 1 }
          else
            pure { s with beaconTbl := tbl }
        else
          pure s
      let tbl ← updateBeaconData s.beaconTbl idx temp now
      return { s with beaconTbl := tbl }
    else
      return s
  else
    return s

/-! ## Payloads -/

/-- The payload passes the length test and carries the tag. -/
def IsReport (data : List UInt8) : Prop :=
  bleBeaconTempOffset + 1 < data.length ∧ data[bleBeaconTagOffset]? = some beaconTag

instance (data : List UInt8) : Decidable (IsReport data) := inferInstanceAs (Decidable (_ ∧ _))

/-- A beacon report whose index byte is not an index of the table. -/
def OutOfRange (data : List UInt8) : Prop :=
  IsReport data ∧ ∃ idx, data[bleBeaconIdxOffset]? = some idx ∧ maxConnectedBeacons ≤ idx.toNat

/-- A beacon report for a beacon of the table. -/
structure Advert where
  now : Int
  data : List UInt8
  idx : UInt8
  temp : UInt8
  isReport : IsReport data
  idxByte : data[bleBeaconIdxOffset]? = some idx
  tempByte : data[bleBeaconTempOffset]? = some temp
  inRange : idx.toNat < maxConnectedBeacons

/-- The slot that the report is about. -/
def Advert.beacon (a : Advert) : Fin maxConnectedBeacons := ⟨a.idx.toNat, a.inRange⟩

theorem readPayload_of_some {data : List UInt8} {i : Nat} {b : UInt8} (h : data[i]? = some b) :
    readPayload data i = .ok b := by
  obtain ⟨hi, rfl⟩ := List.getElem?_eq_some_iff.mp h
  exact dif_pos hi

theorem bitOf_of_lt {n : Nat} (h : n < maxConnectedBeacons) : bitOf n = .ok (1#16 <<< n) :=
  if_pos (Nat.lt_trans h (by decide))

/-- The bits after one more is set. -/
theorem getLsbD_setBit {bmp : BitVec 16} {i n : Nat} (hi : i < maxConnectedBeacons) :
    (bmp ||| 1#16 <<< i).getLsbD n = true ↔ bmp.getLsbD n = true ∨ n = i := by
  have hw : i < 16 := Nat.lt_trans hi (by decide)
  simp only [BitVec.getLsbD_or, BitVec.getLsbD_shiftLeft, BitVec.getLsbD_one, Bool.or_eq_true, Bool.and_eq_true,
    decide_eq_true_eq, Bool.not_eq_true', decide_eq_false_iff_not]
  refine or_congr_right ?_
  omega

/-- The index and temperature bytes of a report are there. -/
theorem IsReport.bytes {data : List UInt8} (h : IsReport data) :
    ∃ idx temp, data[bleBeaconIdxOffset]? = some idx ∧ data[bleBeaconTempOffset]? = some temp := by
  have hl : 13 < data.length := h.1
  exact ⟨_, _, List.getElem?_eq_getElem (show 11 < data.length by omega),
    List.getElem?_eq_getElem (show 12 < data.length by omega)⟩

/-! ## The callback on each kind of payload -/

/-- Any payload that is not a report only counts as a scan event. -/
theorem onScan_rejected {data : List UInt8} (h : ¬IsReport data) (s : BeaconState) (now : Int) :
    onScan s now data = .ok { s with scanCount := s.scanCount + 1 } := by
  unfold onScan
  by_cases hl : bleBeaconTempOffset + 1 < data.length
  · have hl' : bleBeaconTagOffset < data.length := Nat.lt_of_le_of_lt (by decide) hl
    have ht : data[bleBeaconTagOffset] ≠ beaconTag := by
      intro ht
      exact h ⟨hl, by rw [List.getElem?_eq_getElem hl', ht]⟩
    simp only [if_pos hl, readPayload_of_some (List.getElem?_eq_getElem hl'), bind, Except.bind, if_neg ht]
    rfl
  · simp only [if_neg hl]
    rfl

/-- The state after a report about a beacon of the table: while the counter is below the table's size the beacon is
added, its bit set and the counter advanced, known or not; then the temperature is stored if the slot is used. -/
def BeaconState.received (s : BeaconState) (a : Advert) : BeaconState :=
  if s.connectedBeacons.toNat < maxConnectedBeacons then
    { beaconTbl := s.beaconTbl.set a.beacon (s.beaconTbl[a.beacon].added.measured a.temp a.now)
      connectedBeacons := s.connectedBeacons + 1
      dataValidBmp := s.dataValidBmp ||| 1#16 <<< a.beacon.val
      scanCount := s.scanCount + 1 }
  else
    { s with
      beaconTbl := s.beaconTbl.set a.beacon (s.beaconTbl[a.beacon].measured a.temp a.now)
      scanCount := s.scanCount + 1 }

theorem onScan_advert (s : BeaconState) (a : Advert) : onScan s a.now a.data = .ok (s.received a) := by
  have hb : a.beacon.val = a.idx.toNat := rfl
  unfold onScan BeaconState.received
  by_cases hc : s.connectedBeacons.toNat < maxConnectedBeacons
  · have h0 : (0 : UInt32) ≠ invalidU32 := by decide
    simp only [if_pos a.isReport.1, readPayload_of_some a.isReport.2, readPayload_of_some a.idxByte,
      readPayload_of_some a.tempByte, bind, Except.bind, if_pos, if_pos hc, addBeacon_of_lt a.inRange, if_pos h0,
      bitOf_of_lt a.inRange, pure, Except.pure, updateBeaconData_of_lt a.inRange]
    simp [hb, Vector.set_set]
  · simp only [if_pos a.isReport.1, readPayload_of_some a.isReport.2, readPayload_of_some a.idxByte,
      readPayload_of_some a.tempByte, bind, Except.bind, if_pos, if_neg hc, pure, Except.pure,
      updateBeaconData_of_lt a.inRange]
    simp [hb]

/-- A report with an index past the table faults on its first access to the table: in `add_beacon` while the counter is
below the table's size, in `update_beacon_data` after that. -/
theorem onScan_outOfRange {data : List UInt8} (h : OutOfRange data) (s : BeaconState) (now : Int) :
    ∃ i, maxConnectedBeacons ≤ i ∧ onScan s now data = .error (.tblIndex i) := by
  obtain ⟨hr, idx, hidx, hle⟩ := h
  obtain ⟨_, temp, _, htemp⟩ := hr.bytes
  refine ⟨idx.toNat, hle, ?_⟩
  unfold onScan
  by_cases hc : s.connectedBeacons.toNat < maxConnectedBeacons
  · simp only [if_pos hr.1, readPayload_of_some hr.2, readPayload_of_some hidx, readPayload_of_some htemp, bind,
      Except.bind, if_pos, if_pos hc, addBeacon_of_le hle]
  · simp only [if_pos hr.1, readPayload_of_some hr.2, readPayload_of_some hidx, readPayload_of_some htemp, bind,
      Except.bind, if_pos, if_neg hc, pure, Except.pure, updateBeaconData_of_le hle]

/-! ## Staying inside the table -/

/-- The callback makes no access outside the table and the payload, shifts by less than the bitmap's width, and leaves
table, bitmap and counter alone if the payload's index byte is not an index of the table. -/
def OnScanSafe (s : BeaconState) (now : Int) (data : List UInt8) : Prop :=
  ∃ s', onScan s now data = .ok s' ∧
    ((∃ idx, data[bleBeaconIdxOffset]? = some idx ∧ maxConnectedBeacons ≤ idx.toNat) →
      s'.beaconTbl = s.beaconTbl ∧ s'.dataValidBmp = s.dataValidBmp ∧ s'.connectedBeacons = s.connectedBeacons)

/-- **The callback is safe exactly on the payloads that are not reports with an index past the table**, in every state. -/
theorem onScan_safe_iff (s : BeaconState) (now : Int) (data : List UInt8) :
    OnScanSafe s now data ↔ ¬OutOfRange data := by
  constructor
  · rintro ⟨s', hs', _⟩ hbad
    obtain ⟨i, _, hi⟩ := onScan_outOfRange hbad s now
    rw [hi] at hs'
    cases hs'
  · intro hgood
    by_cases hr : IsReport data
    · obtain ⟨idx, temp, hidx, htemp⟩ := hr.bytes
      have hlt : idx.toNat < maxConnectedBeacons :=
        Nat.lt_of_not_le fun hle => hgood ⟨hr, idx, hidx, hle⟩
      refine ⟨_, onScan_advert s ⟨now, data, idx, temp, hr, hidx, htemp, hlt⟩, ?_⟩
      rintro ⟨idx', hidx', hle⟩
      rw [hidx] at hidx'
      cases hidx'
      omega
    · exact ⟨_, onScan_rejected hr s now, fun _ => ⟨rfl, rfl, rfl⟩⟩

/-- The first report of a beacon 10 reads past the table. -/
theorem onScan_unsafe_index_ten :
    ¬OnScanSafe .init 0 [0, 0, 0, 0, 0, 0, 0, 0, 0, 0, 0xAF, 10, 21, 0] := by
  rintro ⟨s', hs', _⟩
  have hf : onScan .init 0 [0, 0, 0, 0, 0, 0, 0, 0, 0, 0, 0xAF, 10, 21, 0] = .error (.tblIndex 10) := rfl
  rw [hf] at hs'
  cases hs'

end PelionClient.Beacon
