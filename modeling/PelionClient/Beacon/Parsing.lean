import PelionClient.Beacon.Cloud

/-!
# Which payloads are parsed

A payload with bytes 10 to 12 and the tag in byte 10 is a complete report (`CompleteReport`). `on_scan` asks for one byte
more than it reads, so it drops the complete reports of exactly 13 bytes (`Dropped`), and parses every other payload as it
should: it never reads past the payload, it handles the complete reports by their index and temperature, and of all other
payloads it takes no notice. Two payloads with the same three bytes lead every state to the same next one exactly if both
of them are dropped, or neither (`parsing_iff`).
-/

namespace PelionClient.Beacon

/-- Bytes 10 to 12 are there. -/
structure HasBytes (data : List UInt8) (tag idx temp : UInt8) : Prop where
  tagByte : data[bleBeaconTagOffset]? = some tag
  idxByte : data[bleBeaconIdxOffset]? = some idx
  tempByte : data[bleBeaconTempOffset]? = some temp

/-- A report of beacon `idx`, of any length that holds it. -/
def CompleteReport (data : List UInt8) (idx temp : UInt8) : Prop := HasBytes data beaconTag idx temp

/-- The reports that end with the byte of the temperature. -/
def Dropped (data : List UInt8) : Prop :=
  data.length = bleBeaconTempOffset + 1 ∧ data[bleBeaconTagOffset]? = some beaconTag

/-- What `on_scan` does about a report of beacon `idx`. -/
def handleReport (s : BeaconState) (now : Int) (idx temp : UInt8) : Except Fault BeaconState := do
  let s ←
    if s.connectedBeacons.toNat < maxConnectedBeacons then do
      let (result, tbl) ← addBeacon s.beaconTbl idx
      if result ≠ invalidU32 then do
        let bit ← bitOf idx.toNat
        pure { s with beaconTbl := tbl, dataValidBmp := s.dataValidBmp ||| bit,
                      connectedBeacons := s.connectedBeacons + 1 }
      else
        pure { s with beaconTbl := tbl }
    else
      pure s
  let tbl ← updateBeaconData s.beaconTbl idx temp now
  return { s with beaconTbl := tbl }

/-- The count of scan events is advanced first, whatever the payload. -/
def BeaconState.counted (s : BeaconState) : BeaconState := { s with scanCount := s.scanCount + 1 }

/-- The states that scan events and publications lead to. -/
inductive Reachable : BeaconState → Prop
  | init : Reachable .init
  | scan {s u : BeaconState} (now : Int) (data : List UInt8) (hs : Reachable s) (hu : onScan s now data = .ok u) :
      Reachable u
  | publish (d : Device) (hd : Reachable d.beacons) : Reachable (updateBeaconCloudData d).1.beacons

/-- The payload is read within its length, handled if it is a complete report, and of no effect if not. -/
structure ParsedAt (s : BeaconState) (now : Int) (data : List UInt8) : Prop where
  withinPayload : ∀ i, onScan s now data ≠ .error (.payloadIndex i)
  report : ∀ idx temp, CompleteReport data idx temp → onScan s now data = handleReport s.counted now idx temp
  other : (¬∃ idx temp, CompleteReport data idx temp) → ∃ u, onScan s now data = .ok u ∧
    u.beaconTbl = s.beaconTbl ∧ u.dataValidBmp = s.dataValidBmp ∧ u.connectedBeacons = s.connectedBeacons

/-! ## Reports -/

section Payload

variable {data : List UInt8} {idx temp : UInt8}

theorem HasBytes.length {tag : UInt8} (h : HasBytes data tag idx temp) : bleBeaconTempOffset < data.length :=
  (List.getElem?_eq_some_iff.mp h.tempByte).1

/-- A complete report passes the test of `on_scan` unless it is dropped. -/
theorem isReport_iff (h : CompleteReport data idx temp) : IsReport data ↔ ¬Dropped data := by
  have hlen := h.length
  unfold IsReport Dropped
  rw [and_iff_left h.tagByte, and_iff_left h.tagByte]
  omega

theorem IsReport.complete (h : IsReport data) : ∃ idx temp, CompleteReport data idx temp := by
  obtain ⟨idx, temp, hidx, htemp⟩ := h.bytes
  exact ⟨idx, temp, h.2, hidx, htemp⟩

theorem Dropped.complete (h : Dropped data) : ∃ idx temp, CompleteReport data idx temp := by
  have hlen : data.length = 13 := h.1
  exact ⟨_, _, h.2, List.getElem?_eq_getElem (show 11 < data.length by omega),
    List.getElem?_eq_getElem (show 12 < data.length by omega)⟩

theorem onScan_report (h : CompleteReport data idx temp) (hr : IsReport data) (s : BeaconState) (now : Int) :
    onScan s now data = handleReport s.counted now idx temp := by
  unfold onScan handleReport BeaconState.counted
  simp only [if_pos hr.1, readPayload_of_some hr.2, readPayload_of_some h.idxByte, readPayload_of_some h.tempByte, bind,
    Except.bind, if_pos]

end Payload

/-- A report changes the initial state, or faults. -/
theorem handleReport_init (now : Int) (idx temp : UInt8) :
    handleReport BeaconState.init.counted now idx temp ≠ .ok BeaconState.init.counted := by
  have hbytes : CompleteReport [0, 0, 0, 0, 0, 0, 0, 0, 0, 0, beaconTag, idx, temp, 0] idx temp := ⟨rfl, rfl, rfl⟩
  have hreport : IsReport [0, 0, 0, 0, 0, 0, 0, 0, 0, 0, beaconTag, idx, temp, 0] := ⟨Nat.lt_succ_self 13, rfl⟩
  rw [← onScan_report hbytes hreport]
  rcases Nat.lt_or_ge idx.toNat maxConnectedBeacons with hlt | hge
  · intro hscan
    have hadvert := onScan_advert .init ⟨now, _, idx, temp, hreport, rfl, rfl, hlt⟩
    rw [hscan] at hadvert
    injection hadvert with hstate
    have hused := (received_used .init ⟨now, _, idx, temp, hreport, rfl, rfl, hlt⟩ ⟨idx.toNat, hlt⟩).mpr
      (Or.inr ⟨by decide, rfl⟩)
    rw [← hstate] at hused
    simp [BeaconState.counted, BeaconState.init, initBeaconTbl] at hused
  · obtain ⟨i, _, hfault⟩ := onScan_outOfRange ⟨hreport, idx, rfl, hge⟩ .init now
    rw [hfault]
    intro hok
    cases hok

/-! ## The payloads that are parsed -/

section Parsed

variable {data : List UInt8}

/-- No payload is read past its end. -/
theorem onScan_withinPayload (s : BeaconState) (now : Int) (data : List UInt8) (i : Nat) :
    onScan s now data ≠ .error (.payloadIndex i) := by
  intro hfault
  by_cases hr : IsReport data
  · obtain ⟨idx, temp, hidx, htemp⟩ := hr.bytes
    rcases Nat.lt_or_ge idx.toNat maxConnectedBeacons with hlt | hge
    · rw [onScan_advert s ⟨now, data, idx, temp, hr, hidx, htemp, hlt⟩] at hfault
      cases hfault
    · obtain ⟨j, _, hj⟩ := onScan_outOfRange ⟨hr, idx, hidx, hge⟩ s now
      rw [hj] at hfault
      cases hfault
  · rw [onScan_rejected hr] at hfault
    cases hfault

theorem parsedAt_of_not_dropped (h : ¬Dropped data) (s : BeaconState) (now : Int) : ParsedAt s now data := by
  refine ⟨onScan_withinPayload s now data, fun idx temp hc => ?_, fun hnone => ?_⟩
  · exact onScan_report hc ((isReport_iff hc).mpr h) s now
  · exact ⟨_, onScan_rejected (fun hr => hnone hr.complete) s now, rfl, rfl, rfl⟩

/-- A dropped report only counts as a scan event. -/
theorem onScan_dropped (h : Dropped data) (s : BeaconState) (now : Int) : onScan s now data = .ok s.counted := by
  obtain ⟨idx, temp, hc⟩ := h.complete
  exact onScan_rejected (fun hr => (isReport_iff hc).mp hr h) s now

theorem parsed_iff (data : List UInt8) :
    (∀ s, Reachable s → ∀ now, ParsedAt s now data) ↔ ¬Dropped data := by
  constructor
  · intro hall hdropped
    obtain ⟨idx, temp, hc⟩ := hdropped.complete
    have hparsed := (hall .init .init 0).report idx temp hc
    rw [onScan_dropped hdropped] at hparsed
    exact handleReport_init 0 idx temp hparsed.symm
  · exact fun h s _ now => parsedAt_of_not_dropped h s now

end Parsed

/-! ## Two payloads -/

/-- Two payloads with the same bytes 10 to 12. -/
structure SameBytes where
  data : List UInt8
  data' : List UInt8
  tag : UInt8
  idx : UInt8
  temp : UInt8
  bytes : HasBytes data tag idx temp
  bytes' : HasBytes data' tag idx temp

/-- Both are dropped, or neither. -/
def SameBytes.Alike (p : SameBytes) : Prop := Dropped p.data ↔ Dropped p.data'

/-- If one of two reports of the same bytes is dropped, they part at the initial state. -/
theorem onScan_parts {data data' : List UInt8} {idx temp : UInt8} (hc : CompleteReport data' idx temp)
    (hdrop : Dropped data) (hkept : ¬Dropped data') : onScan .init 0 data ≠ onScan .init 0 data' := by
  rw [onScan_dropped hdrop, onScan_report hc ((isReport_iff hc).mpr hkept)]
  exact (handleReport_init 0 idx temp).symm

/-- Two payloads without the tag are both ignored. -/
theorem onScan_otherTag {data data' : List UInt8} (h : data[bleBeaconTagOffset]? ≠ some beaconTag)
    (h' : data'[bleBeaconTagOffset]? ≠ some beaconTag) (s : BeaconState) (now : Int) :
    onScan s now data = onScan s now data' := by
  rw [onScan_rejected (fun hr => h hr.2), onScan_rejected (fun hr => h' hr.2)]

theorem sameBytes_iff (p : SameBytes) :
    (∀ s, Reachable s → ∀ now, onScan s now p.data = onScan s now p.data') ↔ p.Alike := by
  obtain ⟨data, data', tag, idx, temp, hb, hb'⟩ := p
  unfold SameBytes.Alike
  simp only
  by_cases htag : tag = beaconTag
  · subst htag
    constructor
    · intro hall
      have hinit := hall .init .init 0
      constructor
      · intro hdrop
        by_contra hkept
        exact onScan_parts hb' hdrop hkept hinit
      · intro hdrop
        by_contra hkept
        exact onScan_parts hb hdrop hkept hinit.symm
    · intro halike s _ now
      by_cases hdrop : Dropped data
      · rw [onScan_dropped hdrop, onScan_dropped (halike.mp hdrop)]
      · rw [onScan_report hb ((isReport_iff hb).mpr hdrop),
          onScan_report hb' ((isReport_iff hb').mpr (mt halike.mpr hdrop))]
  · have hother : data[bleBeaconTagOffset]? ≠ some beaconTag := by
      rw [hb.tagByte]
      exact fun h => htag (Option.some.inj h)
    have hother' : data'[bleBeaconTagOffset]? ≠ some beaconTag := by
      rw [hb'.tagByte]
      exact fun h => htag (Option.some.inj h)
    exact iff_of_true (fun s _ now => onScan_otherTag hother hother' s now)
      (iff_of_false (fun h => hother h.2) (fun h => hother' h.2))

/-- **Exactly the reports of 13 bytes are not parsed as they should be**, and make a difference that the bytes 10 to 12 do
not. -/
theorem parsing_iff (data : List UInt8) (p : SameBytes) :
    ((∀ s, Reachable s → ∀ now, ParsedAt s now data) ↔ ¬Dropped data) ∧
      ((∀ s, Reachable s → ∀ now, onScan s now p.data = onScan s now p.data') ↔ p.Alike) :=
  ⟨parsed_iff data, sameBytes_iff p⟩

/-- A report of beacon 0 that ends with its temperature. -/
def shortestReport : List UInt8 := [0, 0, 0, 0, 0, 0, 0, 0, 0, 0, 0xAF, 0, 21]

/-- It leaves no trace in the table. -/
theorem shortestReport_dropped : CompleteReport shortestReport 0 21 ∧
    onScan .init 0 shortestReport = .ok BeaconState.init.counted ∧
    ¬∀ s, Reachable s → ∀ now, ParsedAt s now shortestReport := by
  have hbytes : CompleteReport shortestReport 0 21 := ⟨rfl, rfl, rfl⟩
  refine ⟨hbytes, rfl, fun hall => ?_⟩
  have hparsed := (hall .init .init 0).report 0 21 hbytes
  exact handleReport_init 0 0 21 hparsed.symm

end PelionClient.Beacon
