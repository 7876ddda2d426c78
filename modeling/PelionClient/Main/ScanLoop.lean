import PelionClient.Gap.Return
import PelionClient.Beacon.View

/-!
# The main loop with BLE (`main_application`)

With `FEA_BLE` 1 the loop tests `is_register_called()`, calls `gap_device.run()`, and when that returns publishes the beacon
table and waits. The test and the beginning of `run` are two actions, so the cloud client's callbacks can come between them.
The scanner, the table and the resources are one system here: an advertisement is an action of the scanner and a call of
`on_scan`, and the table is published only between two scans.

- The scanner's part of a run is a run of the scanner (`gap_run`), the table's part one of the board (`boarded_run`).
- So what a publication writes can be read off the payloads heard before it (`cloud_loopPublication`).
- Once the scanner's dispatch cannot come to its end the loop never publishes again, whatever the beacons report
  (`loop_frozen`).
-/

namespace PelionClient.Main

open Lib Gap Beacon

/-- Where `main_application` is. -/
inductive Control
  /-- At the test of the loop. -/
  | testing
  /-- Past the test, and before `gap_device.run()`. -/
  | entering
  /-- In `gap_device.run()`. -/
  | running
  /-- Between `run` and the next test. -/
  | publishing
  /-- Behind the loop. -/
  | exited
deriving DecidableEq, Repr

structure ScanLoop where
  control : Control
  gap : GapDevice
  device : Device

/-- The loop is reached with a new scanner and the initialised table. -/
def ScanLoop.init (capacity : Nat) : ScanLoop := ⟨.testing, .fresh capacity, .init⟩

inductive LoopAct
  /-- The test, with what `is_register_called()` returns. -/
  | test (registered : Bool)
  /-- `gap_device.run()` begins. -/
  | run
  /-- An action of the scanner other than these. -/
  | gap (a : Gap.Act)
  /-- The stack calls `on_scan`. -/
  | advertisement (now : Int) (data : List UInt8)
  /-- `update_beacon_cloud_data()` and the wait. -/
  | publish
deriving DecidableEq, Repr

/-- `run` has returned if the scanner is outside it. -/
def controlAfter (g : GapDevice) : Control := if g.phase = .outside then .publishing else .running

/-- Where the test leads. -/
def controlTested (registered : Bool) : Control := if registered then .entering else .exited

/-- `demo_mode_end` clears `_scan_count`. -/
def clearScanCount (d : Device) : Gap.Act → Device
  | .deliver ⟨.demoModeEnd, _⟩ _ _ => { d with beacons := { d.beacons with scanCount := 0 } }
  | _ => d

def loopStep (s : ScanLoop) : LoopAct → Option ScanLoop
  | .test registered => if s.control = .testing then some { s with control := controlTested registered } else none
  | .run =>
    if s.control = .entering then (Gap.step s.gap .run).map fun g => ⟨controlAfter g, g, s.device⟩ else none
  | .gap a =>
    if s.control = .running ∧ a ≠ .run ∧ a ≠ .advertisement then
      (Gap.step s.gap a).map fun g => ⟨controlAfter g, g, clearScanCount s.device a⟩
    else none
  | .advertisement now data =>
    if s.control = .running then
      (Gap.step s.gap .advertisement).bind fun g =>
        (onScan s.device.beacons now data).toOption.map fun b => ⟨.running, g, { s.device with beacons := b }⟩
    else none
  | .publish =>
    if s.control = .publishing then some ⟨.testing, s.gap, (updateBeaconCloudData s.device).1⟩ else none

/-! ## The parts of a run -/

/-- What an action is to the scanner. -/
def gapAct : LoopAct → Option Gap.Act
  | .test _ => none
  | .run => some .run
  | .gap a => some a
  | .advertisement _ _ => some .advertisement
  | .publish => none

def gapActs (as : List LoopAct) : List Gap.Act := as.filterMap gapAct

/-- The temperature and the slot that a payload reports. -/
def reportOf (data : List UInt8) : Option (BoardOp (Fin maxConnectedBeacons) ℚ) :=
  if IsReport data then
    match data[bleBeaconIdxOffset]?, data[bleBeaconTempOffset]? with
    | some idx, some temp =>
      if h : idx.toNat < maxConnectedBeacons then some (.report ⟨idx.toNat, h⟩ temp.toNat) else none
    | _, _ => none
  else none

/-- What an action is to the board. -/
def loopBoardOp : LoopAct → Option (BoardOp (Fin maxConnectedBeacons) ℚ)
  | .advertisement _ data => reportOf data
  | .publish => some .publish
  | _ => none

def loopBoardOps (as : List LoopAct) : List (BoardOp (Fin maxConnectedBeacons) ℚ) := as.filterMap loopBoardOp

section Step

variable {s t : ScanLoop}

theorem loopStep_test {registered : Bool} : loopStep s (.test registered) = some t ↔
    s.control = .testing ∧ { s with control := controlTested registered } = t := by
  rw [loopStep, Option.ite_none_right_eq_some, Option.some.injEq]

theorem loopStep_run : loopStep s .run = some t ↔
    s.control = .entering ∧ ∃ g, Gap.step s.gap .run = some g ∧ ⟨controlAfter g, g, s.device⟩ = t := by
  rw [loopStep, Option.ite_none_right_eq_some, Option.map_eq_some_iff]

theorem loopStep_gap {a : Gap.Act} : loopStep s (.gap a) = some t ↔
    (s.control = .running ∧ a ≠ .run ∧ a ≠ .advertisement) ∧
      ∃ g, Gap.step s.gap a = some g ∧ ⟨controlAfter g, g, clearScanCount s.device a⟩ = t := by
  rw [loopStep, Option.ite_none_right_eq_some, Option.map_eq_some_iff]

theorem loopStep_advertisement {now : Int} {data : List UInt8} : loopStep s (.advertisement now data) = some t ↔
    s.control = .running ∧ ∃ g, Gap.step s.gap .advertisement = some g ∧
      ∃ b, onScan s.device.beacons now data = .ok b ∧ ⟨.running, g, { s.device with beacons := b }⟩ = t := by
  simp only [loopStep, Option.ite_none_right_eq_some, Option.bind_eq_some_iff, Option.map_eq_some_iff,
    toOption_eq_some_iff]

theorem loopStep_publish : loopStep s .publish = some t ↔
    s.control = .publishing ∧ ⟨.testing, s.gap, (updateBeaconCloudData s.device).1⟩ = t := by
  rw [loopStep, Option.ite_none_right_eq_some, Option.some.injEq]

/-- Every step is a step of the scanner, or leaves it alone. -/
theorem gap_step {a : LoopAct} (h : loopStep s a = some t) :
    (∃ b, gapAct a = some b ∧ Gap.step s.gap b = some t.gap) ∨ (gapAct a = none ∧ t.gap = s.gap) := by
  cases a with
  | test registered =>
    obtain ⟨_, rfl⟩ := loopStep_test.mp h
    exact Or.inr ⟨rfl, rfl⟩
  | run =>
    obtain ⟨_, g, hg, rfl⟩ := loopStep_run.mp h
    exact Or.inl ⟨_, rfl, hg⟩
  | gap a =>
    obtain ⟨_, g, hg, rfl⟩ := loopStep_gap.mp h
    exact Or.inl ⟨a, rfl, hg⟩
  | advertisement now data =>
    obtain ⟨_, g, hg, b, _, rfl⟩ := loopStep_advertisement.mp h
    exact Or.inl ⟨_, rfl, hg⟩
  | publish =>
    obtain ⟨_, rfl⟩ := loopStep_publish.mp h
    exact Or.inr ⟨rfl, rfl⟩

end Step

/-- **The scanner's part of a run is a run of the scanner.** -/
theorem gap_run {s t : ScanLoop} {as : List LoopAct} (h : run loopStep s as = some t) :
    run Gap.step s.gap (gapActs as) = some t.gap := by
  induction as generalizing s with
  | nil => cases h; rfl
  | cons a as ih =>
    obtain ⟨u, hu, hrest⟩ := Option.bind_eq_some_iff.mp h
    rcases gap_step hu with ⟨b, hb, hg⟩ | ⟨hnone, hgap⟩
    · rw [gapActs, List.filterMap_cons_some hb, run_cons, hg]
      exact ih hrest
    · rw [gapActs, List.filterMap_cons_none hnone, ← hgap]
      exact ih hrest

/-! ## The cloud -/

section Report

variable {data : List UInt8}

/-- A payload that `on_scan` survives is a report of a beacon of the table, or no report. -/
theorem heard_cases {s b : BeaconState} {now : Int} (h : onScan s now data = .ok b) :
    (∃ a : Advert, a.now = now ∧ a.data = data ∧ reportOf data = boardOp (.advert a)) ∨
      (¬IsReport data ∧ reportOf data = none) := by
  by_cases hr : IsReport data
  · obtain ⟨idx, temp, hidx, htemp⟩ := hr.bytes
    by_cases hlt : idx.toNat < maxConnectedBeacons
    · refine Or.inl ⟨⟨now, data, idx, temp, hr, hidx, htemp, hlt⟩, rfl, rfl, ?_⟩
      simp only [reportOf, if_pos hr, hidx, htemp, dif_pos hlt]
      rfl
    · obtain ⟨i, _, hfault⟩ := onScan_outOfRange ⟨hr, idx, hidx, Nat.le_of_not_lt hlt⟩ s now
      rw [hfault] at h
      cases h
  · exact Or.inr ⟨hr, if_neg hr⟩

end Report

/-- After `as`: the device is one that the board's operations in `as` lead to. -/
def Boarded (as : List LoopAct) (s : ScanLoop) : Prop :=
  ∃ ops, boardOps ops = loopBoardOps as ∧ Linked ops s.device ∧ Represents s.device (boardAfter ops)

/-- Neither relation looks at `_scan_count`. -/
theorem linked_clearScanCount {ops : List BleOp} {d : Device} {b : BeaconBoard} (a : Gap.Act)
    (h : Linked ops d ∧ Represents d b) : Linked ops (clearScanCount d a) ∧ Represents (clearScanCount d a) b := by
  obtain ⟨hl, hr⟩ := h
  unfold clearScanCount
  split
  · exact ⟨⟨hl.bits, hl.temps, hl.clean⟩, ⟨hr.left, hr.counter, hr.current, hr.shown, hr.hidden⟩⟩
  · exact ⟨hl, hr⟩

theorem loopBoardOps_snoc (as : List LoopAct) (a : LoopAct) :
    loopBoardOps (as ++ [a]) = loopBoardOps as ++ (loopBoardOp a).toList := by
  rw [loopBoardOps, loopBoardOps, List.filterMap_append]
  cases h : loopBoardOp a <;> simp [h]

theorem boarded_step {as : List LoopAct} {s t : ScanLoop} {a : LoopAct} (hI : Boarded as s) (h : loopStep s a = some t) :
    Boarded (as ++ [a]) t := by
  obtain ⟨ops, hops, hlr⟩ := hI
  cases a with
  | test registered =>
    obtain ⟨_, rfl⟩ := loopStep_test.mp h
    refine ⟨ops, ?_, hlr⟩
    rw [loopBoardOps_snoc, hops]
    exact (List.append_nil _).symm
  | run =>
    obtain ⟨_, g, _, rfl⟩ := loopStep_run.mp h
    refine ⟨ops, ?_, hlr⟩
    rw [loopBoardOps_snoc, hops]
    exact (List.append_nil _).symm
  | gap a =>
    obtain ⟨_, g, _, rfl⟩ := loopStep_gap.mp h
    refine ⟨ops, ?_, linked_clearScanCount a hlr⟩
    rw [loopBoardOps_snoc, hops]
    exact (List.append_nil _).symm
  | advertisement now data =>
    obtain ⟨_, g, _, b, hscan, rfl⟩ := loopStep_advertisement.mp h
    rw [Boarded, loopBoardOps_snoc, loopBoardOp]
    rcases heard_cases hscan with ⟨a, rfl, rfl, hreport⟩ | ⟨hno, hreport⟩
    · obtain ⟨e, he, hlr'⟩ := represents_step (.advert a) hlr
      rw [bleStep, hscan] at he
      obtain rfl := Option.some.inj he
      refine ⟨ops ++ [.advert a], ?_, hlr'⟩
      rw [hreport, ← hops, boardOps, List.filterMap_append]
      rfl
    · obtain ⟨e, he, hlr'⟩ := represents_step (.rejected now data hno) hlr
      rw [bleStep, hscan] at he
      obtain rfl := Option.some.inj he
      refine ⟨ops ++ [.rejected now data hno], ?_, hlr'⟩
      rw [hreport, ← hops, boardOps, List.filterMap_append]
      rfl
  | publish =>
    obtain ⟨_, rfl⟩ := loopStep_publish.mp h
    obtain ⟨e, he, hlr'⟩ := represents_step .publish hlr
    obtain rfl : (updateBeaconCloudData s.device).1 = e := Option.some.inj he
    refine ⟨ops ++ [.publish], ?_, hlr'⟩
    rw [loopBoardOps_snoc, ← hops, boardOps, List.filterMap_append]
    rfl

/-- **The table's part of a run is a run of the board.** -/
theorem boarded_run {capacity : Nat} {as : List LoopAct} {s : ScanLoop} (h : run loopStep (.init capacity) as = some s) :
    Boarded as s :=
  run_history Boarded ⟨[], rfl, linked_init, represents_init⟩ (fun _ _ _ _ => boarded_step) h

theorem marked_step {as : List LoopAct} {s t : ScanLoop} {a : LoopAct} (hI : Marked (loopBoardOps as) s.device)
    (h : loopStep s a = some t) : Marked (loopBoardOps (as ++ [a])) t.device := by
  rw [loopBoardOps_snoc]
  cases a with
  | test registered =>
    simp only [loopBoardOp, Option.toList_none, List.append_nil]
    obtain ⟨_, rfl⟩ := loopStep_test.mp h
    exact hI
  | run =>
    simp only [loopBoardOp, Option.toList_none, List.append_nil]
    obtain ⟨_, _, _, rfl⟩ := loopStep_run.mp h
    exact hI
  | gap a =>
    simp only [loopBoardOp, Option.toList_none, List.append_nil]
    obtain ⟨_, g, _, rfl⟩ := loopStep_gap.mp h
    unfold clearScanCount
    split <;> exact hI
  | advertisement now data =>
    obtain ⟨_, g, _, b, hscan, rfl⟩ := loopStep_advertisement.mp h
    rw [loopBoardOp]
    rcases heard_cases hscan with ⟨a, rfl, rfl, hreport⟩ | ⟨hno, hreport⟩
    · rw [onScan_advert] at hscan
      cases hscan
      rw [hreport]
      exact marked_advert hI a a.temp.toNat
    · rw [onScan_rejected hno] at hscan
      cases hscan
      rw [hreport, Option.toList_none, List.append_nil]
      exact hI
  | publish =>
    obtain ⟨_, rfl⟩ := loopStep_publish.mp h
    exact marked_publish (loopBoardOps as) s.device

/-- **What a publication writes** in the loop. -/
theorem cloud_loopPublication {capacity : Nat} {as : List LoopAct} {c : Control} {g : GapDevice} {d : Device}
    (h : run loopStep (.init capacity) as = some ⟨c, g, d⟩) :
    (updateBeaconCloudData ⟨d.beacons, .blank⟩).1.cloud = publication (loopBoardOps as) := by
  have hmarked : Marked (loopBoardOps as) d :=
    run_history (fun as (s : ScanLoop) => Marked (loopBoardOps as) s.device)
      (show Marked (loopBoardOps []) (ScanLoop.init capacity).device from marked_init) (fun _ _ _ _ => marked_step) h
  obtain ⟨ops, hops, hl, hr⟩ := boarded_run h
  rw [← hops] at hmarked ⊢
  exact cloud_publication hl hr hmarked

theorem controlTested_ne_running (registered : Bool) : controlTested registered ≠ .running := by
  cases registered <;> simp [controlTested]

/-- Inside `run` and only there the scanner is not outside. -/
theorem control_step {s t : ScanLoop} {a : LoopAct} (hI : s.control = .running ↔ s.gap.phase ≠ .outside)
    (h : loopStep s a = some t) : t.control = .running ↔ t.gap.phase ≠ .outside := by
  have hafter : ∀ g : GapDevice, controlAfter g = .running ↔ g.phase ≠ .outside := fun g => by
    unfold controlAfter
    split <;> simp [*]
  have hout : s.control ≠ .running → s.gap.phase = .outside := fun hne => by_contra fun hph => hne (hI.mpr hph)
  cases a with
  | test registered =>
    obtain ⟨hc, rfl⟩ := loopStep_test.mp h
    exact iff_of_false (controlTested_ne_running registered) (not_not.mpr (hout (by simp [hc])))
  | run =>
    obtain ⟨_, g, _, rfl⟩ := loopStep_run.mp h
    exact hafter g
  | gap a =>
    obtain ⟨_, g, _, rfl⟩ := loopStep_gap.mp h
    exact hafter g
  | advertisement now data =>
    obtain ⟨hc, g, hg, b, _, rfl⟩ := loopStep_advertisement.mp h
    obtain ⟨hen, rfl⟩ := step_eq_some.mp hg
    exact iff_of_true rfl hen.1
  | publish =>
    obtain ⟨hc, rfl⟩ := loopStep_publish.mp h
    exact iff_of_false (by simp) (not_not.mpr (hout (by simp [hc])))

theorem control_run {capacity : Nat} {as : List LoopAct} {s : ScanLoop} (h : run loopStep (.init capacity) as = some s) :
    s.control = .running ↔ s.gap.phase ≠ .outside :=
  run_invariant (fun s => s.control = .running ↔ s.gap.phase ≠ .outside)
    (iff_of_false (by simp [ScanLoop.init]) (not_not.mpr rfl)) (fun _ _ _ => control_step) h

/-- Past the test and before `run`, the test was the last action. -/
theorem entering_of_run {capacity : Nat} {as : List LoopAct} {s : ScanLoop} (h : run loopStep (.init capacity) as = some s)
    (hs : s.control = .entering) : [.test true] <:+ as := by
  refine run_history (fun as (s : ScanLoop) => s.control = .entering → [.test true] <:+ as) (fun hs => by cases hs) ?_ h hs
  intro pre t a u _ hu hentering
  have hafter : ∀ g : GapDevice, controlAfter g ≠ .entering := fun g => by
    unfold controlAfter
    split <;> simp
  cases a with
  | test registered =>
    obtain ⟨_, rfl⟩ := loopStep_test.mp hu
    cases registered with
    | true => exact List.suffix_append pre _
    | false => cases hentering
  | run =>
    obtain ⟨_, g, _, rfl⟩ := loopStep_run.mp hu
    exact absurd hentering (hafter g)
  | gap a =>
    obtain ⟨_, g, _, rfl⟩ := loopStep_gap.mp hu
    exact absurd hentering (hafter g)
  | advertisement now data =>
    obtain ⟨_, g, _, b, _, rfl⟩ := loopStep_advertisement.mp hu
    cases hentering
  | publish =>
    obtain ⟨_, rfl⟩ := loopStep_publish.mp hu
    cases hentering

/-! ## The loop that does not return -/

/-- The dispatch cannot come to its end any more. -/
structure Frozen (s : ScanLoop) : Prop where
  running : s.control = .running
  stuck : Stuck s.gap

theorem frozen_step {s t : ScanLoop} {a : LoopAct} (hI : Frozen s)
    (hconn : gapAct a ≠ some (.timeout .conn)) (h : loopStep s a = some t) : Frozen t ∧ a ≠ .publish := by
  have hcontrol : ∀ g : GapDevice, Stuck g → controlAfter g = .running := fun g hg => by
    rw [controlAfter, hg.dispatching]
    rfl
  cases a with
  | test registered =>
    have hc := hI.running
    rw [(loopStep_test.mp h).1] at hc
    cases hc
  | run =>
    have hc := hI.running
    rw [(loopStep_run.mp h).1] at hc
    cases hc
  | gap a =>
    obtain ⟨_, g, hg, rfl⟩ := loopStep_gap.mp h
    have hstuck := stuck_step hI.stuck (fun he => hconn (congrArg some he)) hg
    exact ⟨⟨hcontrol g hstuck, hstuck⟩, by simp⟩
  | advertisement now data =>
    obtain ⟨_, g, hg, b, _, rfl⟩ := loopStep_advertisement.mp h
    exact ⟨⟨rfl, stuck_step hI.stuck (by simp) hg⟩, by simp⟩
  | publish =>
    have hc := hI.running
    rw [(loopStep_publish.mp h).1] at hc
    cases hc

theorem frozen_run {s t : ScanLoop} {as : List LoopAct} (hI : Frozen s)
    (hquiet : Quiet (gapActs as)) (h : run loopStep s as = some t) : Frozen t ∧ .publish ∉ as := by
  induction as generalizing s with
  | nil => cases h; exact ⟨hI, List.not_mem_nil⟩
  | cons a as ih =>
    obtain ⟨u, hu, hrest⟩ := Option.bind_eq_some_iff.mp h
    have hmem : ∀ b, gapAct a = some b → b ∈ gapActs (a :: as) := fun b hb =>
      List.mem_filterMap.mpr ⟨a, List.mem_cons_self, hb⟩
    have hconn : gapAct a ≠ some (.timeout .conn) := fun hb => hquiet (hmem _ hb)
    obtain ⟨hu', ha⟩ := frozen_step hI hconn hu
    have hquiet' : Quiet (gapActs as) := fun hm => by
      obtain ⟨c, hc, hb⟩ := List.mem_filterMap.mp hm
      exact hquiet (List.mem_filterMap.mpr ⟨c, List.mem_cons_of_mem _ hc, hb⟩)
    obtain ⟨ht, hnone⟩ := ih hu' hquiet' hrest
    refine ⟨ht, ?_⟩
    rw [List.mem_cons, not_or]
    exact ⟨Ne.symm ha, hnone⟩

/-- **Without a link or without room the loop stays in `run`**: without connection timeouts, once the scanner dispatches with
no link of its chain outstanding, or with blinks that leave fewer than three places, there is no publication any more. -/
theorem loop_frozen {capacity : Nat} {as bs : List LoopAct} {s t : ScanLoop} (hquiet : Quiet (gapActs (as ++ bs)))
    (hs : run loopStep (.init capacity) as = some s) (hph : s.gap.phase = .dispatching)
    (hnot : ¬(Outstanding s.gap ∧ accepted (.fresh capacity) (gapActs as) + 3 ≤ capacity))
    (ht : run loopStep s bs = some t) : t.control = .running ∧ .publish ∉ bs := by
  have hsplit : gapActs (as ++ bs) = gapActs as ++ gapActs bs := List.filterMap_append
  rw [hsplit, Quiet, List.mem_append, not_or] at hquiet
  have hI : Frozen s :=
    ⟨(control_run hs).mpr (by rw [hph]; decide), stuck_of_quiet hquiet.1 (gap_run hs) hph hnot⟩
  obtain ⟨hfrozen, hnone⟩ := frozen_run hI hquiet.2 ht
  exact ⟨hfrozen.running, hnone⟩

end PelionClient.Main
