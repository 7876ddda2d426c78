import PelionClient.Lib.Board
import PelionClient.Beacon.Cloud

/-!
# The device as a board

Seen from the cloud the table, the counter, the dirty flags, the bitmap and the resources are one board of last values: a
report enters its beacon's temperature while one of the `MAX_CONNECTED_BEACONS` admissions is left or the beacon is on the
board, and a publication shows the board (`represents_step`). So at any time between two publications the cloud shows, for
each beacon that was among the first reports, the temperature of its last report before the publication, and nothing for
any other (`cloud_between`).
-/

namespace PelionClient.Beacon

open Lib

/-- The board that the device keeps. -/
abbrev BeaconBoard := Board (Fin maxConnectedBeacons) ℚ

/-- What an operation of the device is to the board. -/
def boardOp : BleOp → Option (BoardOp (Fin maxConnectedBeacons) ℚ)
  | .advert a => some (.report a.beacon a.temp.toNat)
  | .rejected _ _ _ => none
  | .publish => some .publish

def boardOps (ops : List BleOp) : List (BoardOp (Fin maxConnectedBeacons) ℚ) := ops.filterMap boardOp

/-- The board after the operations `ops`. -/
def boardAfter (ops : List BleOp) : BeaconBoard := Board.after maxConnectedBeacons (boardOps ops)

/-- The temperature that the table holds for a beacon. -/
def held (b : BeaconData) : Option ℚ := if b.Used then some b.temp else none

/-- The device's state is the board's. -/
structure Represents (d : Device) (b : BeaconBoard) : Prop where
  left : b.left = maxConnectedBeacons - d.beacons.connectedBeacons.toNat
  counter : d.beacons.connectedBeacons.toNat ≤ maxConnectedBeacons
  current : ∀ i, b.current i = held (d.slot i).1
  shown : ∀ i, b.shown i = (d.slot i).2
  hidden : ∀ i, ¬(d.slot i).1.Used → (d.slot i).2 = none

theorem held_isSome {b : BeaconData} : (held b).isSome ↔ b.Used := by
  unfold held
  split <;> simp [*]

theorem boardAfter_advert (ops : List BleOp) (a : Advert) :
    boardAfter (ops ++ [.advert a]) = (boardAfter ops).apply (.report a.beacon a.temp.toNat) := by
  simp only [boardAfter, boardOps, List.filterMap_append, List.filterMap_cons, List.filterMap_nil, boardOp]
  exact Board.after_snoc _ _ _

theorem boardAfter_publish (ops : List BleOp) : boardAfter (ops ++ [.publish]) = (boardAfter ops).apply .publish := by
  simp only [boardAfter, boardOps, List.filterMap_append, List.filterMap_cons, List.filterMap_nil, boardOp]
  exact Board.after_snoc _ _ _

theorem boardAfter_rejected (ops : List BleOp) (now : Int) (data : List UInt8) (h : ¬IsReport data) :
    boardAfter (ops ++ [.rejected now data h]) = boardAfter ops := by
  simp only [boardAfter, boardOps, List.filterMap_append, List.filterMap_cons, List.filterMap_nil, boardOp, List.append_nil]

theorem represents_init : Represents .init (boardAfter []) := by
  have hslot : ∀ i, Device.init.slot i = (.zero, none) := fun i => by
    simp [Device.slot, Device.init, BeaconState.init, initBeaconTbl]
  refine ⟨rfl, Nat.zero_le _, fun i => ?_, fun i => ?_, fun i _ => ?_⟩
  · rw [hslot]
    exact (if_neg BeaconData.not_used_zero).symm
  · rw [hslot]
    rfl
  · rw [hslot]

section Step

variable {d : Device} {b : BeaconBoard}

/-- The slot of a beacon that reports. -/
theorem held_received (s : BeaconState) (a : Advert) : held (s.received a).beaconTbl[a.beacon] =
    if s.connectedBeacons.toNat < maxConnectedBeacons ∨ s.beaconTbl[a.beacon].Used then some (a.temp.toNat : ℚ) else none := by
  have hused := received_used s a a.beacon
  simp only [and_true] at hused
  by_cases h : (s.received a).beaconTbl[a.beacon].Used
  · have htemp : (s.received a).beaconTbl[a.beacon].temp = a.temp.toNat := by
      rw [received_self] at h ⊢
      exact (BeaconData.measured_of_used h).1
    rw [held, if_pos h, htemp, if_pos ((hused.mp h).symm)]
  · rw [held, if_neg h, if_neg fun ho => h (hused.mpr ho.symm)]

/-- **A report** enters the beacon's temperature, if it is admitted. -/
theorem represents_advert (h : Represents d b) (a : Advert) :
    Represents { d with beacons := d.beacons.received a } (b.apply (.report a.beacon a.temp.toNat)) := by
  have hcounter := received_counter d.beacons a h.counter
  have hleft : 0 < b.left ↔ d.beacons.connectedBeacons.toNat < maxConnectedBeacons := by
    rw [h.left]
    omega
  have hother : ∀ i, i ≠ a.beacon → ({ d with beacons := d.beacons.received a } : Device).slot i = d.slot i := by
    intro i hi
    simp only [Device.slot, received_other _ _ hi]
  constructor
  · show b.left - 1 = maxConnectedBeacons - (d.beacons.received a).connectedBeacons.toNat
    rw [h.left, hcounter]
    omega
  · rw [hcounter]
    exact Nat.min_le_right _ _
  · intro i
    simp only [Board.apply, hleft, h.current, held_isSome]
    by_cases hi : i = a.beacon
    · subst hi
      have hrec : held (({ d with beacons := d.beacons.received a } : Device).slot a.beacon).1 =
          if d.beacons.connectedBeacons.toNat < maxConnectedBeacons ∨ (d.slot a.beacon).1.Used
          then some (a.temp.toNat : ℚ) else none := held_received d.beacons a
      rw [hrec]
      by_cases hadm : d.beacons.connectedBeacons.toNat < maxConnectedBeacons ∨ (d.slot a.beacon).1.Used
      · rw [if_pos hadm, if_pos hadm, Function.update_self]
      · rw [if_neg hadm, if_neg hadm, h.current, held, if_neg (not_or.mp hadm).2]
    · rw [hother i hi, ← h.current]
      split
      · rw [Function.update_of_ne hi]
      · rfl
  · exact h.shown
  · intro i hfree
    refine h.hidden i fun hu => hfree ?_
    exact (received_used d.beacons a i).mpr (Or.inl hu)

/-- **A publication** shows the board. -/
theorem represents_publish (h : Represents d b) {ops : List BleOp} (hl : Linked ops d) :
    Represents (updateBeaconCloudData d).1 (b.apply .publish) := by
  have hheld : ∀ i, held ((updateBeaconCloudData d).1.slot i).1 = held (d.slot i).1 := fun i => by
    simp only [slot_updateBeaconCloudData, held, published_used, published_temp]
  constructor
  · rw [counter_updateBeaconCloudData]
    exact h.left
  · rw [counter_updateBeaconCloudData]
    exact h.counter
  · intro i
    rw [hheld]
    exact h.current i
  · intro i
    show b.current i = _
    rw [h.current, slot_updateBeaconCloudData, published, held]
    by_cases hu : (d.slot i).1.Used
    · rw [if_pos hu]
      by_cases hmark : (d.slot i).1.updated = 0
      · rw [if_neg fun hm => hm.2 hmark]
        exact (hl.clean i hu hmark).symm
      · rw [if_pos ⟨hu, hmark⟩]
    · rw [if_neg hu, if_neg fun hm => hu hm.1]
      exact (h.hidden i hu).symm
  · intro i hfree
    rw [slot_updateBeaconCloudData, published_used] at hfree
    rw [slot_updateBeaconCloudData, published, if_neg fun hm => hfree hm.1]
    exact h.hidden i hfree

end Step

/-- **Every step of the device is the board's step.** -/
theorem represents_step {ops : List BleOp} {d : Device} (op : BleOp) (h : Linked ops d ∧ Represents d (boardAfter ops)) :
    ∃ e, bleStep d op = some e ∧ Linked (ops ++ [op]) e ∧ Represents e (boardAfter (ops ++ [op])) := by
  obtain ⟨hl, hr⟩ := h
  obtain ⟨e, he, hl'⟩ := linked_step op hl
  refine ⟨e, he, hl', ?_⟩
  cases op with
  | advert a =>
    rw [bleStep_advert] at he
    cases he
    rw [boardAfter_advert]
    exact represents_advert hr a
  | rejected now data hno =>
    rw [bleStep_rejected] at he
    cases he
    rw [boardAfter_rejected]
    exact ⟨hr.left, hr.counter, hr.current, hr.shown, hr.hidden⟩
  | publish =>
    obtain rfl : (updateBeaconCloudData d).1 = e := Option.some.inj he
    rw [boardAfter_publish]
    exact represents_publish hr hl

/-- **The device refines the board**, over every run. -/
theorem represents_run (ops : List BleOp) :
    ∃ d, run bleStep .init ops = some d ∧ Linked ops d ∧ Represents d (boardAfter ops) :=
  run_progress (fun ops d => Linked ops d ∧ Represents d (boardAfter ops)) ⟨linked_init, represents_init⟩
    (fun _ _ op h => represents_step op h) ops

/-! ## What the cloud shows -/

/-- The cloud shows the board as it was after `ops`: the values of the admitted beacons, and their bits. -/
structure CloudShows (ops : List (BoardOp (Fin maxConnectedBeacons) ℚ)) (cloud : Resources) : Prop where
  temps : ∀ i : Fin maxConnectedBeacons, cloud.beaconData[i] = Board.value maxConnectedBeacons ops i
  bits : ∃ bmp : BitVec 64, cloud.dataValidBmp = some bmp ∧ ∀ n, bmp.getLsbD n = true ↔
    ∃ i : Fin maxConnectedBeacons, i.val = n ∧ i ∈ Board.admitted maxConnectedBeacons ops

/-- Only a publication writes the resources. -/
theorem cloud_step {d e : Device} {op : BleOp} (hop : op ≠ .publish) (h : bleStep d op = some e) : e.cloud = d.cloud := by
  cases op with
  | advert a =>
    rw [bleStep_advert] at h
    cases h
    rfl
  | rejected now data hno =>
    rw [bleStep_rejected] at h
    cases h
    rfl
  | publish => exact absurd rfl hop

theorem cloud_run {ops : List BleOp} {d e : Device} (hops : .publish ∉ ops) (h : run bleStep d ops = some e) :
    e.cloud = d.cloud := by
  induction ops generalizing d with
  | nil => cases h; rfl
  | cons op ops ih =>
    rw [List.mem_cons, not_or] at hops
    obtain ⟨m, hm, hrest⟩ := Option.bind_eq_some_iff.mp h
    rw [ih hops.2 hrest, cloud_step (Ne.symm hops.1) hm]

/-- The slots in use are those of the admitted beacons. -/
theorem Represents.used_iff {ops : List BleOp} {d : Device} (hr : Represents d (boardAfter ops)) (i : Fin maxConnectedBeacons) :
    (d.slot i).1.Used ↔ i ∈ Board.admitted maxConnectedBeacons (boardOps ops) := by
  rw [← held_isSome, ← hr.current, boardAfter, Board.current_after, Board.value_isSome]

/-- Right after a publication. -/
theorem cloudShows_publish {ops : List BleOp} {d : Device} (hl : Linked ops d) (hr : Represents d (boardAfter ops)) :
    CloudShows (boardOps ops) (updateBeaconCloudData d).1.cloud := by
  have hr' := represents_publish hr hl
  have hcurrent : (boardAfter ops).current = Board.value maxConnectedBeacons (boardOps ops) := Board.current_after _ _
  refine ⟨fun i => ?_, _, cloudBmp_updateBeaconCloudData d, fun n => ?_⟩
  · have hshown := hr'.shown i
    rw [show ((boardAfter ops).apply .publish).shown i = (boardAfter ops).current i from rfl, hcurrent] at hshown
    exact hshown.symm
  · have hlt : d.beacons.dataValidBmp.getLsbD n = true → n < 64 := fun h =>
      Nat.lt_trans (BitVec.lt_of_getLsbD h) (by decide)
    rw [BitVec.getLsbD_setWidth, Bool.and_eq_true, decide_eq_true_eq]
    simp only [← hr.used_iff, ← hl.bits n]
    exact ⟨fun h => h.2, fun h => ⟨hlt h, h⟩⟩

/-- **What the cloud shows at any time after a publication**: the board as it was then. -/
theorem cloud_between {pre post : List BleOp} (hpost : .publish ∉ post) :
    ∃ d, run bleStep .init (pre ++ .publish :: post) = some d ∧ CloudShows (boardOps pre) d.cloud := by
  obtain ⟨d, hd, _⟩ := represents_run (pre ++ .publish :: post)
  obtain ⟨c, hc, hl, hr⟩ := represents_run pre
  refine ⟨d, hd, ?_⟩
  rw [run_append, hc, Option.bind_some, run_cons] at hd
  obtain ⟨m, hm, hrest⟩ := Option.bind_eq_some_iff.mp hd
  obtain rfl : (updateBeaconCloudData c).1 = m := Option.some.inj hm
  rw [cloud_run hpost hrest]
  exact cloudShows_publish hl hr

/-- A beacon reports, the board is shown, and the beacon reports again. -/
theorem cloud_between_zero : ∃ d, run bleStep .init ([.advert advertZero] ++ .publish :: [.advert advertZero]) = some d ∧
    CloudShows (boardOps [.advert advertZero]) d.cloud :=
  cloud_between (by simp)

/-! ## What a publication writes -/

/-- A used slot is marked exactly if its beacon has reported since the last publication. -/
def Marked (ops : List (BoardOp (Fin maxConnectedBeacons) ℚ)) (d : Device) : Prop :=
  ∀ i, (d.slot i).1.Used → ((d.slot i).1.updated ≠ 0 ↔ i ∈ Board.unshown ops)

theorem marked_init : Marked [] .init := by
  intro i hu
  have hslot : Device.init.slot i = (.zero, none) := by simp [Device.slot, Device.init, BeaconState.init, initBeaconTbl]
  rw [hslot] at hu
  exact absurd hu BeaconData.not_used_zero

section Marked

variable {ops : List (BoardOp (Fin maxConnectedBeacons) ℚ)} {d : Device}

theorem marked_advert (h : Marked ops d) (a : Advert) (q : ℚ) :
    Marked (ops ++ [.report a.beacon q]) { d with beacons := d.beacons.received a } := by
  intro i hu
  rw [Board.unshown_report, List.mem_cons]
  by_cases hi : i = a.beacon
  · subst hi
    simp only [Device.slot, received_self] at hu ⊢
    rw [(BeaconData.measured_of_used hu).2]
    exact iff_of_true (by decide) (Or.inl trivial)
  · simp only [Device.slot, received_other _ _ hi] at hu ⊢
    rw [or_iff_right hi]
    exact h i hu

theorem marked_publish (ops : List (BoardOp (Fin maxConnectedBeacons) ℚ)) (d : Device) :
    Marked (ops ++ [.publish]) (updateBeaconCloudData d).1 := by
  intro i hu
  rw [slot_updateBeaconCloudData] at hu ⊢
  rw [Board.unshown_publish, published_clean _ ((published_used _).mp hu)]
  exact iff_of_false (not_not.mpr rfl) List.not_mem_nil

end Marked

/-- The bits of the admitted beacons. -/
def admittedBits (ops : List (BoardOp (Fin maxConnectedBeacons) ℚ)) : BitVec 16 :=
  (List.finRange maxConnectedBeacons).foldl
    (fun bmp i => if i ∈ Board.admitted maxConnectedBeacons ops then bmp ||| 1#16 <<< i.val else bmp) 0

theorem getLsbD_admittedBits (ops : List (BoardOp (Fin maxConnectedBeacons) ℚ)) (n : Nat) :
    (admittedBits ops).getLsbD n = true ↔
      ∃ i : Fin maxConnectedBeacons, i.val = n ∧ i ∈ Board.admitted maxConnectedBeacons ops := by
  have hloop : ∀ (is : List (Fin maxConnectedBeacons)) (bmp : BitVec 16),
      (is.foldl (fun bmp i => if i ∈ Board.admitted maxConnectedBeacons ops then bmp ||| 1#16 <<< i.val else bmp)
        bmp).getLsbD n = true ↔
        bmp.getLsbD n = true ∨ ∃ i ∈ is, i.val = n ∧ i ∈ Board.admitted maxConnectedBeacons ops := by
    intro is
    induction is with
    | nil => simp
    | cons i is ih =>
      intro bmp
      rw [List.foldl_cons, ih]
      simp only [List.mem_cons, exists_eq_or_imp]
      split
      · rename_i hi
        rw [getLsbD_setBit i.isLt, or_assoc, and_iff_left hi, eq_comm (a := n)]
      · rename_i hi
        rw [or_congr_right (or_iff_right fun h => hi h.2)]
  have hzero : ¬(0 : BitVec 16).getLsbD n = true := by
    show ¬(0#16).getLsbD n = true
    simp
  rw [admittedBits, hloop, or_iff_right hzero]
  exact ⟨fun ⟨i, _, h⟩ => ⟨i, h⟩, fun ⟨i, h⟩ => ⟨i, List.mem_finRange i, h⟩⟩

/-- The resources before anything is written to them. -/
def Resources.blank : Resources := ⟨Vector.replicate maxConnectedBeacons none, none⟩

/-- **What a publication writes** after the operations `ops`: the last temperature of each admitted beacon that has reported
since the publication before it, and the bits of all that are admitted. -/
def publication (ops : List (BoardOp (Fin maxConnectedBeacons) ℚ)) : Resources where
  beaconData := Vector.ofFn fun i => if i ∈ Board.unshown ops then Board.value maxConnectedBeacons ops i else none
  dataValidBmp := some ((admittedBits ops).setWidth 64)

theorem beacons_publishSlot {p q : Device × Nat} (h : p.1.beacons = q.1.beacons) (i : Fin maxConnectedBeacons) :
    (publishSlot p i).1.beacons = (publishSlot q i).1.beacons := by
  unfold publishSlot
  simp only [h]
  split <;> simp [h]

theorem beacons_foldl_publishSlot (l : List (Fin maxConnectedBeacons)) {p q : Device × Nat} (h : p.1.beacons = q.1.beacons) :
    (l.foldl publishSlot p).1.beacons = (l.foldl publishSlot q).1.beacons := by
  induction l generalizing p q with
  | nil => exact h
  | cons i l ih => exact ih (beacons_publishSlot h i)

/-- What a publication does to the table does not depend on the resources. -/
theorem beacons_updateBeaconCloudData (d : Device) (cloud : Resources) :
    (updateBeaconCloudData ⟨d.beacons, cloud⟩).1.beacons = (updateBeaconCloudData d).1.beacons := by
  have hslots := @beacons_foldl_publishSlot (List.finRange maxConnectedBeacons) (⟨d.beacons, cloud⟩, 0) (d, 0) rfl
  simp only [updateBeaconCloudData, publishSlots]
  exact hslots

/-- What it writes to one resource. -/
theorem published_blank (b : BeaconData) :
    (published (b, none)).2 = if b.Used ∧ b.updated ≠ 0 then some b.temp else none := by
  unfold published
  split <;> rfl

theorem getElem_beaconData (d : Device) {n : Nat} (hn : n < maxConnectedBeacons) :
    d.cloud.beaconData[n] = (d.slot ⟨n, hn⟩).2 := rfl

theorem cloud_publication {ops : List BleOp} {d : Device} (hl : Linked ops d) (hr : Represents d (boardAfter ops))
    (hm : Marked (boardOps ops) d) : (updateBeaconCloudData ⟨d.beacons, .blank⟩).1.cloud = publication (boardOps ops) := by
  have hbits : d.beacons.dataValidBmp = admittedBits (boardOps ops) := by
    refine BitVec.eq_of_getLsbD_eq fun n _ => Bool.eq_iff_iff.mpr ?_
    rw [hl.bits, getLsbD_admittedBits]
    simp only [hr.used_iff]
  have hcurrent : (boardAfter ops).current = Board.value maxConnectedBeacons (boardOps ops) := Board.current_after _ _
  have hdata : (updateBeaconCloudData ⟨d.beacons, .blank⟩).1.cloud.beaconData = (publication (boardOps ops)).beaconData := by
    apply Vector.ext
    intro n hn
    have hval : (publication (boardOps ops)).beaconData[n] = if ⟨n, hn⟩ ∈ Board.unshown (boardOps ops) then
        (boardAfter ops).current ⟨n, hn⟩ else none := by
      simp [publication, hcurrent]
    have hblank : (⟨d.beacons, .blank⟩ : Device).slot ⟨n, hn⟩ = ((d.slot ⟨n, hn⟩).1, none) := by
      simp [Device.slot, Resources.blank]
    rw [hval, hr.current, held, getElem_beaconData, slot_updateBeaconCloudData, hblank, published_blank]
    by_cases hu : (d.slot ⟨n, hn⟩).1.Used
    · simp only [hu, true_and, if_true, hm ⟨n, hn⟩ hu]
    · simp only [hu, false_and, if_false, ite_self]
  have hbmp : (updateBeaconCloudData ⟨d.beacons, .blank⟩).1.cloud.dataValidBmp =
      some ((admittedBits (boardOps ops)).setWidth 64) := by
    rw [cloudBmp_updateBeaconCloudData]
    exact congrArg (fun bmp : BitVec 16 => some (bmp.setWidth 64)) hbits
  generalize (updateBeaconCloudData ⟨d.beacons, .blank⟩).1.cloud = cloud at hdata hbmp ⊢
  calc cloud = ⟨cloud.beaconData, cloud.dataValidBmp⟩ := rfl
    _ = publication (boardOps ops) := by rw [hdata, hbmp, publication]

end PelionClient.Beacon
