import PelionClient.Beacon.Admission
import PelionClient.Beacon.Allocation

/-!
# What the adds return

"Return tbl index if ok, else INVALID_U32", say the comments over `add_beacon` and `add_dummy_beacon`, and both callers
count a beacon for every other value. `add_dummy_beacon` keeps to it. `add_beacon` returns 0 whenever it returns, so it
keeps to it only if the slot it fills is slot 0 (`honoursContract_iff`). A caller that counts on the contract has the right
counter and bitmap after every call exactly if it makes no other calls (`adds_contract_iff`).
-/

namespace PelionClient.Beacon

open Lib

inductive AddCall
  | dummy
  | beacon (i : TblIndex)

/-- What the call returns, and the table after it. -/
def add (t : BeaconTbl) : AddCall → Except Fault (UInt32 × BeaconTbl)
  | .dummy => addDummyBeacon t
  | .beacon i => addBeacon t i

/-- Slot `i` was free in `t` and is used in `u`. -/
def Filled (t u : BeaconTbl) (i : Fin maxConnectedBeacons) : Prop := ¬t[i].Used ∧ u[i].Used

/-- A value other than `INVALID_U32` is returned iff exactly one free slot has become used, and is that slot's index; and
with `INVALID_U32` the table is unchanged. -/
def HonoursContract (t : BeaconTbl) (c : AddCall) : Prop :=
  ∃ r u, add t c = .ok (r, u) ∧ (r ≠ invalidU32 ↔ ∃! i, Filled t u i) ∧
    (r ≠ invalidU32 → ∀ i, Filled t u i → r = UInt32.ofNat i) ∧ (r = invalidU32 → u = t)

/-- `add_dummy_beacon`, or `add_beacon(0)` while slot 0 is free. -/
def Honest (t : BeaconTbl) : AddCall → Prop
  | .dummy => True
  | .beacon i => i.slot.val = 0 ∧ ¬t[i.slot].Used

/-! ## One call -/

section Call

variable {t u : BeaconTbl}

/-- A call fills the slot that it returns, or returns `INVALID_U32`; or it is `add_beacon`, which returns 0. -/
theorem add_cases (t : BeaconTbl) (c : AddCall) :
    (∃ i : Fin maxConnectedBeacons, ∃ b : BeaconData, add t c = .ok (UInt32.ofNat i, t.set i b) ∧ ¬t[i].Used ∧ b.Used ∧
      Honest t c) ∨
    (add t c = .ok (invalidU32, t) ∧ Honest t c) ∨
    ∃ i : TblIndex, c = .beacon i ∧ add t c = .ok (0, t.set i.slot t[i.slot].added) ∧ ¬Honest t c := by
  cases c with
  | dummy =>
    rcases addDummyBeacon_cases t with ⟨i, _, hfree, hadd⟩ | ⟨_, hadd⟩
    · exact Or.inl ⟨i, _, hadd, hfree, BeaconData.used_dummyAdded _, trivial⟩
    · exact Or.inr (Or.inl ⟨hadd, trivial⟩)
  | beacon i =>
    have hadd : add t (.beacon i) = .ok (0, t.set i.slot t[i.slot].added) := addBeacon_of_lt i.property
    by_cases hhonest : Honest t (.beacon i)
    · obtain ⟨hzero, hfree⟩ := hhonest
      have hret : UInt32.ofNat i.slot.val = 0 := congrArg UInt32.ofNat hzero
      refine Or.inl ⟨i.slot, t[i.slot].added, ?_, hfree, BeaconData.used_added _, hzero, hfree⟩
      rw [hadd, hret]
    · exact Or.inr (Or.inr ⟨i, rfl, hadd, hhonest⟩)

theorem filled_set {i j : Fin maxConnectedBeacons} {b : BeaconData} :
    Filled t (t.set i b) j ↔ i = j ∧ ¬t[i].Used ∧ b.Used := by
  rw [Filled, getElem_set_slot]
  by_cases hij : i = j
  · subst hij
    simp
  · simp [hij]

theorem not_filled_self {i : Fin maxConnectedBeacons} : ¬Filled t t i := fun h => h.1 h.2

/-- **The contract is honoured by `add_dummy_beacon` and by an `add_beacon(0)` that fills slot 0, and by nothing else.** -/
theorem honoursContract_iff (t : BeaconTbl) (c : AddCall) : HonoursContract t c ↔ Honest t c := by
  rcases add_cases t c with ⟨i, b, hadd, hfree, hb, hhonest⟩ | ⟨hadd, hhonest⟩ | ⟨i, rfl, hadd, hnot⟩
  · refine iff_of_true ?_ hhonest
    have hfilled : ∀ j, Filled t (t.set i b) j ↔ i = j := fun j => by
      rw [filled_set]
      exact and_iff_left ⟨hfree, hb⟩
    have hret := ofNat_ne_invalid i.isLt
    refine ⟨_, _, hadd, iff_of_true hret ⟨i, (hfilled i).mpr rfl, fun j hj => ((hfilled j).mp hj).symm⟩, ?_, ?_⟩
    · intro _ j hj
      rw [(hfilled j).mp hj]
    · exact fun h => absurd h hret
  · refine iff_of_true ⟨_, _, hadd, iff_of_false (not_not_intro rfl) ?_, fun h => absurd rfl h, fun _ => rfl⟩ hhonest
    rintro ⟨i, hi, _⟩
    exact not_filled_self hi
  · refine iff_of_false ?_ hnot
    rintro ⟨r, u, hcall, hexact, hindex, _⟩
    rw [hadd] at hcall
    injection hcall with hcall
    obtain ⟨rfl, rfl⟩ := Prod.mk.inj hcall
    have hzero : (0 : UInt32) ≠ invalidU32 := by decide
    obtain ⟨j, hj, _⟩ := hexact.mp hzero
    have hslot := hindex hzero j hj
    obtain ⟨rfl, hfree, _⟩ := filled_set.mp hj
    refine hnot ⟨?_, hfree⟩
    exact (ofNat_inj_slot (by decide) i.slot.isLt hslot).symm

/-- Right from the start `add_beacon(1)` returns 0. -/
theorem addOne_not_honoured : ¬HonoursContract initBeaconTbl (.beacon ⟨1, by decide⟩) := by
  rintro ⟨r, u, hcall, hexact, hindex, _⟩
  have hadd : add initBeaconTbl (.beacon ⟨1, by decide⟩) = .ok (0, initBeaconTbl.set 1 initBeaconTbl[1].added) := rfl
  rw [hadd] at hcall
  injection hcall with hcall
  obtain ⟨rfl, rfl⟩ := Prod.mk.inj hcall
  have hone := hindex (by decide) ⟨1, by decide⟩ ⟨by decide, by decide⟩
  exact absurd hone (by decide)

end Call

/-! ## A caller that counts on it -/

/-- The table with the caller's counter and bitmap. -/
structure Ledger where
  tbl : BeaconTbl
  connectedBeacons : UInt8
  dataValidBmp : BitVec 16

/-- A value other than `INVALID_U32` counts as a beacon, and its bit is set. -/
def addAndCount (s : Ledger) (c : AddCall) : Except Fault Ledger := do
  let (r, tbl) ← add s.tbl c
  if r ≠ invalidU32 then do
    let bit ← bitOf r.toNat
    return ⟨tbl, s.connectedBeacons + 1, s.dataValidBmp ||| bit⟩
  else
    return { s with tbl := tbl }

def ledgerStep (s : Ledger) (c : AddCall) : Option Ledger := (addAndCount s c).toOption

/-- The counter is the number of used slots, and the bits are those of the used slots. -/
structure Ledger.Correct (s : Ledger) : Prop where
  counter : s.connectedBeacons.toNat = (usedSlots s.tbl).card
  bits : ∀ n, s.dataValidBmp.getLsbD n = true ↔ ∃ i : Fin maxConnectedBeacons, i.val = n ∧ s.tbl[i].Used

/-- Nothing is added yet. -/
def Ledger.init : Ledger := ⟨initBeaconTbl, 0, 0⟩

theorem Ledger.not_used_init (i : Fin maxConnectedBeacons) : ¬Ledger.init.tbl[i].Used := by
  have hzero : Ledger.init.tbl[i] = .zero := by simp [Ledger.init, initBeaconTbl]
  rw [hzero]
  exact BeaconData.not_used_zero

/-- The books are right over the table that `init_beacon_tbl` leaves. -/
theorem Ledger.correct_init : Ledger.init.Correct := by
  constructor
  · have hnone : usedSlots Ledger.init.tbl = ∅ :=
      Finset.filter_eq_empty_iff.mpr fun i _ => Ledger.not_used_init i
    rw [hnone]
    rfl
  · intro n
    refine iff_of_false (by simp [Ledger.init]) ?_
    rintro ⟨i, _, hused⟩
    exact Ledger.not_used_init i hused

instance : Inhabited { s : Ledger // s.Correct } := ⟨Ledger.init, Ledger.correct_init⟩

theorem addAndCount_of_ok {s : Ledger} {c : AddCall} {i : Nat} {u : BeaconTbl} (hi : i < maxConnectedBeacons)
    (h : add s.tbl c = .ok (UInt32.ofNat i, u)) :
    addAndCount s c = .ok ⟨u, s.connectedBeacons + 1, s.dataValidBmp ||| 1#16 <<< i⟩ := by
  unfold addAndCount
  rw [h]
  simp only [bind, Except.bind, ne_eq, ofNat_ne_invalid hi, not_false_eq_true, if_true, toNat_ofNat_slot hi,
    bitOf_of_lt hi]
  rfl

theorem addAndCount_of_invalid {s : Ledger} {c : AddCall} (h : add s.tbl c = .ok (invalidU32, s.tbl)) :
    addAndCount s c = .ok s := by
  unfold addAndCount
  rw [h]
  rfl

theorem usedSlots_le (t : BeaconTbl) : (usedSlots t).card ≤ maxConnectedBeacons := by
  have hle := Finset.card_le_univ (usedSlots t)
  rwa [Fintype.card_fin] at hle

/-- A free slot filled counts as one more. -/
theorem card_usedSlots_set {t : BeaconTbl} {i : Fin maxConnectedBeacons} {b : BeaconData} (hfree : ¬t[i].Used)
    (hb : b.Used) : (usedSlots (t.set i b)).card = (usedSlots t).card + 1 := by
  have hset : usedSlots (t.set i b) = insert i (usedSlots t) := by
    ext j
    simp only [usedSlots, Finset.mem_filter, Finset.mem_univ, true_and, Finset.mem_insert, getElem_set_slot]
    by_cases hij : i = j
    · subst hij
      simp [hb]
    · simp [hij, Ne.symm hij]
  rw [hset, Finset.card_insert_of_notMem]
  simpa [usedSlots] using hfree

section Caller

variable {s : Ledger}

/-- Counting a beacon is right if its slot was free. -/
theorem Ledger.Correct.filled (h : s.Correct) {i : Fin maxConnectedBeacons} {b : BeaconData} (hfree : ¬s.tbl[i].Used)
    (hb : b.Used) :
    Ledger.Correct ⟨s.tbl.set i b, s.connectedBeacons + 1, s.dataValidBmp ||| 1#16 <<< i.val⟩ := by
  constructor
  · have hle := usedSlots_le (s.tbl.set i b)
    rw [card_usedSlots_set hfree hb, ← h.counter] at hle ⊢
    have hone : (1 : UInt8).toNat = 1 := rfl
    have hmax : maxConnectedBeacons < 2 ^ 8 := by decide
    rw [UInt8.toNat_add, hone, Nat.mod_eq_of_lt (by omega)]
  · intro n
    rw [getLsbD_setBit i.isLt, h.bits]
    constructor
    · rintro (⟨j, rfl, hj⟩ | rfl)
      · have hji : j ≠ i := fun e => hfree (e ▸ hj)
        exact ⟨j, rfl, (getElem_set_other s.tbl hji b).symm ▸ hj⟩
      · exact ⟨i, rfl, (getElem_set_self s.tbl i b).symm ▸ hb⟩
    · rintro ⟨j, rfl, hj⟩
      by_cases hji : j = i
      · exact Or.inr (congrArg Fin.val hji)
      · exact Or.inl ⟨j, rfl, getElem_set_other s.tbl hji b ▸ hj⟩

/-- An `add_beacon` that is not to the contract spoils the caller's books: the counter if the slot was used, else the
bitmap. -/
theorem Ledger.Correct.spoiled (h : s.Correct) {i : TblIndex} (hnot : ¬Honest s.tbl (.beacon i)) :
    ¬Ledger.Correct ⟨s.tbl.set i.slot s.tbl[i.slot].added, s.connectedBeacons + 1, s.dataValidBmp ||| 1#16 <<< 0⟩ := by
  intro hc
  by_cases hu : s.tbl[i.slot].Used
  · have hcount := hc.counter
    have hle := usedSlots_le s.tbl
    have hone : (1 : UInt8).toNat = 1 := rfl
    have hmax : maxConnectedBeacons < 2 ^ 8 := by decide
    rw [BeaconData.added, if_pos hu] at hcount
    simp only [getElem_slot, set_getElem_self] at hcount
    rw [UInt8.toNat_add, hone, h.counter, Nat.mod_eq_of_lt (by omega)] at hcount
    omega
  · have hne : i.slot.val ≠ 0 := fun e => hnot ⟨e, hu⟩
    have hbit := (hc.bits i.slot.val).mpr ⟨i.slot, rfl, by simp⟩
    rcases (getLsbD_setBit (by decide)).mp hbit with hbit | hzero
    · obtain ⟨j, hj, hused⟩ := (h.bits _).mp hbit
      rw [Fin.ext hj] at hused
      exact hu hused
    · exact hne hzero

theorem ledgerStep_total (s : Ledger) (c : AddCall) : ∃ u, ledgerStep s c = some u := by
  rcases add_cases s.tbl c with ⟨i, b, hadd, _⟩ | ⟨hadd, _⟩ | ⟨i, rfl, hadd, _⟩
  · exact ⟨_, by rw [ledgerStep, addAndCount_of_ok i.isLt hadd]; rfl⟩
  · exact ⟨_, by rw [ledgerStep, addAndCount_of_invalid hadd]; rfl⟩
  · exact ⟨_, by rw [ledgerStep, @addAndCount_of_ok s _ 0 _ (by decide) hadd]; rfl⟩

/-- From right books, a call leaves them right exactly if it is to the contract. -/
theorem ledgerStep_cases (h : s.Correct) (c : AddCall) :
    ∃ u, ledgerStep s c = some u ∧ (u.Correct ↔ Honest s.tbl c) := by
  rcases add_cases s.tbl c with ⟨i, b, hadd, hfree, hb, hhonest⟩ | ⟨hadd, hhonest⟩ | ⟨i, rfl, hadd, hnot⟩
  · refine ⟨_, ?_, iff_of_true (h.filled hfree hb) hhonest⟩
    rw [ledgerStep, addAndCount_of_ok i.isLt hadd]
    rfl
  · refine ⟨s, ?_, iff_of_true h hhonest⟩
    rw [ledgerStep, addAndCount_of_invalid hadd]
    rfl
  · refine ⟨_, ?_, iff_of_false (h.spoiled hnot) hnot⟩
    rw [ledgerStep, @addAndCount_of_ok s _ 0 _ (by decide) hadd]
    rfl

/-- The caller's books are right after every call exactly if all the calls are to the contract. -/
theorem correct_always_iff (h : s.Correct) (cs : List AddCall) :
    Always Ledger.Correct ledgerStep s cs ↔ Meets (fun s c => Honest s.tbl c) ledgerStep s cs := by
  refine always_iff_meets (fun _ => True) _ trivial h (fun _ _ _ _ _ => trivial) fun t c _ ht => ?_
  obtain ⟨u, hu, hiff⟩ := ledgerStep_cases ht c
  rw [← hiff, hu]
  simp

end Caller

/-- **The adds honour their contract in the calls to it and no others**, and the books of a caller that counts on it are
right after every call of a sequence exactly if all its calls are of these. -/
theorem adds_contract_iff (t : BeaconTbl) (c : AddCall) (s : { s : Ledger // s.Correct }) (cs : List AddCall) :
    (HonoursContract t c ↔ Honest t c) ∧ (∃ u, run ledgerStep s.val cs = some u) ∧
      (Always Ledger.Correct ledgerStep s.val cs ↔ Meets (fun s c => Honest s.tbl c) ledgerStep s.val cs) := by
  refine ⟨honoursContract_iff t c, ?_, correct_always_iff s.property cs⟩
  obtain ⟨u, hu, _⟩ := run_progress (fun _ _ => True) trivial
    (fun _ t c _ => (ledgerStep_total t c).imp fun _ hu => ⟨hu, trivial⟩) cs
  exact ⟨u, hu⟩

end PelionClient.Beacon
