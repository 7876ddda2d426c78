import PelionClient.Lib.Run
import PelionClient.Beacon.Table

/-!
# Table allocation

Any sequence of the calls that change the table, with indices of the table. Every call but `init_beacon_tbl` sets one slot
(`callTbl_cases`): it keeps the slot well formed, an add keeps it if it was used, an update if it was free. So the flags
of every reachable table are flags, and its free slots are zero (`wellFormed_run`), and the laws of the allocation hold in
each of them (`tableLaws_run`): no live beacon is lost or overwritten, `add_dummy_beacon` takes the lowest free slot, and
a deleted slot can be taken again.
-/

namespace PelionClient.Beacon

open Lib

/-- An index byte below the table's size. -/
abbrev TblIndex := { i : UInt8 // i.toNat < maxConnectedBeacons }

def TblIndex.slot (i : TblIndex) : Fin maxConnectedBeacons := ⟨i.val.toNat, i.property⟩

/-- The calls that change the table. -/
inductive TblOp
  | init
  | addDummy
  | add (i : TblIndex)
  | update (i : TblIndex) (temp : UInt8) (now : Int)
  | dummyUpdate (i : TblIndex) (now : Int)
  | delete (i : TblIndex)

def TblOp.IsAdd : TblOp → Prop
  | .addDummy | .add _ => True
  | _ => False

def TblOp.IsUpdate : TblOp → Prop
  | .update .. | .dummyUpdate .. => True
  | _ => False

/-- The table after a call. -/
def callTbl (t : BeaconTbl) : TblOp → Except Fault BeaconTbl
  | .init => .ok initBeaconTbl
  | .addDummy => (addDummyBeacon t).map Prod.snd
  | .add i => (addBeacon t i).map Prod.snd
  | .update i temp now => updateBeaconData t i temp now
  | .dummyUpdate i now => dummyUpdateBeaconData t i now
  | .delete i => deleteBeacon t i

def tblStep (t : BeaconTbl) (op : TblOp) : Option BeaconTbl := (callTbl t op).toOption

/-! ## Slots -/

/-- Flags are 0 or 1, and a free slot is zero in every field. -/
structure BeaconData.WellFormed (b : BeaconData) : Prop where
  elementUsed : b.elementUsed = 0 ∨ b.elementUsed = 1
  updated : b.updated = 0 ∨ b.updated = 1
  free : ¬b.Used → b = .zero

namespace BeaconData

variable {b : BeaconData}

theorem wellFormed_zero : zero.WellFormed := ⟨Or.inl rfl, Or.inl rfl, fun _ => rfl⟩

theorem wellFormed_dummyAdded : b.dummyAdded.WellFormed :=
  ⟨Or.inr rfl, Or.inr rfl, fun h => absurd b.used_dummyAdded h⟩

theorem WellFormed.added (h : b.WellFormed) : b.added.WellFormed := by
  by_cases hu : b.Used
  · rwa [BeaconData.added, if_pos hu]
  · refine ⟨Or.inr ?_, Or.inr ?_, fun hn => absurd b.used_added hn⟩ <;> rw [BeaconData.added, if_neg hu]

theorem WellFormed.measured (h : b.WellFormed) (temp : UInt8) (now : Int) : (b.measured temp now).WellFormed := by
  by_cases hu : b.Used
  · refine ⟨?_, Or.inr ?_, fun hn => absurd ((b.used_measured temp now).mpr hu) hn⟩ <;>
      rw [BeaconData.measured, if_pos hu]
    exact h.elementUsed
  · rwa [BeaconData.measured, if_neg hu]

theorem WellFormed.dummyMeasured (h : b.WellFormed) (now : Int) : (b.dummyMeasured now).WellFormed := by
  by_cases hu : b.Used
  · refine ⟨?_, Or.inr ?_, fun hn => absurd ((b.used_dummyMeasured now).mpr hu) hn⟩ <;>
      rw [BeaconData.dummyMeasured, if_pos hu]
    exact h.elementUsed
  · rwa [BeaconData.dummyMeasured, if_neg hu]

end BeaconData

/-! ## One call -/

/-- The call `op` sets slot `i` to `b`: a well formed slot stays so, an add leaves a used slot alone, an update a free
one. -/
structure Sets (t : BeaconTbl) (op : TblOp) (i : Fin maxConnectedBeacons) (b : BeaconData) : Prop where
  result : callTbl t op = .ok (t.set i b)
  wellFormed : t[i].WellFormed → b.WellFormed
  add : op.IsAdd → t[i].Used → b = t[i]
  update : op.IsUpdate → ¬t[i].Used → b = t[i]

/-- **Every call but `init_beacon_tbl` sets one slot.** -/
theorem callTbl_cases (t : BeaconTbl) (op : TblOp) : op = .init ∨ ∃ i b, Sets t op i b := by
  cases op with
  | init => exact Or.inl rfl
  | addDummy =>
    refine Or.inr ?_
    rcases addDummyBeacon_cases t with ⟨i, _, hfree, hadd⟩ | ⟨_, hadd⟩
    · refine ⟨i, t[i].dummyAdded, ?_, fun _ => BeaconData.wellFormed_dummyAdded, fun _ hu => absurd hu hfree,
        fun h => h.elim⟩
      rw [callTbl, hadd]
      rfl
    · refine ⟨⟨0, by decide⟩, t[0], ?_, id, fun _ _ => rfl, fun h => h.elim⟩
      rw [callTbl, hadd]
      exact congrArg Except.ok (set_getElem_self t (by decide)).symm
  | add i =>
    refine Or.inr ⟨i.slot, t[i.slot].added, ?_, fun h => h.added, fun _ hu => ?_, fun h => h.elim⟩
    · rw [callTbl, addBeacon_of_lt i.property]
      rfl
    · rw [BeaconData.added, if_pos hu]
  | update i temp now =>
    refine Or.inr ⟨i.slot, t[i.slot].measured temp now, ?_, fun h => h.measured temp now, fun h => h.elim, fun _ hu => ?_⟩
    · exact updateBeaconData_of_lt i.property
    · rw [BeaconData.measured, if_neg hu]
  | dummyUpdate i now =>
    refine Or.inr ⟨i.slot, t[i.slot].dummyMeasured now, ?_, fun h => h.dummyMeasured now, fun h => h.elim, fun _ hu => ?_⟩
    · exact dummyUpdateBeaconData_of_lt i.property
    · rw [BeaconData.dummyMeasured, if_neg hu]
  | delete i =>
    refine Or.inr ⟨i.slot, .zero, ?_, fun _ => BeaconData.wellFormed_zero, fun h => h.elim, fun h => h.elim⟩
    exact deleteBeacon_of_lt i.property

theorem Sets.slot_eq {t u : BeaconTbl} {op : TblOp} {i : Fin maxConnectedBeacons} {b : BeaconData} (h : Sets t op i b)
    (hu : callTbl t op = .ok u) (j : Fin maxConnectedBeacons) : u[j] = if i = j then b else t[j] := by
  rw [h.result] at hu
  injection hu with hu
  subst hu
  exact getElem_set_slot t i j b

/-- Where a call sets what is there, the slot is unchanged. -/
theorem Sets.slot_unchanged {t u : BeaconTbl} {op : TblOp} {i j : Fin maxConnectedBeacons} {b : BeaconData}
    (h : Sets t op i b) (hu : callTbl t op = .ok u) (hb : i = j → b = t[j]) : u[j] = t[j] := by
  rw [h.slot_eq hu]
  split
  · rename_i hij
    exact hb hij
  · rfl

/-! ## Runs -/

def WellFormedTbl (t : BeaconTbl) : Prop := ∀ i : Fin maxConnectedBeacons, t[i].WellFormed

theorem wellFormedTbl_init : WellFormedTbl initBeaconTbl := by
  intro i
  have hzero : initBeaconTbl[i] = .zero := by simp [initBeaconTbl]
  rw [hzero]
  exact BeaconData.wellFormed_zero

theorem WellFormedTbl.set {t : BeaconTbl} (h : WellFormedTbl t) {i : Fin maxConnectedBeacons} {b : BeaconData}
    (hb : b.WellFormed) : WellFormedTbl (t.set i b) := by
  intro j
  rw [getElem_set_slot]
  split
  · exact hb
  · exact h j

theorem wellFormed_step {t : BeaconTbl} (h : WellFormedTbl t) (op : TblOp) :
    ∃ u, tblStep t op = some u ∧ WellFormedTbl u := by
  rcases callTbl_cases t op with rfl | ⟨i, b, hs⟩
  · exact ⟨_, rfl, wellFormedTbl_init⟩
  · refine ⟨t.set i b, ?_, h.set (hs.wellFormed (h i))⟩
    rw [tblStep, hs.result]
    rfl

/-- **Every run goes through**, and its tables are well formed. -/
theorem wellFormed_run (ops : List TblOp) : ∃ t, run tblStep initBeaconTbl ops = some t ∧ WellFormedTbl t :=
  run_progress (fun _ => WellFormedTbl) wellFormedTbl_init (fun _ _ op h => wellFormed_step h op) ops

/-! ## The laws -/

/-- `add_dummy_beacon` has claimed slot `i`: the slot was free, and the call returned its index and made it used. -/
def ClaimsDummy (t : BeaconTbl) (i : Fin maxConnectedBeacons) : Prop :=
  ¬t[i].Used ∧ ∃ u, addDummyBeacon t = .ok (UInt32.ofNat i, u) ∧ u[i].Used

/-- What allocation guarantees from the table `t`. -/
structure TableLaws (t : BeaconTbl) : Prop where
  flags : ∀ i : Fin maxConnectedBeacons,
    (t[i].elementUsed = 0 ∨ t[i].elementUsed = 1) ∧ (t[i].updated = 0 ∨ t[i].updated = 1)
  free : ∀ i : Fin maxConnectedBeacons, ¬t[i].Used → t[i] = .zero
  init : ∃ u, callTbl t .init = .ok u ∧ ∀ i : Fin maxConnectedBeacons, u[i] = .zero
  oneSlot : ∀ op, op ≠ .init → ∃ u, callTbl t op = .ok u ∧ ∃ i, ∀ j : Fin maxConnectedBeacons, j ≠ i → u[j] = t[j]
  adds : ∀ op u, op.IsAdd → callTbl t op = .ok u → ∀ i : Fin maxConnectedBeacons, t[i].Used → u[i] = t[i]
  updates : ∀ op u, op.IsUpdate → callTbl t op = .ok u → ∀ i : Fin maxConnectedBeacons, ¬t[i].Used → u[i] = t[i]
  lowest : ∀ i, (¬t[i].Used ∧ ∀ j : Fin maxConnectedBeacons, j < i → t[j].Used) ↔ ClaimsDummy t i
  full : (∀ i : Fin maxConnectedBeacons, t[i].Used) ↔ addDummyBeacon t = .ok (invalidU32, t)
  invalid : ∀ u, addDummyBeacon t = .ok (invalidU32, u) → u = t
  /-- A slot freed by `delete_beacon` is claimed by `add_beacon` on it, and by `add_dummy_beacon` if it is the lowest. -/
  reclaim : ∀ i : TblIndex, ∃ u, deleteBeacon t i = .ok u ∧ ¬u[i.slot].Used ∧
    (∃ v, addBeacon u i = .ok (0, v) ∧ v[i.slot].Used) ∧
    ((∀ j < i.slot, t[j].Used) → ClaimsDummy u i.slot)

section Laws

variable {t : BeaconTbl}

/-- The index that `add_dummy_beacon` returns is a slot's. -/
theorem ofNat_inj_slot {i j : Nat} (hi : i < maxConnectedBeacons) (hj : j < maxConnectedBeacons)
    (h : UInt32.ofNat i = UInt32.ofNat j) : i = j := by
  rw [← toNat_ofNat_slot hi, ← toNat_ofNat_slot hj, h]

theorem ofNat_ne_invalid {i : Nat} (hi : i < maxConnectedBeacons) : UInt32.ofNat i ≠ invalidU32 := by
  intro h
  have hnat := toNat_ofNat_slot hi
  have hinvalid : maxConnectedBeacons < invalidU32.toNat := by decide
  rw [h] at hnat
  omega

theorem claimsDummy_iff (i : Fin maxConnectedBeacons) :
    (¬t[i].Used ∧ ∀ j : Fin maxConnectedBeacons, j < i → t[j].Used) ↔ ClaimsDummy t i := by
  constructor
  · rintro ⟨hfree, hlower⟩
    have hfirst : firstFree t = i.val := (firstFree_eq_iff i.isLt).mpr ⟨hfree, hlower⟩
    rcases addDummyBeacon_cases t with ⟨k, hk, _, hadd⟩ | ⟨hfull, _⟩
    · obtain rfl : k = i := Fin.ext (hk.symm.trans hfirst)
      refine ⟨hfree, _, hadd, ?_⟩
      rw [getElem_set_self]
      exact BeaconData.used_dummyAdded _
    · have := i.isLt
      omega
  · rintro ⟨hfree, u, hcall, _⟩
    rcases addDummyBeacon_cases t with ⟨k, hk, _, hadd⟩ | ⟨hfull, _⟩
    · rw [hadd] at hcall
      injection hcall with hcall
      have hret := ofNat_inj_slot k.isLt i.isLt (congrArg Prod.fst hcall)
      exact (firstFree_eq_iff i.isLt).mp (hk.trans hret)
    · exact absurd (firstFree_eq_max.mp hfull i) hfree

theorem addDummyBeacon_invalid {u : BeaconTbl} (h : addDummyBeacon t = .ok (invalidU32, u)) :
    firstFree t = maxConnectedBeacons ∧ u = t := by
  rcases addDummyBeacon_cases t with ⟨k, _, _, hadd⟩ | ⟨hfull, hadd⟩
  · rw [hadd] at h
    injection h with h
    exact absurd (congrArg Prod.fst h) (ofNat_ne_invalid k.isLt)
  · rw [hadd] at h
    injection h with h
    exact ⟨hfull, (congrArg Prod.snd h).symm⟩

theorem reclaim (i : TblIndex) : ∃ u, deleteBeacon t i = .ok u ∧ ¬u[i.slot].Used ∧
    (∃ v, addBeacon u i = .ok (0, v) ∧ v[i.slot].Used) ∧
    ((∀ j < i.slot, t[j].Used) → ClaimsDummy u i.slot) := by
  have hfree : ¬(t.set i.slot .zero)[i.slot].Used := by
    rw [getElem_set_self]
    exact BeaconData.not_used_zero
  refine ⟨t.set i.slot .zero, deleteBeacon_of_lt i.property, hfree, ⟨_, addBeacon_of_lt i.property, ?_⟩, ?_⟩
  · simp [TblIndex.slot]
  · intro hlower
    refine (claimsDummy_iff i.slot).mp ⟨hfree, fun j hj => ?_⟩
    rw [getElem_set_other t (Fin.ne_of_lt hj)]
    exact hlower j hj

/-- The laws hold in every well formed table. -/
theorem WellFormedTbl.laws (h : WellFormedTbl t) : TableLaws t where
  flags i := ⟨(h i).elementUsed, (h i).updated⟩
  free i := (h i).free
  init := ⟨_, rfl, fun i => by simp [initBeaconTbl]⟩
  oneSlot op hop := by
    rcases callTbl_cases t op with hinit | ⟨i, b, hs⟩
    · exact absurd hinit hop
    · exact ⟨_, hs.result, i, fun j hj => by rw [hs.slot_eq hs.result, if_neg (Ne.symm hj)]⟩
  adds op u hop hu i hused := by
    rcases callTbl_cases t op with rfl | ⟨k, b, hs⟩
    · exact hop.elim
    · apply hs.slot_unchanged hu
      rintro rfl
      exact hs.add hop hused
  updates op u hop hu i hfree := by
    rcases callTbl_cases t op with rfl | ⟨k, b, hs⟩
    · exact hop.elim
    · apply hs.slot_unchanged hu
      rintro rfl
      exact hs.update hop hfree
  lowest := claimsDummy_iff
  full := by
    rw [← firstFree_eq_max]
    exact ⟨addDummyBeacon_of_full, fun h => (addDummyBeacon_invalid h).1⟩
  invalid u hu := (addDummyBeacon_invalid hu).2
  reclaim := reclaim

end Laws

/-- **In every reachable table the laws hold.** -/
theorem tableLaws_run (ops : List TblOp) : ∃ t, run tblStep initBeaconTbl ops = some t ∧ TableLaws t := by
  obtain ⟨t, hrun, hwf⟩ := wellFormed_run ops
  exact ⟨t, hrun, hwf.laws⟩

/-- Two beacons added, then `init_beacon_tbl`: both slots are cleared at once. -/
theorem init_clears_two : ∃ t u, run tblStep initBeaconTbl [.add ⟨0, by decide⟩, .add ⟨1, by decide⟩] = some t ∧
    callTbl t .init = .ok u ∧ ¬∃ i : Fin maxConnectedBeacons, ∀ j : Fin maxConnectedBeacons, j ≠ i → u[j] = t[j] := by
  refine ⟨_, _, rfl, rfl, ?_⟩
  rintro ⟨i, hi⟩
  by_cases hzero : (⟨0, by decide⟩ : Fin maxConnectedBeacons) = i
  · have hone := hi ⟨1, by decide⟩ (by rw [← hzero]; decide)
    exact absurd (congrArg BeaconData.elementUsed hone) (by decide)
  · exact absurd (congrArg BeaconData.elementUsed (hi ⟨0, by decide⟩ hzero)) (by decide)

end PelionClient.Beacon
