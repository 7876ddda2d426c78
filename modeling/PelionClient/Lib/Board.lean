import Mathlib.Data.List.Induction
import Mathlib.Logic.Function.Basic
import PelionClient.Lib.Slots

/-!
# A board of last values

Sources report values, and from time to time the board is shown. The first `n` reports admit their sources; a source that
is not admitted has no value on the board. What the board holds is a function of the operations so far: the value of a
source is that of its last report if one of the first `n` reports was its own (`current_after`).
-/

namespace PelionClient.Lib

variable {κ β : Type*}

/-- What can happen to a board. -/
inductive BoardOp (κ β : Type*)
  | report (k : κ) (v : β)
  | publish
deriving DecidableEq, Repr

structure Board (κ β : Type*) where
  /-- Reports that can still admit their source. -/
  left : Nat
  /-- The value of each source that is admitted. -/
  current : κ → Option β
  /-- The values last shown. -/
  shown : κ → Option β

namespace Board

/-- A board that admits the sources of the first `n` reports. -/
def empty (n : Nat) : Board κ β := ⟨n, fun _ => none, fun _ => none⟩

section Apply

variable [DecidableEq κ]

def apply (b : Board κ β) : BoardOp κ β → Board κ β
  | .report k v =>
    { b with
      left := b.left - 1
      current := if 0 < b.left ∨ (b.current k).isSome then Function.update b.current k (some v) else b.current }
  | .publish => { b with shown := b.current }

/-- The board after the operations `ops`. -/
def after (n : Nat) (ops : List (BoardOp κ β)) : Board κ β := ops.foldl apply (empty n)

end Apply

/-! ## What has been reported -/

def reports (ops : List (BoardOp κ β)) : List (κ × β) := ops.filterMap fun
  | .report k v => some (k, v)
  | .publish => none

/-- The sources that have reported since the board was last shown. -/
def unshown (ops : List (BoardOp κ β)) : List κ := ops.foldl (fun ks op => match op with
  | .report k _ => k :: ks
  | .publish => []) []

/-- The sources of the first `n` reports. -/
def admitted (n : Nat) (ops : List (BoardOp κ β)) : List κ := ((reports ops).map Prod.fst).take n

section Last

variable [DecidableEq κ]

/-- The value of the last report of `k`. -/
def last (k : κ) (ops : List (BoardOp κ β)) : Option β := ((reports ops).reverse.find? fun r => r.1 = k).map Prod.snd

/-- The value of `k`, if it is admitted. -/
def value (n : Nat) (ops : List (BoardOp κ β)) (k : κ) : Option β := if k ∈ admitted n ops then last k ops else none

end Last

@[simp] theorem reports_report (ops : List (BoardOp κ β)) (k : κ) (v : β) :
    reports (ops ++ [.report k v]) = reports ops ++ [(k, v)] := by
  simp [reports, List.filterMap_append]

@[simp] theorem reports_publish (ops : List (BoardOp κ β)) : reports (ops ++ [.publish]) = reports ops := by
  simp [reports, List.filterMap_append]

@[simp] theorem unshown_report (ops : List (BoardOp κ β)) (k : κ) (v : β) :
    unshown (ops ++ [.report k v]) = k :: unshown ops := by
  rw [unshown, List.foldl_append]
  rfl

@[simp] theorem unshown_publish (ops : List (BoardOp κ β)) : unshown (ops ++ [.publish]) = [] := by
  rw [unshown, List.foldl_append]
  rfl

/-- One more report admits its source if there are fewer than `n` before it. -/
theorem mem_admitted_report {n : Nat} {ops : List (BoardOp κ β)} {j k : κ} {v : β} :
    j ∈ admitted n (ops ++ [.report k v]) ↔ j ∈ admitted n ops ∨ ((reports ops).length < n ∧ j = k) := by
  unfold admitted
  rw [reports_report, List.map_append, List.map_singleton, mem_take_snoc, List.length_map]

variable [DecidableEq κ]

theorem after_snoc (n : Nat) (ops : List (BoardOp κ β)) (op : BoardOp κ β) :
    after n (ops ++ [op]) = (after n ops).apply op := by
  simp [after, List.foldl_append]

theorem last_report (ops : List (BoardOp κ β)) (j k : κ) (v : β) :
    last j (ops ++ [.report k v]) = if k = j then some v else last j ops := by
  unfold last
  rw [reports_report, List.reverse_append]
  by_cases h : k = j <;> simp [h]

/-- A source that is admitted has reported. -/
theorem last_isSome {n : Nat} {ops : List (BoardOp κ β)} {k : κ} (h : k ∈ admitted n ops) : (last k ops).isSome := by
  obtain ⟨r, hr, hk⟩ := List.mem_map.mp (List.mem_of_mem_take h)
  rw [last, Option.isSome_map, List.find?_isSome]
  exact ⟨r, List.mem_reverse.mpr hr, by simp [hk]⟩

theorem value_isSome {n : Nat} {ops : List (BoardOp κ β)} {k : κ} : (value n ops k).isSome ↔ k ∈ admitted n ops := by
  unfold value
  split
  · rename_i h
    exact iff_of_true (last_isSome h) h
  · rename_i h
    exact iff_of_false (by simp) h

theorem left_after (n : Nat) (ops : List (BoardOp κ β)) : (after n ops).left = n - (reports ops).length := by
  induction ops using List.reverseRecOn with
  | nil => rfl
  | append_singleton ops op ih =>
    rw [after_snoc]
    cases op with
    | report k v =>
      rw [reports_report, List.length_append, List.length_singleton]
      show (after n ops).left - 1 = _
      omega
    | publish => rw [reports_publish]; exact ih

/-- **What the board holds**: the last value of each source that is admitted. -/
theorem current_after (n : Nat) (ops : List (BoardOp κ β)) : (after n ops).current = value n ops := by
  induction ops using List.reverseRecOn with
  | nil =>
    funext j
    exact (if_neg (by simp [admitted, reports])).symm
  | append_singleton ops op ih =>
    rw [after_snoc]
    cases op with
    | publish =>
      funext j
      simp only [value, admitted, last, reports_publish]
      exact congrFun ih j
    | report k v =>
      have hleft : 0 < (after n ops).left ↔ (reports ops).length < n := by
        rw [left_after]
        omega
      funext j
      simp only [apply, hleft, ih, value_isSome]
      by_cases hjk : j = k
      · subst hjk
        by_cases hadm : (reports ops).length < n ∨ j ∈ admitted n ops
        · have hmem : j ∈ admitted n (ops ++ [.report j v]) := by
            rw [mem_admitted_report]
            tauto
          rw [if_pos hadm, Function.update_self, value, if_pos hmem, last_report, if_pos rfl]
        · have hmem : j ∉ admitted n (ops ++ [.report j v]) := by
            rw [mem_admitted_report]
            tauto
          rw [if_neg hadm, value, value, if_neg hmem, if_neg (not_or.mp hadm).2]
      · have hmem : j ∈ admitted n (ops ++ [.report k v]) ↔ j ∈ admitted n ops := by
          rw [mem_admitted_report]
          tauto
        have hlast : last j (ops ++ [.report k v]) = last j ops := by
          rw [last_report, if_neg (Ne.symm hjk)]
        simp only [value, hmem, hlast]
        split
        · rw [Function.update_of_ne hjk, value]
        · rw [value]

end Board

end PelionClient.Lib
