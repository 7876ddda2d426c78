import Mathlib.Data.List.Basic

/-!
# A register with several writers

What an operation writes to the register, if it writes at all, may depend on the operations before it. The register holds
what was written last (`lastWrite`), and one more operation writes over it or leaves it (`lastWrite_snoc`).
-/

namespace PelionClient.Lib

variable {α β : Type*}

/-- The last write, where the last operation is the first of the list. -/
def lastWriteRev (w : List α → α → Option β) : List α → Option β
  | [] => none
  | op :: past => (w past.reverse op).or (lastWriteRev w past)

/-- What the operations have written last; `w pre op` is what `op` writes after `pre`. -/
def lastWrite (w : List α → α → Option β) (ops : List α) : Option β := lastWriteRev w ops.reverse

variable {w : List α → α → Option β}

theorem lastWrite_snoc (ops : List α) (op : α) : lastWrite w (ops ++ [op]) = (w ops op).or (lastWrite w ops) := by
  rw [lastWrite, List.reverse_append, List.reverse_singleton, List.singleton_append, lastWriteRev, List.reverse_reverse]
  rfl

end PelionClient.Lib
