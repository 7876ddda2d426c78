import Mathlib.Algebra.Group.Int.Defs
import Mathlib.Algebra.Group.Nat.Defs
import Mathlib.Data.Int.Order.Basic
import Mathlib.Data.List.Basic

/-!
# Reading a blink pattern

A pattern is a string of decimal delays separated by `:`. `get_next_int` converts the field at the cursor with `strtol` in
base 10, narrows the `long` to an `int`, and moves the cursor behind the field. Everything here is a function of the bytes
from the cursor on; the width of `long` is a parameter.

Of a terminated string, what is left after the conversion is terminated (`terminated_strtol`), and so is what is left after
`get_next_int` (`terminated_nextField`): the cursor never leaves the buffer.
-/

namespace PelionClient.Blink

/-- `isspace`. -/
def isSpace (c : UInt8) : Bool := c == 32 || (9 ≤ c && c ≤ 13)

/-- `isdigit`. -/
def isDigit (c : UInt8) : Bool := 48 ≤ c && c ≤ 57

/-- The bytes of an optional sign. -/
def signLength (cs : List UInt8) : Nat := if cs.headD 0 = 43 ∨ cs.headD 0 = 45 then 1 else 0

/-- The number that decimal digits denote. -/
def decimal (ds : List UInt8) : Nat := ds.foldl (fun n c => 10 * n + (c.toNat - 48)) 0

/-- A number that does not fit a `long` of `bits` bits becomes `LONG_MAX` or `LONG_MIN`. -/
def saturate (bits : Nat) (v : Int) : Int := max (-(2 ^ (bits - 1))) (min (2 ^ (bits - 1) - 1) v)

/-- `strtol(cs, &endptr, 10)`: the value, and how far `endptr` is behind `cs`. Without a digit nothing is converted. -/
def strtol (bits : Nat) (cs : List UInt8) : Int × Nat :=
  let blanks := (cs.takeWhile isSpace).length
  let unsigned := blanks + signLength (cs.drop blanks)
  let digits := (cs.drop unsigned).takeWhile isDigit
  if digits = [] then (0, 0)
  else
    (saturate bits (if (cs.drop blanks).headD 0 = 45 then -(decimal digits) else decimal digits),
      unsigned + digits.length)

/-- The conversion of a `long` to an `int` of 32 bits. -/
def narrow (v : Int) : Int := Int.bmod v (2 ^ 32)

/-- `get_next_int` at the string `cs`: the next delay, or a negative number, and how far the cursor moves. -/
def nextField (bits : Nat) (cs : List UInt8) : Int × Nat :=
  let (convResult, endptr) := strtol bits cs
  if cs.headD 0 ≠ 0 then
    if (cs.drop endptr).headD 0 = 58 then (narrow convResult, endptr + 1)
    else if (cs.drop endptr).headD 0 = 0 then (narrow convResult, endptr)
    else (-1, endptr)
  else (-1, endptr)

example : nextField 64 [49, 48, 58, 55, 0] = (10, 3) := by decide

/-! ## The cursor stays in the string -/

/-- A C string: there is a NUL in it. -/
def Terminated (cs : List UInt8) : Prop := 0 ∈ cs

/-- A scan that stops at the NUL leaves it. -/
theorem terminated_drop_takeWhile {p : UInt8 → Bool} (hp : p 0 = false) {cs : List UInt8} (h : Terminated cs) :
    Terminated (cs.drop (cs.takeWhile p).length) := by
  induction cs with
  | nil => exact h
  | cons c cs ih =>
    cases hc : p c with
    | false =>
      rw [List.takeWhile_cons_of_neg (by simp [hc])]
      exact h
    | true =>
      rw [List.takeWhile_cons_of_pos hc]
      rcases List.mem_cons.mp h with h0 | h0
      · rw [← h0, hp] at hc
        cases hc
      · exact ih h0

/-- A byte that is not the NUL can be skipped. -/
theorem terminated_drop_one {cs : List UInt8} (h : Terminated cs) (hc : cs.headD 0 ≠ 0) : Terminated (cs.drop 1) := by
  cases cs with
  | nil => exact h
  | cons c cs =>
    rcases List.mem_cons.mp h with h0 | h0
    · exact absurd h0.symm hc
    · exact h0

theorem terminated_drop_signLength {cs : List UInt8} (h : Terminated cs) : Terminated (cs.drop (signLength cs)) := by
  unfold signLength
  split
  · rename_i hsign
    refine terminated_drop_one h ?_
    rcases hsign with hs | hs <;> rw [hs] <;> decide
  · exact h

theorem terminated_strtol (bits : Nat) {cs : List UInt8} (h : Terminated cs) :
    Terminated (cs.drop (strtol bits cs).2) := by
  have hblanks := @terminated_drop_takeWhile isSpace rfl _ h
  have hsign := terminated_drop_signLength hblanks
  have hdigits := @terminated_drop_takeWhile isDigit rfl _ hsign
  simp only [List.drop_drop] at hdigits
  simp only [strtol]
  split
  · exact h
  · exact hdigits

/-- **The cursor stays in the string**: what `get_next_int` leaves is terminated. -/
theorem terminated_nextField (bits : Nat) {cs : List UInt8} (h : Terminated cs) :
    Terminated (cs.drop (nextField bits cs).2) := by
  have hend := terminated_strtol bits h
  simp only [nextField]
  split
  · split
    · rename_i hcolon
      rw [← List.drop_drop]
      exact terminated_drop_one hend (by rw [hcolon]; decide)
    · split
      · exact hend
      · exact hend
  · exact hend

end PelionClient.Blink
