import Mathlib.Algebra.Order.Ring.Int
import Mathlib.Data.List.TakeWhile
import PelionClient.Blink.Pattern

/-!
# The delays of a pattern

The pattern is read field by field, and each field as if it stood alone (`nextField_append`): neither the blanks nor the
digits that `strtol` takes go past a `:` or the NUL. So `get_next_int`, called at the start of what is left of a pattern,
gives the first of its `delays` and leaves the fields after it, or is negative if there are none (`delays_cases`).

`fieldDelay_number` says what the delay of a field is that holds a number, and `fieldDelay_nil` that of an empty one.
-/

namespace PelionClient.Blink

/-- The fields of a pattern are separated by `:`. -/
def fields (pattern : List UInt8) : List (List UInt8) := pattern.splitOn 58

/-- What `get_next_int` gives for a field, the last one of the pattern or another. -/
def fieldDelay (bits : Nat) (isLast : Bool) (field : List UInt8) : Int :=
  (nextField bits (field ++ [if isLast then 0 else 58])).1

/-- The delays of the longest prefix of the fields that `get_next_int` accepts as non-negative. -/
def acceptedDelays (bits : Nat) : List (List UInt8) → List Int
  | [] => []
  | field :: rest =>
    if fieldDelay bits rest.isEmpty field < 0 then [] else fieldDelay bits rest.isEmpty field :: acceptedDelays bits rest

def delays (bits : Nat) (pattern : List UInt8) : List Int := acceptedDelays bits (fields pattern)

example : delays 64 [49, 48, 58, 58, 55, 58] = [10, 0, 7] := by decide

/-! ## A field by itself -/

/-- A byte at which `strtol` stops, whatever comes before it. -/
structure Stops (c : UInt8) : Prop where
  notSpace : isSpace c = false
  notDigit : isDigit c = false
  notSign : c ≠ 43 ∧ c ≠ 45

theorem stops_colon : Stops 58 := ⟨by decide, by decide, by decide⟩

theorem stops_nul : Stops 0 := ⟨by decide, by decide, by decide⟩

section Field

variable {bits : Nat} {c : UInt8} {f x : List UInt8}

theorem takeWhile_append_stop {p : UInt8 → Bool} (hc : p c = false) (f x : List UInt8) :
    (f ++ c :: x).takeWhile p = f.takeWhile p := by
  induction f with
  | nil => exact List.takeWhile_cons_of_neg (by simp [hc])
  | cons b f ih =>
    rw [List.cons_append, List.takeWhile_cons, List.takeWhile_cons, ih]

theorem takeWhile_length_le (p : UInt8 → Bool) (f : List UInt8) : (f.takeWhile p).length ≤ f.length :=
  (List.takeWhile_sublist p).length_le

/-- The sign of a number is in its field. -/
theorem headD_append_stop {k : UInt8} (hk : k ≠ 0) (hc : c ≠ k) (f x : List UInt8) :
    (f ++ c :: x).headD 0 = k ↔ f.headD 0 = k := by
  cases f with
  | nil => exact iff_of_false hc (Ne.symm hk)
  | cons b f => rfl

theorem signLength_append_stop (h : Stops c) (f x : List UInt8) : signLength (f ++ c :: x) = signLength f := by
  simp only [signLength, headD_append_stop (show (43 : UInt8) ≠ 0 by decide) h.notSign.1,
    headD_append_stop (show (45 : UInt8) ≠ 0 by decide) h.notSign.2]

theorem signLength_le (f : List UInt8) : signLength f ≤ f.length := by
  unfold signLength
  cases f with
  | nil => simp
  | cons b f =>
    split
    · simp
    · simp

/-- What `strtol` skips before the digits. -/
def unsignedAt (cs : List UInt8) : Nat :=
  (cs.takeWhile isSpace).length + signLength (cs.drop (cs.takeWhile isSpace).length)

theorem unsignedAt_le (f : List UInt8) : unsignedAt f ≤ f.length := by
  have hblanks := takeWhile_length_le isSpace f
  have hsign := signLength_le (f.drop (f.takeWhile isSpace).length)
  rw [List.length_drop] at hsign
  unfold unsignedAt
  omega

theorem strtol_eq (bits : Nat) (cs : List UInt8) : strtol bits cs =
    if (cs.drop (unsignedAt cs)).takeWhile isDigit = [] then (0, 0)
    else (saturate bits (if (cs.drop (cs.takeWhile isSpace).length).headD 0 = 45
          then -(decimal ((cs.drop (unsignedAt cs)).takeWhile isDigit))
          else decimal ((cs.drop (unsignedAt cs)).takeWhile isDigit)),
        unsignedAt cs + ((cs.drop (unsignedAt cs)).takeWhile isDigit).length) := rfl

/-- **`strtol` reads a field as if nothing came after it.** -/
theorem strtol_append_stop (bits : Nat) (h : Stops c) (f x : List UInt8) : strtol bits (f ++ c :: x) = strtol bits f := by
  have hblanks := takeWhile_append_stop h.notSpace f x
  have hdrop := @List.drop_append_of_le_length _ f (c :: x) _ (takeWhile_length_le isSpace f)
  have hunsigned : unsignedAt (f ++ c :: x) = unsignedAt f := by
    unfold unsignedAt
    rw [hblanks, hdrop, signLength_append_stop h]
  have hdrop' := @List.drop_append_of_le_length _ f (c :: x) _ (unsignedAt_le f)
  simp only [strtol_eq, hunsigned, hblanks, hdrop, hdrop', takeWhile_append_stop h.notDigit,
    headD_append_stop (show (45 : UInt8) ≠ 0 by decide) h.notSign.2]

theorem strtol_le (bits : Nat) (f : List UInt8) : (strtol bits f).2 ≤ f.length := by
  have hunsigned := unsignedAt_le f
  have hdigits := takeWhile_length_le isDigit (f.drop (unsignedAt f))
  rw [List.length_drop] at hdigits
  rw [strtol_eq]
  split
  · exact Nat.zero_le _
  · show unsignedAt f + _ ≤ f.length
    omega

/-- **`get_next_int` too.** -/
theorem nextField_append (bits : Nat) (h : Stops c) (f x : List UInt8) :
    nextField bits (f ++ c :: x) = nextField bits (f ++ [c]) := by
  have hle := strtol_le bits f
  have hhead : (f ++ c :: x).headD 0 = (f ++ [c]).headD 0 := by cases f <;> rfl
  have hend : ((f ++ c :: x).drop (strtol bits f).2).headD 0 = ((f ++ [c]).drop (strtol bits f).2).headD 0 := by
    rw [List.drop_append_of_le_length hle, List.drop_append_of_le_length hle]
    cases f.drop (strtol bits f).2 <;> rfl
  simp only [nextField, strtol_append_stop bits h, hhead, hend]

/-- The byte behind a number is in the field, unless the number is the whole field. -/
theorem strtol_end (hcolon : 58 ∉ f) (hnul : 0 ∉ f) {k : UInt8} (hk : k = 58 ∨ k = 0)
    (hend : ((f ++ [c]).drop (strtol bits f).2).headD 0 = k) : (strtol bits f).2 = f.length ∧ c = k := by
  have hle := strtol_le bits f
  rw [List.drop_append_of_le_length hle] at hend
  cases hrest : f.drop (strtol bits f).2 with
  | nil =>
    have hlen := congrArg List.length hrest
    rw [List.length_drop, List.length_nil] at hlen
    rw [hrest] at hend
    exact ⟨by omega, hend⟩
  | cons b rest =>
    have hmem : b ∈ f := List.mem_of_mem_drop (hrest ▸ List.mem_cons_self)
    rw [hrest] at hend
    obtain rfl : b = k := hend
    rcases hk with rfl | rfl
    · exact absurd hmem hcolon
    · exact absurd hmem hnul

/-- A field that is accepted is read to its end. -/
theorem nextField_end (hc : Stops c) (hcolon : 58 ∉ f) (hnul : 0 ∉ f) (hpos : 0 ≤ (nextField bits (f ++ [c])).1) :
    (nextField bits (f ++ [c])).2 = f.length + if c = 58 then 1 else 0 := by
  have hconv : strtol bits (f ++ [c]) = strtol bits f := strtol_append_stop bits hc f []
  simp only [nextField, hconv] at hpos ⊢
  split at hpos
  · rename_i hstart
    rw [if_pos hstart]
    split at hpos
    · rename_i hend
      obtain ⟨hlen, rfl⟩ := strtol_end hcolon hnul (Or.inl rfl) hend
      rw [if_pos hend, if_pos rfl, hlen]
    · rename_i hend
      rw [if_neg hend]
      split at hpos
      · rename_i hend'
        obtain ⟨hlen, rfl⟩ := strtol_end hcolon hnul (Or.inr rfl) hend'
        rw [if_pos hend', if_neg (by decide), hlen]
        rfl
      · exact absurd hpos (show ¬(0 : Int) ≤ -1 by decide)
  · exact absurd hpos (show ¬(0 : Int) ≤ -1 by decide)

end Field

/-! ## A number in a field -/

/-- Blanks, an optional sign, and digits. -/
structure NumberField where
  blanks : List UInt8
  sign : List UInt8
  digits : List UInt8
  isBlank : ∀ c ∈ blanks, isSpace c = true
  isSign : sign = [] ∨ sign = [43] ∨ sign = [45]
  isNumber : ∀ c ∈ digits, isDigit c = true
  nonempty : digits ≠ []

def NumberField.bytes (n : NumberField) : List UInt8 := n.blanks ++ (n.sign ++ n.digits)

def NumberField.value (n : NumberField) : Int := if n.sign = [45] then -(decimal n.digits) else decimal n.digits

section Number

variable (n : NumberField)

theorem not_space_of_digit {c : UInt8} (h : isDigit c = true) : isSpace c = false ∧ c ≠ 43 ∧ c ≠ 45 ∧ c ≠ 0 := by
  have hne : ∀ k : UInt8, isDigit k = false → c ≠ k := by
    rintro k hk rfl
    rw [h] at hk
    cases hk
  refine ⟨?_, hne 43 rfl, hne 45 rfl, hne 0 rfl⟩
  simp only [isDigit, Bool.and_eq_true, decide_eq_true_eq, UInt8.le_iff_toNat_le] at h
  have hlo : 48 ≤ c.toNat := h.1
  have hblank : ¬c.toNat ≤ 13 := by omega
  simp only [isSpace, Bool.or_eq_false_iff, Bool.and_eq_false_iff, beq_eq_false_iff_ne, decide_eq_false_iff_not,
    UInt8.le_iff_toNat_le]
  exact ⟨hne 32 rfl, Or.inr hblank⟩

theorem not_nul_of_space {c : UInt8} (h : isSpace c = true) : c ≠ 0 := by
  rintro rfl
  exact absurd h (by decide)

theorem takeWhile_all {p : UInt8 → Bool} {cs : List UInt8} (h : ∀ c ∈ cs, p c = true) : cs.takeWhile p = cs :=
  List.takeWhile_eq_self_iff.mpr h

/-- What follows the blanks begins with no blank, and with the sign. -/
theorem NumberField.signed : ∃ c rest, n.sign ++ n.digits = c :: rest ∧ isSpace c = false ∧ c ≠ 0 ∧
    (c = 45 ↔ n.sign = [45]) ∧ signLength (n.sign ++ n.digits) = n.sign.length := by
  obtain ⟨d, ds, hdigits⟩ := List.exists_cons_of_ne_nil n.nonempty
  obtain ⟨hspace, hplus, hminus, hnul⟩ := not_space_of_digit (n.isNumber d (hdigits ▸ List.mem_cons_self))
  rcases n.isSign with h | h | h
  · refine ⟨d, ds, by rw [h, hdigits]; rfl, hspace, hnul, by simp [h, hminus], ?_⟩
    simp [signLength, h, hdigits, hplus, hminus]
  · exact ⟨43, n.digits, by rw [h]; rfl, by decide, by decide, by simp [h], by simp [signLength, h]⟩
  · exact ⟨45, n.digits, by rw [h]; rfl, by decide, by decide, by simp [h], by simp [signLength, h]⟩

/-- `strtol` converts the whole of such a field. -/
theorem strtol_number (bits : Nat) : strtol bits n.bytes = (saturate bits n.value, n.bytes.length) := by
  obtain ⟨c, rest, hrest, hspace, _, hminus, hsign⟩ := n.signed
  have hblanks : n.bytes.takeWhile isSpace = n.blanks := by
    rw [NumberField.bytes, hrest, takeWhile_append_stop hspace, takeWhile_all n.isBlank]
  have hafter : n.bytes.drop n.blanks.length = n.sign ++ n.digits := List.drop_left
  have hunsigned : unsignedAt n.bytes = n.blanks.length + n.sign.length := by
    rw [unsignedAt, hblanks, hafter, hsign]
  have hdigits : n.bytes.drop (n.blanks.length + n.sign.length) = n.digits := by
    rw [← List.drop_drop, hafter, List.drop_left]
  have hhead : (n.sign ++ n.digits).headD 0 = 45 ↔ n.sign = [45] := by
    rw [hrest]
    exact hminus
  have hlen : n.bytes.length = n.blanks.length + n.sign.length + n.digits.length := by
    simp [NumberField.bytes, Nat.add_assoc]
  rw [strtol_eq, hunsigned, hdigits, takeWhile_all n.isNumber, hblanks, hafter, if_neg n.nonempty, hlen]
  simp only [hhead, NumberField.value]

theorem saturate_of_int {bits : Nat} (hbits : 32 ≤ bits) {v : Int} (hlo : -(2 ^ 31) ≤ v) (hhi : v < 2 ^ 31) :
    narrow (saturate bits v) = v := by
  have hpow : (2 : Int) ^ 31 ≤ 2 ^ (bits - 1) := pow_le_pow_right₀ (by decide) (by omega)
  have hsat : saturate bits v = v := by
    unfold saturate
    omega
  rw [hsat, narrow]
  exact Int.bmod_eq_of_le (by omega) (by omega)

/-- **`get_next_int` on a number**, before a `:` or at the end: what `strtol` makes of the number, as an `int`. -/
theorem nextField_number (bits : Nat) {c : UInt8} (hc : c = 58 ∨ c = 0) (x : List UInt8) :
    (nextField bits (n.bytes ++ c :: x)).1 = narrow (saturate bits n.value) := by
  have hstart : (n.bytes ++ c :: x).headD 0 ≠ 0 := by
    obtain ⟨d, rest, hrest, _, hnul, _⟩ := n.signed
    cases hblanks : n.blanks with
    | nil =>
      rw [NumberField.bytes, hblanks, hrest]
      exact hnul
    | cons b blanks =>
      rw [NumberField.bytes, hblanks]
      exact not_nul_of_space (n.isBlank b (hblanks ▸ List.mem_cons_self))
  have hstops : Stops c := by
    rcases hc with rfl | rfl
    · exact stops_colon
    · exact stops_nul
  have hconv := strtol_append_stop bits hstops n.bytes x
  rw [strtol_number] at hconv
  unfold nextField
  simp only [hconv, if_pos hstart, List.drop_left]
  rcases hc with rfl | rfl <;> rfl

/-- **The delay of a field that holds a number** of an `int` is the number. -/
theorem fieldDelay_number {bits : Nat} (hbits : 32 ≤ bits) (hlo : -(2 ^ 31) ≤ n.value) (hhi : n.value < 2 ^ 31)
    (isLast : Bool) : fieldDelay bits isLast n.bytes = n.value := by
  have hc : (if isLast then 0 else 58 : UInt8) = 58 ∨ (if isLast then 0 else 58 : UInt8) = 0 := by
    cases isLast <;> simp
  rw [fieldDelay, nextField_number n bits hc]
  exact saturate_of_int hbits hlo hhi

end Number

/-! ## What is left of a pattern -/

section Rest

variable {bits : Nat} {f rest : List UInt8}

theorem fieldDelay_nil (bits : Nat) : fieldDelay bits true [] = -1 ∧ fieldDelay bits false [] = 0 := ⟨rfl, rfl⟩

theorem delays_nil (bits : Nat) : delays bits [] = [] := by
  have hempty := (fieldDelay_nil bits).1
  simp [delays, fields, acceptedDelays, hempty]

theorem delays_field (hcolon : 58 ∉ f) (rest : List UInt8) : delays bits (f ++ 58 :: rest) =
    if fieldDelay bits false f < 0 then [] else fieldDelay bits false f :: delays bits rest := by
  have hne : ((rest.splitOn 58).isEmpty) = false := by
    cases h : rest.splitOn 58 with
    | nil => exact absurd h (List.splitOn_ne_nil 58 rest)
    | cons => rfl
  unfold delays fields
  rw [List.splitOn_append_cons_self_of_not_mem hcolon, acceptedDelays, hne]

theorem delays_last (hcolon : 58 ∉ f) : delays bits f =
    if fieldDelay bits true f < 0 then [] else [fieldDelay bits true f] := by
  unfold delays fields
  rw [List.splitOn_eq_singleton hcolon, acceptedDelays]
  rfl

/-- **`get_next_int` at what is left of a pattern**: a negative number if there are no more delays, or else the first of
them, with the cursor before the others. -/
theorem delays_cases (hnul : 0 ∉ rest) :
    ((nextField bits (rest ++ [0])).1 < 0 ∧ delays bits rest = []) ∨
      (0 ≤ (nextField bits (rest ++ [0])).1 ∧ ∃ rest', 0 ∉ rest' ∧
        (rest ++ [0]).drop (nextField bits (rest ++ [0])).2 = rest' ++ [0] ∧
        delays bits rest = (nextField bits (rest ++ [0])).1 :: delays bits rest') := by
  by_cases hmem : 58 ∈ rest
  · obtain ⟨f, rest', rfl, hcolon⟩ := List.eq_append_cons_of_mem hmem
    have hf : 0 ∉ f := fun h => hnul (List.mem_append_left _ h)
    have hrest : 0 ∉ rest' := fun h => hnul (List.mem_append_right _ (List.mem_cons_of_mem _ h))
    have hnext : nextField bits (f ++ 58 :: rest' ++ [0]) = nextField bits (f ++ [58]) := by
      rw [List.append_assoc, List.cons_append]
      exact nextField_append bits stops_colon f _
    rw [hnext, delays_field hcolon]
    rcases Int.lt_or_le (nextField bits (f ++ [58])).1 0 with hneg | hpos
    · exact Or.inl ⟨hneg, if_pos hneg⟩
    · refine Or.inr ⟨hpos, rest', hrest, ?_, if_neg (Int.not_lt.mpr hpos)⟩
      rw [nextField_end stops_colon hcolon hf hpos, if_pos rfl, List.append_assoc, List.cons_append]
      simp
  · rw [delays_last hmem]
    rcases Int.lt_or_le (nextField bits (rest ++ [0])).1 0 with hneg | hpos
    · exact Or.inl ⟨hneg, if_pos hneg⟩
    · refine Or.inr ⟨hpos, [], by simp, ?_, ?_⟩
      · rw [nextField_end stops_nul hmem hnul hpos, if_neg (by decide)]
        simp
      · rw [delays_nil]
        exact if_neg (Int.not_lt.mpr hpos)

end Rest

end PelionClient.Blink
