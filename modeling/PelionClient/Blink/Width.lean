import PelionClient.Blink.Fields
import PelionClient.Blink.Machine

/-!
# The width of `long`

`strtol` saturates at the width of `long`, and `get_next_int` narrows what it gets to an `int`. A `long` of 32 bits is an
`int`, so that a number that is too large becomes `INT_MAX` (`delay_32`). From a `long` of 64 bits the upper half is dropped
(`delay_64`): a number of more than 32 bits is taken for its lower half, and if that is no negative `int`, it is played
(`DigitField.Replaced`). No delay is replaced by another in exactly the fields that hold no such number (`numberKept_iff`).
-/

namespace PelionClient.Blink

def intMax : Int := 2 ^ 31 - 1

/-- An object whose cursor is at a field of decimal digits, with the `:` or the NUL after them. -/
structure DigitField where
  blinky : Blinky
  pattern : List UInt8
  curr : Nat
  digits : List UInt8
  hasPattern : blinky.pattern = some pattern
  hasCursor : blinky.currPattern = some curr
  isNumber : ∀ c ∈ digits, isDigit c = true
  ends : (∃ rest, 0 ∈ rest ∧ pattern.drop curr = digits ++ 58 :: rest) ∨
    (digits ≠ [] ∧ ∃ rest, pattern.drop curr = digits ++ 0 :: rest)

/-- The number that the digits denote. -/
def DigitField.value (f : DigitField) : Nat := decimal f.digits

/-- `run_step` sends a timer event with the delay `d`. -/
def Schedules (cfg : Config) (s : Blinky) (d : Int) : Prop :=
  ∃ t, runStep cfg (runScript cfg .done) true s = .ok (true, t) ∧ t.log = s.log ++ [.schedule d, .toggleLed]

/-- No delay is replaced by another: with both widths of `long` the delay is the number, or `INT_MAX`, or negative, and that
only if the number does not fit an `int`; and the builds do not schedule two different delays. -/
structure NumberKept (f : DigitField) : Prop where
  number : ∀ bits, bits = 32 ∨ bits = 64 → ∃ d t, f.blinky.getNextInt bits = .ok (d, t) ∧
    (d = f.value ∨ d = intMax ∨ (d < 0 ∧ intMax < f.value))
  sameDelay : ∀ cfg cfg' d d', cfg.longBits = 32 → cfg'.longBits = 64 →
    Schedules cfg f.blinky d → Schedules cfg' f.blinky d' → d = d'

/-- The number has more than 32 bits and fits a `long` of 64, and its lower half is a delay other than `INT_MAX`. -/
def DigitField.Replaced (f : DigitField) : Prop :=
  2 ^ 32 ≤ f.value ∧ f.value < 2 ^ 63 ∧ f.value % 2 ^ 32 < 2 ^ 31 - 1

/-! ## The delay -/

section Delay

variable {bits : Nat} {f : DigitField}

/-- What the field gives: the number, saturated and narrowed. -/
def DigitField.delay (bits : Nat) (f : DigitField) : Int := narrow (saturate bits f.value)

/-- An empty field before a `:` is 0. -/
theorem nextField_empty (bits : Nat) (rest : List UInt8) :
    (nextField bits (58 :: rest)).1 = narrow (saturate bits (decimal [])) := by
  have hconv : strtol bits (58 :: rest) = (0, 0) := strtol_append_stop bits stops_colon [] rest
  have hzero : saturate bits (decimal []) = 0 := by
    have hpos : (0 : Int) < 2 ^ (bits - 1) := Int.pow_pos (by decide)
    unfold saturate decimal
    simp only [List.foldl_nil]
    omega
  rw [hzero]
  simp only [nextField, hconv]
  rfl

theorem nextField_digits {digits : List UInt8} (hdigits : ∀ c ∈ digits, isDigit c = true) (hne : digits ≠ [])
    (bits : Nat) {c : UInt8} (hc : c = 58 ∨ c = 0) (rest : List UInt8) :
    (nextField bits (digits ++ c :: rest)).1 = narrow (saturate bits (decimal digits)) :=
  nextField_number ⟨[], [], digits, fun _ h => (nomatch h), Or.inl rfl, hdigits, hne⟩ bits hc rest

theorem DigitField.nextField_eq (bits : Nat) (f : DigitField) :
    (nextField bits (f.pattern.drop f.curr)).1 = f.delay bits := by
  unfold DigitField.delay DigitField.value
  rcases f.ends with ⟨rest, _, hrest⟩ | ⟨hne, rest, hrest⟩
  · rw [hrest]
    by_cases hnil : f.digits = []
    · rw [hnil]
      exact nextField_empty bits rest
    · exact nextField_digits f.isNumber hnil bits (Or.inl rfl) rest
  · rw [hrest]
    exact nextField_digits f.isNumber hne bits (Or.inr rfl) rest

/-- **`get_next_int` gives the delay.** -/
theorem DigitField.getNextInt (bits : Nat) (f : DigitField) :
    ∃ curr, f.blinky.getNextInt bits = .ok (f.delay bits, { f.blinky with currPattern := some curr }) := by
  have hnul : 0 ∈ f.pattern.drop f.curr := by
    rcases f.ends with ⟨rest, hmem, hrest⟩ | ⟨_, rest, hrest⟩
    · rw [hrest]
      exact List.mem_append_right _ (List.mem_cons_of_mem _ hmem)
    · rw [hrest]
      exact List.mem_append_right _ List.mem_cons_self
  refine ⟨f.curr + (nextField bits (f.pattern.drop f.curr)).2, ?_⟩
  simp only [Blinky.getNextInt, f.hasPattern, f.hasCursor, if_pos hnul, f.nextField_eq]

/-- `run_step` schedules it, unless it is negative. -/
theorem schedules_iff {cfg : Config} {d : Int} :
    Schedules cfg f.blinky d ↔ d = f.delay cfg.longBits ∧ 0 ≤ f.delay cfg.longBits := by
  obtain ⟨curr, hread⟩ := f.getNextInt cfg.longBits
  unfold Schedules runStep
  simp only [hread, bind, Except.bind, playDelay]
  by_cases hneg : f.delay cfg.longBits < 0
  · simp only [if_pos hneg, runScript]
    refine iff_of_false ?_ fun h => Int.not_le.mpr hneg h.2
    rintro ⟨t, ht, _⟩
    cases ht
  · simp only [if_neg hneg, if_true]
    constructor
    · rintro ⟨t, ht, hlog⟩
      cases ht
      have hlast := List.append_cancel_left hlog
      cases hlast
      exact ⟨rfl, Int.not_lt.mp hneg⟩
    · rintro ⟨rfl, _⟩
      exact ⟨_, rfl, rfl⟩

end Delay

/-! ## The two widths -/

section Widths

variable (f : DigitField)

theorem narrow_eq (v : Int) : narrow v = if v % 2 ^ 32 < 2 ^ 31 then v % 2 ^ 32 else v % 2 ^ 32 - 2 ^ 32 := by
  rw [narrow, Int.bmod_def]
  rfl

/-- With 32 bits a number that is too large is `INT_MAX`. -/
theorem delay_32 : f.delay 32 = min (f.value : Int) intMax := by
  have hpos : (0 : Int) ≤ f.value := Int.natCast_nonneg _
  have hsat : saturate 32 f.value = min (f.value : Int) intMax := by
    unfold saturate intMax
    omega
  rw [DigitField.delay, hsat, narrow_eq]
  unfold intMax
  omega

/-- With 64 bits it is its lower half, or -1 if it does not fit the `long`. -/
theorem delay_64 : f.delay 64 = if f.value < 2 ^ 63 then narrow f.value else -1 := by
  have hpos : (0 : Int) ≤ f.value := Int.natCast_nonneg _
  unfold DigitField.delay
  split
  · rename_i hlt
    have hsat : saturate 64 f.value = f.value := by
      unfold saturate
      omega
    rw [hsat]
  · rename_i hge
    have hsat : saturate 64 f.value = 2 ^ 63 - 1 := by
      unfold saturate
      omega
    rw [hsat]
    rfl

end Widths

/-- With 64 bits a number that is not replaced is the delay, or `INT_MAX` is, or it is rejected and does not fit. -/
theorem delay_64_cases {f : DigitField} (h : ¬f.Replaced) : f.delay 64 = f.value ∧ f.delay 64 ≤ intMax ∨
    f.delay 64 = intMax ∧ intMax ≤ f.value ∨ f.delay 64 < 0 ∧ intMax < f.value := by
  have hpos : (0 : Int) ≤ f.value := Int.natCast_nonneg _
  unfold DigitField.Replaced at h
  rw [delay_64, narrow_eq]
  unfold intMax
  split
  · omega
  · omega

/-- **A delay is replaced exactly in the fields with a number of more than 32 bits whose lower half is a delay.** -/
theorem numberKept_iff (f : DigitField) : NumberKept f ↔ ¬f.Replaced := by
  constructor
  · rintro ⟨hnumber, _⟩ ⟨hlarge, hfits, hlower⟩
    obtain ⟨d, t, hread, hcases⟩ := hnumber 64 (Or.inr rfl)
    obtain ⟨curr, hread'⟩ := f.getNextInt 64
    rw [hread'] at hread
    cases hread
    rw [delay_64, if_pos hfits, narrow_eq] at hcases
    unfold intMax at hcases
    omega
  · intro h
    constructor
    · rintro bits (rfl | rfl)
      · obtain ⟨curr, hread⟩ := f.getNextInt 32
        refine ⟨_, _, hread, ?_⟩
        rw [delay_32]
        omega
      · obtain ⟨curr, hread⟩ := f.getNextInt 64
        refine ⟨_, _, hread, ?_⟩
        have hcases := delay_64_cases h
        omega
    · intro cfg cfg' d d' hbits hbits' hd hd'
      obtain ⟨rfl, _⟩ := schedules_iff.mp hd
      obtain ⟨rfl, hpos⟩ := schedules_iff.mp hd'
      rw [hbits'] at hpos ⊢
      rw [hbits, delay_32]
      have hcases := delay_64_cases h
      omega

/-- The pattern `"4294967297"`, just loaded. -/
def twoPow32Plus1 : DigitField where
  blinky := Blinky.fresh.load [52, 50, 57, 52, 57, 54, 55, 50, 57, 55]
  pattern := [52, 50, 57, 52, 57, 54, 55, 50, 57, 55, 0]
  curr := 0
  digits := [52, 50, 57, 52, 57, 54, 55, 50, 57, 55]
  hasPattern := rfl
  hasCursor := rfl
  isNumber := List.all_eq_true.mp rfl
  ends := Or.inr ⟨by decide, [], rfl⟩

/-- With 64 bits its delay is one millisecond. -/
theorem twoPow32Plus1_replaced : (∃ t, twoPow32Plus1.blinky.getNextInt 64 = .ok (1, t)) ∧
    (∃ t, twoPow32Plus1.blinky.getNextInt 32 = .ok (intMax, t)) ∧ ¬NumberKept twoPow32Plus1 := by
  have hread : ∃ t, twoPow32Plus1.blinky.getNextInt 64 = .ok (1, t) := ⟨_, rfl⟩
  refine ⟨hread, ⟨_, rfl⟩, fun h => ?_⟩
  obtain ⟨d, t, hread', hcases⟩ := h.number 64 (Or.inr rfl)
  obtain ⟨u, hone⟩ := hread
  rw [hone] at hread'
  cases hread'
  exact absurd hcases (by decide)

end PelionClient.Blink
