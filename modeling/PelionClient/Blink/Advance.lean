import PelionClient.Blink.Fields
import PelionClient.Blink.Machine
import PelionClient.Lib.Calls

/-!
# How `_curr_pattern` moves

Between `_pattern` and the first NUL of the copied buffer, `get_next_int` moves the cursor no further than that NUL
(`nextField_le`), and on a result that is not negative it does move it (`nextField_pos`); at the NUL the result is -1 and
the cursor stays (`nextField_nul`). So a copied pattern can be read any number of times, and comes to an end after at most
as many delays as it has bytes before the NUL (`cursor_advances`).
-/

namespace PelionClient.Blink

open Lib

/-- Where the first NUL of the copied buffer is. -/
def firstNul (pattern : List UInt8) : Nat := (pattern ++ [0]).idxOf 0

/-- A result that `run_step` plays. -/
def isDelay (d : Int) : Bool := decide (0 ≤ d)

/-- A call of `get_next_int`. -/
def readStep (bits : Nat) (s : Blinky) : Option (Int × Blinky) := (s.getNextInt bits).toOption

/-- The cursor is in the copied buffer, at its first NUL or before it. -/
structure InBuffer (pattern : List UInt8) (s : Blinky) : Prop where
  copied : s.pattern = some (pattern ++ [0])
  cursor : ∃ curr ≤ firstNul pattern, s.currPattern = some curr

/-- What the next `get_next_int` does to the cursor. -/
structure Advances (bits : Nat) (pattern : List UInt8) (s t : Blinky) (curr curr' : Nat) (delay : Int) : Prop where
  before : s.currPattern = some curr
  read : s.getNextInt bits = .ok (delay, t)
  after : t = { s with currPattern := some curr' }
  inBuffer : curr ≤ curr' ∧ curr' ≤ firstNul pattern
  forward : 0 ≤ delay → curr < curr'
  atNul : curr = firstNul pattern → delay = -1 ∧ curr' = curr

/-! ## One field -/

section Field

variable {bits : Nat} {f : List UInt8}

/-- The end of the field is at the NUL or before it. -/
theorem nextField_le (bits : Nat) (f x : List UInt8) : (nextField bits (f ++ 0 :: x)).2 ≤ f.length := by
  have hle := strtol_le bits f
  simp only [nextField, strtol_append_stop bits stops_nul]
  split
  · split
    · -- the `:` that is skipped is not the NUL
      rename_i hcolon
      show (strtol bits f).2 + 1 ≤ f.length
      rw [List.drop_append_of_le_length hle] at hcolon
      have hne : (strtol bits f).2 ≠ f.length := by
        intro hend
        rw [hend, List.drop_length] at hcolon
        exact absurd hcolon (show ¬(0 : UInt8) = 58 by decide)
      omega
    · split
      · exact hle
      · exact hle
  · exact hle

/-- A delay takes at least one byte. -/
theorem nextField_pos (h : 0 ≤ (nextField bits f).1) : 0 < (nextField bits f).2 := by
  simp only [nextField] at h ⊢
  split at h
  · rename_i hstart
    rw [if_pos hstart]
    split at h
    · rename_i hcolon
      rw [if_pos hcolon]
      exact Nat.succ_pos _
    · rename_i hcolon
      rw [if_neg hcolon]
      split at h
      · rename_i hend
        rw [if_pos hend]
        -- the NUL is not where the field starts
        apply Nat.pos_of_ne_zero
        intro hzero
        rw [hzero] at hend
        exact hstart hend
      · exact absurd h (show ¬(0 : Int) ≤ -1 by decide)
  · exact absurd h (show ¬(0 : Int) ≤ -1 by decide)

theorem nextField_nul (bits : Nat) (x : List UInt8) : nextField bits (0 :: x) = (-1, 0) := by
  have hconv : strtol bits (0 :: x) = (0, 0) := strtol_append_stop bits stops_nul [] x
  simp only [nextField, hconv]
  rfl

end Field

/-! ## One call -/

/-- What is left of the buffer, up to the NUL and after it. -/
theorem drop_buffer {pattern : List UInt8} {curr : Nat} (h : curr ≤ firstNul pattern) :
    ∃ f x, (pattern ++ [0]).drop curr = f ++ 0 :: x ∧ curr + f.length = firstNul pattern := by
  have hmem : 0 ∈ pattern ++ [0] := List.mem_append_right _ List.mem_cons_self
  obtain ⟨g, x, hsplit, hg⟩ := List.eq_append_cons_of_mem hmem
  have hlen : firstNul pattern = g.length := by
    rw [firstNul, hsplit, List.idxOf_append_of_notMem hg, List.idxOf_cons_self]
    rfl
  rw [hlen] at h ⊢
  refine ⟨g.drop curr, x, ?_, ?_⟩
  · rw [hsplit, List.drop_append_of_le_length h]
  · rw [List.length_drop]
    omega

section Calls

variable {bits : Nat} {pattern : List UInt8} {s : Blinky}

/-- **`get_next_int` in the buffer** advances. -/
theorem InBuffer.advances (bits : Nat) (h : InBuffer pattern s) :
    ∃ t curr curr' delay, Advances bits pattern s t curr curr' delay ∧ InBuffer pattern t := by
  obtain ⟨curr, hcurr, hcursor⟩ := h.cursor
  obtain ⟨f, x, hdrop, hlen⟩ := drop_buffer hcurr
  have hle := nextField_le bits f x
  have hmem : 0 ∈ f ++ 0 :: x := List.mem_append_right _ List.mem_cons_self
  have hread : s.getNextInt bits = .ok ((nextField bits (f ++ 0 :: x)).1,
      { s with currPattern := some (curr + (nextField bits (f ++ 0 :: x)).2) }) := by
    simp only [Blinky.getNextInt, hcursor, h.copied, hdrop, if_pos hmem]
  refine ⟨_, curr, _, _, ⟨hcursor, hread, rfl, ⟨by omega, by omega⟩, ?_, ?_⟩, h.copied, _, by omega, rfl⟩
  · intro hdelay
    have hpos := nextField_pos hdelay
    omega
  · intro hend
    obtain rfl : f = [] := List.eq_nil_of_length_eq_zero (by omega)
    rw [List.nil_append, nextField_nul]
    exact ⟨rfl, rfl⟩

theorem Advances.readStep {t : Blinky} {curr curr' : Nat} {delay : Int} (h : Advances bits pattern s t curr curr' delay) :
    readStep bits s = some (delay, t) := toOption_eq_some_iff.mpr h.read

theorem readStep_inBuffer (h : InBuffer pattern s) : ∃ delay t, readStep bits s = some (delay, t) ∧ InBuffer pattern t := by
  obtain ⟨t, _, _, delay, hadv, ht⟩ := h.advances bits
  exact ⟨delay, t, hadv.readStep, ht⟩

/-- How far the cursor has come. -/
def Blinky.cursor (s : Blinky) : Nat := s.currPattern.getD 0

theorem InBuffer.cursor_le (h : InBuffer pattern s) : s.cursor ≤ firstNul pattern := by
  obtain ⟨curr, hle, hcurr⟩ := h.cursor
  rwa [Blinky.cursor, hcurr]

/-- A call moves the cursor, if its result is a delay. -/
theorem readStep_moves (h : InBuffer pattern s) {delay : Int} {t : Blinky} (hread : readStep bits s = some (delay, t)) :
    InBuffer pattern t ∧ s.cursor ≤ t.cursor ∧ (0 ≤ delay → s.cursor < t.cursor) := by
  obtain ⟨t', curr, curr', delay', hadv, ht⟩ := h.advances bits
  rw [hadv.readStep] at hread
  cases hread
  have hbefore : s.cursor = curr := by rw [Blinky.cursor, hadv.before]; rfl
  have hafter : t.cursor = curr' := by rw [Blinky.cursor, hadv.after]; rfl
  rw [hbefore, hafter]
  exact ⟨ht, hadv.inBuffer.1, hadv.forward⟩

theorem inBuffer_load (s : Blinky) (pattern : List UInt8) : InBuffer pattern (s.load pattern) :=
  ⟨rfl, 0, Nat.zero_le _, rfl⟩

/-- After any number of calls the next one advances, and there have been no more delays than bytes. -/
theorem InBuffer.calls_advance (bits : Nat) (h : InBuffer pattern s) (n : Nat) :
    ∃ delays t, calls (readStep bits) n s = some (delays, t) ∧ delays.countP isDelay ≤ firstNul pattern ∧
      ∃ u curr curr' delay, Advances bits pattern t u curr curr' delay := by
  obtain ⟨delays, t, hcalls, ht⟩ := calls_invariant _ (fun _ => readStep_inBuffer) h n
  obtain ⟨u, curr, curr', delay, hadv, _⟩ := ht.advances bits
  refine ⟨delays, t, hcalls, ?_, u, curr, curr', delay, hadv⟩
  have hmoves : ∀ s d t, InBuffer pattern s → readStep bits s = some (d, t) →
      s.cursor + (if isDelay d then 1 else 0) ≤ t.cursor := by
    intro s d t h hread
    obtain ⟨_, hle, hlt⟩ := readStep_moves h hread
    split
    · rename_i hpos
      exact hlt (of_decide_eq_true hpos)
    · exact hle
  have hcount := calls_count _ _ isDelay (fun _ _ _ h hread => (readStep_moves h hread).1) hmoves h hcalls
  have hle := ht.cursor_le
  omega

/-- The delays come to an end, after at most as many calls as there are bytes. -/
theorem InBuffer.calls_end (bits : Nat) (h : InBuffer pattern s) :
    ∃ n ≤ firstNul pattern, ∃ delays t, calls (readStep bits) n s = some (delays, t) ∧ (∀ d ∈ delays, 0 ≤ d) ∧
      ∃ d u, t.getNextInt bits = .ok (d, u) ∧ d < 0 := by
  have hmoves : ∀ s d t, InBuffer pattern s → readStep bits s = some (d, t) → isDelay d = true →
      s.cursor < t.cursor := by
    intro s d t h hread hpos
    exact (readStep_moves h hread).2.2 (of_decide_eq_true hpos)
  obtain ⟨n, hn, delays, t, hcalls, _, hall, d, u, hread, hneg⟩ :=
    calls_until _ _ isDelay (fun _ => readStep_inBuffer) hmoves (fun _ => InBuffer.cursor_le) h
  refine ⟨n, Nat.le_trans hn (Nat.sub_le _ _), delays, t, hcalls, ?_, d, u, toOption_eq_some_iff.mp hread, ?_⟩
  · intro d hd
    exact of_decide_eq_true (hall d hd)
  · exact Int.not_le.mp (of_decide_eq_false hneg)

/-- **Whatever was passed to `start`, the cursor stays in the buffer and advances with every delay**: in every state that
calls of `get_next_int` lead to from the copied pattern, and the delays end after at most as many calls as there are bytes
before the first NUL. -/
theorem cursor_advances (bits : Nat) (s : Blinky) (pattern : List UInt8) :
    (∀ n, ∃ delays t, calls (readStep bits) n (s.load pattern) = some (delays, t) ∧
      delays.countP isDelay ≤ firstNul pattern ∧
      ∃ u curr curr' delay, Advances bits pattern t u curr curr' delay) ∧
    ∃ n ≤ firstNul pattern, ∃ delays t, calls (readStep bits) n (s.load pattern) = some (delays, t) ∧
      (∀ d ∈ delays, 0 ≤ d) ∧ ∃ d u, t.getNextInt bits = .ok (d, u) ∧ d < 0 :=
  ⟨(inBuffer_load s pattern).calls_advance bits, (inBuffer_load s pattern).calls_end bits⟩

end Calls

end PelionClient.Blink
