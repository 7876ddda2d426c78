import Mathlib.Data.List.Basic
import Mathlib.Algebra.Order.Ring.Nat

/-!
# Showing the progress of an update (`update_ui_example.cpp`)

`update_progress` is called by the update client with the bytes received and the bytes to be received. It computes the
percentage in 64 bits, narrows it to a byte, and draws a bar of 50 cells with a spinner in front of the filled part, whose
place and phase are static variables.

For every report with something to be received the percentage is exact (`Report.percent_toNat`), and the bar is right whatever the
statics are (`drawn_drawBar`). With nothing to be received the function divides by 0. So it is well defined exactly on the
other reports (`wellDefined_iff`).
-/

namespace PelionClient.Update

/-- What has no meaning in C. -/
inductive Fault
  | divisionByZero
deriving DecidableEq, Repr

/-- The static variables of `update_progress`. -/
structure Spinner where
  oldMax : UInt8
  counter : UInt8
deriving DecidableEq, Repr

/-- Their initial values. -/
def Spinner.init : Spinner := ⟨0, 0⟩

/-! ## The function -/

/-- `(uint8_t)((uint64_t)progress * 100 / total)` -/
def percentOf (progress total : UInt32) : Except Fault UInt8 :=
  if total = 0 then .error .divisionByZero else .ok (progress.toUInt64 * 100 / total.toUInt64).toUInt8

/-- The spinner comes to the cell `index`. -/
def Spinner.turn (s : Spinner) (index : UInt8) : Spinner :=
  if index = s.oldMax then { s with counter := s.counter + 1 } else ⟨index, 0⟩

/-- What it looks like. -/
def Spinner.cell (s : Spinner) : Char :=
  match (s.counter % 4).toNat with
  | 0 => '/'
  | 1 => '-'
  | 2 => '\\'
  | _ => '|'

/-- The cell `index`, printed after those before it. -/
def drawCell (percent : UInt8) (p : Spinner × List Char) (index : UInt8) : Spinner × List Char :=
  if index < percent / 2 then (p.1, p.2 ++ ['+'])
  else if index = percent / 2 then (p.1.turn index, p.2 ++ [(p.1.turn index).cell])
  else (p.1, p.2 ++ [' '])

/-- The first `n` iterations of the loop. -/
def drawCells (percent : UInt8) (n : Nat) (s : Spinner) : Spinner × List Char :=
  (List.range n).foldl (fun p index => drawCell percent p (UInt8.ofNat index)) (s, [])

/-- The loop. -/
def drawBar (percent : UInt8) (s : Spinner) : Spinner × List Char := drawCells percent 50 s

/-- The percentage as `%d` prints it. -/
def shown (percent : UInt8) : List Char := Nat.toDigits 10 percent.toNat

/-- The line with the bar. -/
def barLine (cells : List Char) (percent : UInt8) : List Char :=
  "\rDownloading: [".toList ++ cells ++ "] ".toList ++ shown percent ++ " %".toList

/-- The line without it. -/
def traceLine (percent : UInt8) : List Char := "Downloading: ".toList ++ shown percent ++ " %\r\n".toList

/-- What is printed at the end of the download. -/
def completed (progress total : UInt32) : List Char :=
  if progress = total then "\r\nDownload completed\r\n".toList else []

/-- `update_progress`: the statics after it and the text that it prints. The bar is drawn if no trace is compiled in. -/
def updateProgress (trace : Bool) (progress total : UInt32) (s : Spinner) : Except Fault (Spinner × List Char) := do
  let percent ← percentOf progress total
  if trace then
    return (s, traceLine percent ++ completed progress total)
  else
    let (s, cells) := drawBar percent s
    return (s, barLine cells percent ++ completed progress total)

/-! ## What it should do -/

/-- What the update client reports: not more than there is. -/
structure Report where
  progress : UInt32
  total : UInt32
  le : progress ≤ total

/-- The percentage of a report, and what is shown for it. -/
structure ShowsProgress (r : Report) (percent : UInt8) : Prop where
  /-- The product is the one of the numbers. -/
  product : (r.progress.toUInt64 * 100).toNat = r.progress.toNat * 100
  /-- The narrowing keeps the quotient. -/
  narrowing : percent.toNat = (r.progress.toUInt64 * 100 / r.total.toUInt64).toNat
  quotient : percent.toNat = r.progress.toNat * 100 / r.total.toNat
  range : percent.toNat ≤ 100
  monotone : ∀ r' : Report, r'.total = r.total → r.progress ≤ r'.progress →
    ∃ percent', percentOf r'.progress r'.total = .ok percent' ∧ percent ≤ percent'
  full : percent = 100 → r.progress = r.total
  /-- Whatever the statics are, 50 cells are drawn, half of the percentage of them filled. -/
  bar : ∀ s, ∃ t cells, updateProgress false r.progress r.total s =
      .ok (t, barLine cells percent ++ completed r.progress r.total) ∧
    cells.length = 50 ∧ cells.count '+' = percent.toNat / 2
  trace : ∀ s, updateProgress true r.progress r.total s = .ok (s, traceLine percent ++ completed r.progress r.total)

/-- There is no division by zero, and all is as it should be. -/
def WellDefined (r : Report) : Prop := ∃ percent, percentOf r.progress r.total = .ok percent ∧ ShowsProgress r percent

/-! ## The percentage -/

/-- The percentage of a report with something to be received. -/
def Report.percent (r : Report) : UInt8 := (r.progress.toUInt64 * 100 / r.total.toUInt64).toUInt8

section Percent

variable {r : Report}

theorem percentOf_of_ne (h : r.total ≠ 0) : percentOf r.progress r.total = .ok r.percent := if_neg h

theorem product_toNat (progress : UInt32) : (progress.toUInt64 * 100).toNat = progress.toNat * 100 := by
  have hlt := progress.toNat_lt
  have hhundred : (100 : UInt64).toNat = 100 := rfl
  rw [UInt64.toNat_mul, UInt32.toNat_toUInt64, hhundred]
  exact Nat.mod_eq_of_lt (by omega)

theorem quotient_toNat (progress total : UInt32) :
    (progress.toUInt64 * 100 / total.toUInt64).toNat = progress.toNat * 100 / total.toNat := by
  rw [UInt64.toNat_div, product_toNat, UInt32.toNat_toUInt64]

theorem Report.toNat_le (r : Report) : r.progress.toNat ≤ r.total.toNat := UInt32.le_iff_toNat_le.mp r.le

theorem Report.quotient_le (r : Report) : r.progress.toNat * 100 / r.total.toNat ≤ 100 := by
  apply Nat.div_le_of_le_mul
  exact Nat.mul_le_mul_right 100 r.toNat_le

/-- **The percentage is exact.** -/
theorem Report.percent_toNat (r : Report) : r.percent.toNat = r.progress.toNat * 100 / r.total.toNat := by
  have hle := r.quotient_le
  rw [Report.percent, UInt64.toNat_toUInt8, quotient_toNat]
  exact Nat.mod_eq_of_lt (by omega)

/-- It does not decrease as more is received. -/
theorem percent_mono {r' : Report} (htotal : r'.total = r.total) (h : r.progress ≤ r'.progress) :
    r.percent ≤ r'.percent := by
  rw [UInt8.le_iff_toNat_le, r.percent_toNat, r'.percent_toNat, htotal]
  apply Nat.div_le_div_right
  exact Nat.mul_le_mul_right 100 (UInt32.le_iff_toNat_le.mp h)

/-- It is 100 only if all is received. -/
theorem eq_of_percent (h : r.total ≠ 0) (hfull : r.percent = 100) : r.progress = r.total := by
  have hpos : 0 < r.total.toNat := by
    apply Nat.pos_of_ne_zero
    intro hzero
    exact h (UInt32.toNat_inj.mp hzero)
  have hquotient : r.progress.toNat * 100 / r.total.toNat = 100 := by
    rw [← r.percent_toNat, hfull]
    rfl
  have hmul : 100 * r.total.toNat ≤ r.progress.toNat * 100 :=
    (Nat.le_div_iff_mul_le hpos).mp (Nat.le_of_eq hquotient.symm)
  have hle := r.toNat_le
  exact UInt32.toNat_inj.mp (by omega)

end Percent

/-! ## The bar -/

/-- The first cells are filled as far as the percentage goes, and no cell is filled after them. -/
structure Drawn (percent : UInt8) (n : Nat) (cells : List Char) : Prop where
  length : cells.length = n
  filled : ∃ rest, cells = List.replicate (min n (percent.toNat / 2)) '+' ++ rest ∧ '+' ∉ rest

section Bar

variable {percent : UInt8} {n : Nat} {s : Spinner}

theorem Spinner.cell_ne (s : Spinner) : s.cell ≠ '+' := by
  unfold Spinner.cell
  split <;> decide

theorem drawCells_succ (percent : UInt8) (n : Nat) (s : Spinner) :
    drawCells percent (n + 1) s = drawCell percent (drawCells percent n s) (UInt8.ofNat n) := by
  rw [drawCells, List.range_succ, List.foldl_append]
  rfl

/-- A cell is filled if it is in the first half of the percentage. -/
theorem drawCell_cases (percent : UInt8) (p : Spinner × List Char) (index : UInt8) :
    ∃ c, (drawCell percent p index).2 = p.2 ++ [c] ∧ (c = '+' ↔ index < percent / 2) := by
  unfold drawCell
  split
  · rename_i hlt
    exact ⟨'+', rfl, iff_of_true rfl hlt⟩
  rename_i hge
  split
  · exact ⟨_, rfl, iff_of_false (Spinner.cell_ne _) hge⟩
  · exact ⟨' ', rfl, iff_of_false (by decide) hge⟩

/-- **The cells drawn so far**, by induction on their number. -/
theorem drawn_drawCells (percent : UInt8) (s : Spinner) (hn : n ≤ 50) : Drawn percent n (drawCells percent n s).2 := by
  induction n with
  | zero => exact ⟨rfl, [], by simp [drawCells], by simp⟩
  | succ n ih =>
    obtain ⟨hlen, rest, hcells, hrest⟩ := ih (Nat.le_of_succ_le hn)
    obtain ⟨c, hc, hfilled⟩ := drawCell_cases percent (drawCells percent n s) (UInt8.ofNat n)
    have hindex : UInt8.ofNat n < percent / 2 ↔ n < percent.toNat / 2 := by
      have htwo : (2 : UInt8).toNat = 2 := rfl
      rw [UInt8.lt_iff_toNat_lt, UInt8.toNat_div, htwo, UInt8.toNat_ofNat', Nat.mod_eq_of_lt (by omega)]
    rw [hindex] at hfilled
    rw [drawCells_succ, hc]
    refine ⟨by simp [hlen], ?_⟩
    rcases Nat.lt_or_ge n (percent.toNat / 2) with hlt | hge
    · -- all the cells so far are filled
      have hmin : min n (percent.toNat / 2) = n := Nat.min_eq_left (Nat.le_of_lt hlt)
      have hnil : rest = [] := by
        rw [hcells, hmin, List.length_append, List.length_replicate] at hlen
        exact List.eq_nil_of_length_eq_zero (by omega)
      refine ⟨[], ?_, by simp⟩
      rw [hcells, hmin, hnil, hfilled.mpr hlt, Nat.min_eq_left hlt, List.replicate_succ']
      simp
    · have hne : c ≠ '+' := fun h => Nat.not_lt.mpr hge (hfilled.mp h)
      refine ⟨rest ++ [c], ?_, ?_⟩
      · rw [hcells, Nat.min_eq_right hge, Nat.min_eq_right (Nat.le_succ_of_le hge), List.append_assoc]
      · simp [hrest, Ne.symm hne]

theorem drawn_drawBar (percent : UInt8) (s : Spinner) : Drawn percent 50 (drawBar percent s).2 :=
  drawn_drawCells percent s (Nat.le_refl 50)

theorem Drawn.count {cells : List Char} (h : Drawn percent n cells) : cells.count '+' = min n (percent.toNat / 2) := by
  obtain ⟨rest, rfl, hrest⟩ := h.filled
  rw [List.count_append, List.count_replicate_self, List.count_eq_zero_of_not_mem hrest, Nat.add_zero]

end Bar

/-! ## Reports -/

section Reports

variable {r : Report}

theorem updateProgress_of_ne (h : r.total ≠ 0) (trace : Bool) (s : Spinner) :
    updateProgress trace r.progress r.total s = .ok (if trace then
      (s, traceLine r.percent ++ completed r.progress r.total)
    else
      ((drawBar r.percent s).1, barLine (drawBar r.percent s).2 r.percent ++ completed r.progress r.total)) := by
  rw [updateProgress, percentOf_of_ne h]
  cases trace <;> rfl

theorem showsProgress (h : r.total ≠ 0) : ShowsProgress r r.percent where
  product := product_toNat _
  narrowing := by rw [r.percent_toNat, quotient_toNat]
  quotient := r.percent_toNat
  range := by
    rw [r.percent_toNat]
    exact r.quotient_le
  monotone := fun r' htotal hmore => ⟨r'.percent, percentOf_of_ne (htotal ▸ h), percent_mono htotal hmore⟩
  full := eq_of_percent h
  bar := by
    intro s
    have hdrawn := drawn_drawBar r.percent s
    refine ⟨(drawBar r.percent s).1, _, updateProgress_of_ne h false s, hdrawn.length, ?_⟩
    have hle := r.quotient_le
    rw [hdrawn.count, r.percent_toNat]
    omega
  trace := updateProgress_of_ne h true

/-- **The progress is well defined exactly in the reports with something to be received.** -/
theorem wellDefined_iff (r : Report) : WellDefined r ↔ r.total ≠ 0 := by
  constructor
  · rintro ⟨percent, hok, _⟩ hzero
    rw [percentOf, if_pos hzero] at hok
    cases hok
  · exact fun h => ⟨_, percentOf_of_ne h, showsProgress h⟩

end Reports

/-- Nothing of nothing is received: the function divides by zero. -/
theorem zeroTotal_divides : (∀ trace s, updateProgress trace 0 0 s = .error .divisionByZero) ∧
    ¬WellDefined ⟨0, 0, UInt32.le_refl 0⟩ := by
  refine ⟨fun _ _ => rfl, ?_⟩
  rintro ⟨percent, hok, _⟩
  cases hok

end PelionClient.Update
