import PelionClient.Lib.Run
import PelionClient.Update.Progress

/-!
# Reports one after another

Each report draws a whole line, and the spinner in it stands in the cell that the percentage has come to. Its phase is kept
in static variables from one report to the next, across downloads. It counts the reports before this one that had the spinner
in the same cell, without one in another cell between (`turns`), and starts a phase further in the first cell before any
other has been reached. So every line of every session is known (`session_line`).
-/

namespace PelionClient.Update

open Lib

/-- A report with something to be received. -/
abbrev Sized := { r : Report // r.total ≠ 0 }

/-- The cell that the percentage has come to; 50 is behind the bar. -/
def Report.cell (r : Report) : Nat := r.percent.toNat / 2

/-- What the spinner looks like in phase `n`. -/
def phase (n : Nat) : Char :=
  match n % 4 with
  | 0 => '/'
  | 1 => '-'
  | 2 => '\\'
  | _ => '|'

/-- The bar with the spinner in the cell `k`. -/
def barWith (k : Nat) (spinner : Char) : List Char :=
  List.replicate (min 50 k) '+' ++ if k < 50 then spinner :: List.replicate (49 - k) ' ' else []

/-- The cells that the spinner has been in. -/
def cellsOf (rs : List Sized) : List Nat := (rs.map fun r => r.val.cell).filter (· < 50)

/-- How often the spinner has been in the cell `k` since it was in another; in the first cell once more, if it has been in no
other. -/
def turns (cells : List Nat) (k : Nat) : Nat :=
  (cells.reverse.takeWhile (· = k)).length + if k = 0 ∧ cells.all (· = 0) then 1 else 0

example : turns [0, 3, 3] 3 = 2 ∧ turns [0, 3, 3] 0 = 0 ∧ turns [0, 0] 0 = 3 := by decide

theorem turns_snoc (cells : List Nat) (j k : Nat) : turns (cells ++ [j]) k = if j = k then turns cells k + 1 else 0 := by
  unfold turns
  rw [List.reverse_append, List.reverse_singleton, List.singleton_append]
  by_cases hjk : j = k
  · subst hjk
    rw [List.takeWhile_cons_of_pos (by simp), if_pos rfl, List.length_cons]
    by_cases hzero : j = 0
    · simp only [hzero, List.all_append, List.all_cons, List.all_nil, decide_true, Bool.and_true, true_and]
      omega
    · simp only [hzero, false_and, if_false]
  · rw [List.takeWhile_cons_of_neg (by simpa using hjk), if_neg hjk, if_neg]
    · rfl
    · rintro ⟨rfl, hall⟩
      rw [List.all_append, Bool.and_eq_true] at hall
      exact hjk (by simpa using hall.2)

/-! ## One line -/

section Line

variable {percent : UInt8} {s : Spinner}

theorem cell_eq_phase (s : Spinner) : s.cell = phase s.counter.toNat := by
  have hmod : (s.counter % 4).toNat = s.counter.toNat % 4 := UInt8.toNat_mod s.counter 4
  unfold Spinner.cell phase
  generalize (s.counter % 4).toNat = n at hmod ⊢
  subst hmod
  rfl

/-- **The loop draws the bar**, and turns the spinner where it stands in the bar. -/
theorem drawCells_eq (percent : UInt8) (s : Spinner) {n : Nat} (hn : n ≤ 50) :
    drawCells percent n s =
      (if percent.toNat / 2 < n then s.turn (percent / 2) else s,
        List.replicate (min n (percent.toNat / 2)) '+' ++
          if percent.toNat / 2 < n then
            (s.turn (percent / 2)).cell :: List.replicate (n - 1 - percent.toNat / 2) ' '
          else []) := by
  have hhalf : (percent / 2).toNat = percent.toNat / 2 := by
    rw [UInt8.toNat_div]
    rfl
  induction n with
  | zero => simp [drawCells]
  | succ n ih =>
    have hindex : (UInt8.ofNat n).toNat = n := by
      rw [UInt8.toNat_ofNat']
      exact Nat.mod_eq_of_lt (by omega)
    rw [drawCells_succ, ih (Nat.le_of_succ_le hn), drawCell]
    rcases Nat.lt_trichotomy n (percent.toNat / 2) with hlt | heq | hgt
    · -- the cell is filled, and the spinner comes later
      have hfill : UInt8.ofNat n < percent / 2 := by
        rw [UInt8.lt_iff_toNat_lt, hindex, hhalf]
        exact hlt
      have hbefore : ¬percent.toNat / 2 < n := by omega
      have hafter : ¬percent.toNat / 2 < n + 1 := by omega
      simp only [if_pos hfill, if_neg hbefore, if_neg hafter, List.append_nil]
      rw [Nat.min_eq_left (by omega), Nat.min_eq_left (by omega), List.replicate_succ']
    · -- the spinner stands here
      have hhere : UInt8.ofNat n = percent / 2 := by
        rw [← UInt8.toNat_inj, hindex, hhalf]
        exact heq
      have hfull : ¬UInt8.ofNat n < percent / 2 := by
        rw [hhere]
        exact UInt8.lt_irrefl _
      have hbefore : ¬percent.toNat / 2 < n := by omega
      have hafter : percent.toNat / 2 < n + 1 := by omega
      have hrest : n + 1 - 1 - percent.toNat / 2 = 0 := by omega
      simp only [hhere, if_neg (hhere ▸ hfull), if_true, if_neg hbefore, if_pos hafter, List.append_nil, hrest]
      rw [Nat.min_eq_left (by omega), Nat.min_eq_right (by omega), ← heq]
      rfl
    · -- the spinner has been drawn, and the cell is empty
      have hbehind : ¬UInt8.ofNat n < percent / 2 ∧ ¬UInt8.ofNat n = percent / 2 := by
        rw [UInt8.lt_iff_toNat_lt, ← UInt8.toNat_inj, hindex, hhalf]
        omega
      have hafter : percent.toNat / 2 < n + 1 := by omega
      have hrest : n + 1 - 1 - percent.toNat / 2 = n - 1 - percent.toNat / 2 + 1 := by omega
      simp only [if_neg hbehind.1, if_neg hbehind.2, if_pos hgt, if_pos hafter, hrest]
      rw [Nat.min_eq_right (by omega), Nat.min_eq_right (by omega), List.replicate_succ', List.append_assoc]
      rfl

theorem drawBar_eq (percent : UInt8) (s : Spinner) :
    drawBar percent s = (if percent.toNat / 2 < 50 then s.turn (percent / 2) else s,
      barWith (percent.toNat / 2) (phase (s.turn (percent / 2)).counter.toNat)) := by
  rw [drawBar, drawCells_eq percent s (Nat.le_refl 50), cell_eq_phase]
  rfl

end Line

/-! ## A session -/

/-- A report is shown. -/
def sessionStep (s : Spinner) (r : Sized) : Option Spinner :=
  (updateProgress false r.val.progress r.val.total s).toOption.map Prod.fst

/-- In whatever cell the spinner is next, it is in the phase of that cell. -/
def Spun (cells : List Nat) (s : Spinner) : Prop :=
  ∀ k < 50, (s.turn (UInt8.ofNat k)).counter.toNat = turns cells k % 256

section Session

variable {cells : List Nat} {j k : Nat} {s : Spinner}

theorem ofNat_inj_of_lt (hj : j < 50) (hk : k < 50) : UInt8.ofNat j = UInt8.ofNat k ↔ j = k := by
  rw [← UInt8.toNat_inj, UInt8.toNat_ofNat', UInt8.toNat_ofNat', Nat.mod_eq_of_lt (by omega), Nat.mod_eq_of_lt (by omega)]

theorem oldMax_turn (s : Spinner) (index : UInt8) : (s.turn index).oldMax = index := by
  unfold Spinner.turn
  split
  · rename_i h
    exact h.symm
  · rfl

theorem spun_init : Spun [] .init := by
  intro k hk
  by_cases hzero : k = 0
  · subst hzero
    rfl
  · have hne : UInt8.ofNat k ≠ Spinner.init.oldMax := fun h => hzero ((ofNat_inj_of_lt hk (by omega)).mp h)
    rw [Spinner.turn, if_neg hne]
    simp [turns, hzero]

/-- **The spinner turns** where it stays, and starts again where it comes to. -/
theorem spun_turn (h : Spun cells s) (hj : j < 50) : Spun (cells ++ [j]) (s.turn (UInt8.ofNat j)) := by
  intro k hk
  have hturn : (s.turn (UInt8.ofNat j)).turn (UInt8.ofNat k) =
      if k = j then ⟨UInt8.ofNat j, (s.turn (UInt8.ofNat j)).counter + 1⟩ else ⟨UInt8.ofNat k, 0⟩ := by
    rw [Spinner.turn, oldMax_turn]
    simp only [ofNat_inj_of_lt hk hj]
  rw [hturn, turns_snoc]
  by_cases hkj : k = j
  · subst hkj
    have hone : (1 : UInt8).toNat = 1 := rfl
    rw [if_pos rfl, if_pos rfl, UInt8.toNat_add, h k hk, hone]
    omega
  · rw [if_neg hkj, if_neg (Ne.symm hkj)]
    rfl

theorem sessionStep_eq (s : Spinner) (r : Sized) : sessionStep s r = some (drawBar r.val.percent s).1 := by
  rw [sessionStep, updateProgress_of_ne r.property]
  rfl

theorem percent_half (r : Report) : r.percent / 2 = UInt8.ofNat r.cell := by
  have hlt := r.percent.toNat_lt
  have htwo : (2 : UInt8).toNat = 2 := rfl
  rw [← UInt8.toNat_inj, UInt8.toNat_div, UInt8.toNat_ofNat', htwo, Report.cell]
  omega

theorem cellsOf_snoc (rs : List Sized) (r : Sized) :
    cellsOf (rs ++ [r]) = cellsOf rs ++ if r.val.cell < 50 then [r.val.cell] else [] := by
  unfold cellsOf
  rw [List.map_append, List.filter_append]
  by_cases h : r.val.cell < 50 <;> simp [h]

theorem spun_step {rs : List Sized} (h : Spun (cellsOf rs) s) (r : Sized) :
    ∃ t, sessionStep s r = some t ∧ Spun (cellsOf (rs ++ [r])) t := by
  refine ⟨_, sessionStep_eq s r, ?_⟩
  rw [drawBar_eq, cellsOf_snoc, percent_half]
  show Spun _ (if r.val.cell < 50 then _ else _)
  split
  · rename_i hcell
    exact spun_turn h hcell
  · rw [List.append_nil]
    exact h

/-- **Every line of every session**: after any reports, of one download or of several, the next one prints its percentage, the
bar filled up to its cell, and the spinner there in the phase that it has come to. -/
theorem session_line (rs : List Sized) (r : Sized) : ∃ s t, run sessionStep .init rs = some s ∧
    updateProgress false r.val.progress r.val.total s = .ok (t,
      barLine (barWith r.val.cell (phase (turns (cellsOf rs) r.val.cell))) r.val.percent ++
        completed r.val.progress r.val.total) := by
  obtain ⟨s, hs, hspun⟩ := run_progress (fun rs => Spun (cellsOf rs)) spun_init (fun _ _ r h => spun_step h r) rs
  refine ⟨s, (drawBar r.val.percent s).1, hs, ?_⟩
  rw [updateProgress_of_ne r.property, drawBar_eq]
  have hbar : barWith (r.val.percent.toNat / 2) (phase (s.turn (r.val.percent / 2)).counter.toNat) =
      barWith r.val.cell (phase (turns (cellsOf rs) r.val.cell)) := by
    by_cases hcell : r.val.cell < 50
    · have hphase : ∀ n, phase (n % 256) = phase n := fun n => by
        unfold phase
        rw [Nat.mod_mod_of_dvd n (by decide)]
      rw [percent_half, hspun r.val.cell hcell, hphase]
      rfl
    · have hfull : ∀ c, barWith r.val.cell c = List.replicate (min 50 r.val.cell) '+' := fun c => by
        rw [barWith, if_neg hcell, List.append_nil]
      rw [hfull]
      exact hfull _
  rw [if_neg (by decide), hbar]

end Session

end PelionClient.Update
