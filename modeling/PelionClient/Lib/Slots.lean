import Mathlib.Data.Fintype.Card
import Mathlib.Data.Finset.Card

/-!
# Slots named by a list

A table of `n` slots, filled by naming slots one after another. A list names as many slots as it is long exactly when it
repeats none (`card_named`), and `n` names without repetition are all of them (`mem_of_nodup`).

A loop over the slots whose body touches the slot it is at and no other changes each slot it comes to by the body, and
leaves the rest (`foldl_slots`); a counter that the body advances at the slots that meet a condition ends up with their
number (`foldl_slots_count`).
-/

namespace PelionClient.Lib

variable {n : Nat}

/-- Distinct names, counted as slots. -/
theorem card_named (l : List (Fin n)) : (Finset.univ.filter (· ∈ l)).card = l.length ↔ l.Nodup := by
  have hl : Finset.univ.filter (· ∈ l) = l.toFinset := by ext i; simp
  rw [hl]
  exact @Multiset.toFinset_card_eq_card_iff_nodup _ _ (l : Multiset (Fin n))

/-- `n` distinct names are all the slots there are. -/
theorem mem_of_nodup {l : List (Fin n)} (hnd : l.Nodup) (hlen : l.length = n) (i : Fin n) : i ∈ l := by
  have hcard : l.toFinset.card = Fintype.card (Fin n) := by
    rw [List.toFinset_card_of_nodup hnd, hlen, Fintype.card_fin]
  have huniv := (Finset.card_eq_iff_eq_univ _).mp hcard
  exact List.mem_toFinset.mp (huniv ▸ Finset.mem_univ i)

/-- If the first `n` names are distinct, every name of the list is among them. -/
theorem mem_take_of_nodup {l : List (Fin n)} (hnd : (l.take n).Nodup) (i : Fin n) : i ∈ l.take n ↔ i ∈ l := by
  refine ⟨List.mem_of_mem_take, fun hi => ?_⟩
  rcases Nat.le_total l.length n with hle | hle
  · rwa [List.take_of_length_le hle]
  · exact mem_of_nodup hnd (by simpa using hle) i

/-- One more name counts among the first `n` only while there are fewer than `n`. -/
theorem mem_take_snoc {α : Type*} {l : List α} {x y : α} :
    y ∈ (l ++ [x]).take n ↔ y ∈ l.take n ∨ (l.length < n ∧ y = x) := by
  rw [List.take_append, List.mem_append]
  refine or_congr_right ?_
  rcases Nat.lt_or_ge l.length n with hlt | hge
  · obtain ⟨k, hk⟩ : ∃ k, n - l.length = k + 1 := ⟨n - l.length - 1, by omega⟩
    simp [hk, hlt]
  · simp [Nat.sub_eq_zero_of_le hge, Nat.not_lt.mpr hge]

/-- A loop over slots, read at one of them. -/
theorem foldl_slots {σ β : Type*} (look : σ → Fin n → β) {body : σ → Fin n → σ} {g : β → β}
    (hself : ∀ s i, look (body s i) i = g (look s i)) (hother : ∀ s i j, j ≠ i → look (body s i) j = look s j)
    {l : List (Fin n)} (hnd : l.Nodup) (s : σ) (j : Fin n) :
    look (l.foldl body s) j = if j ∈ l then g (look s j) else look s j := by
  induction l generalizing s with
  | nil => simp
  | cons i l ih =>
    obtain ⟨hi, hnd⟩ := List.nodup_cons.mp hnd
    rw [List.foldl_cons, ih hnd]
    by_cases hj : j = i
    · subst hj
      simp [hi, hself]
    · simp [hj, hother s i j hj]

/-- A counter of a loop over slots. -/
theorem foldl_slots_count {σ β : Type*} (look : σ → Fin n → β) (count : σ → Nat) {body : σ → Fin n → σ}
    (p : β → Prop) [DecidablePred p] (hother : ∀ s i j, j ≠ i → look (body s i) j = look s j)
    (hcount : ∀ s i, count (body s i) = count s + if p (look s i) then 1 else 0)
    {l : List (Fin n)} (hnd : l.Nodup) (s : σ) :
    count (l.foldl body s) = count s + l.countP fun i => decide (p (look s i)) := by
  induction l generalizing s with
  | nil => rfl
  | cons i l ih =>
    obtain ⟨hi, hnd⟩ := List.nodup_cons.mp hnd
    have hrest : (l.countP fun j => decide (p (look (body s i) j))) = l.countP fun j => decide (p (look s j)) := by
      refine List.countP_congr fun j hj => ?_
      have hne : j ≠ i := fun e => hi (e ▸ hj)
      rw [hother s i j hne]
    rw [List.foldl_cons, ih hnd, hcount, hrest, List.countP_cons]
    simp only [decide_eq_true_eq]
    omega

/-- A condition that one slot meets. -/
theorem countP_finRange_eq_one {p : Fin n → Bool} {i : Fin n} (h : ∀ j, p j = true ↔ j = i) :
    (List.finRange n).countP p = 1 := by
  have hcount : (List.finRange n).countP p = (List.finRange n).count i :=
    List.countP_congr fun j _ => by rw [h, beq_iff_eq]
  rw [hcount]
  exact List.count_eq_one_of_mem (List.nodup_finRange n) (List.mem_finRange i)

end PelionClient.Lib
