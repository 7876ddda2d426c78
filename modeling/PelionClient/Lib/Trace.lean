import Mathlib.Data.List.Basic

/-!
# Properties of traces

A trace is the list of the operations done so far, the last one at the end. `EachAfter J` says that every operation stands in
relation `J` to those before it, `FollowedBy P Q` that a `Q` has come after a `P`, `Since R G` that a `G` has come and no `R`
after it. All are decided operation by operation (`eachAfter_snoc`, `followedBy_snoc`, `since_snoc`).
-/

namespace PelionClient.Lib

variable {α : Type*}

/-- Every operation of the trace stands in relation `J` to the trace before it. -/
def EachAfter (J : List α → α → Prop) (ops : List α) : Prop := ∀ pre x post, ops = pre ++ x :: post → J pre x

/-- A `P`, and later a `Q`. -/
def FollowedBy (P Q : α → Prop) (ops : List α) : Prop :=
  ∃ pre post, ops = pre ++ post ∧ (∃ x ∈ pre, P x) ∧ ∃ y ∈ post, Q y

/-- A `G`, and no `R` after it. -/
def Since (R G : α → Prop) (ops : List α) : Prop :=
  ∃ pre x post, ops = pre ++ x :: post ∧ G x ∧ ∀ y ∈ post, ¬R y

/-- Where an operation of a longer trace stands: in the old part, or at the end. -/
theorem append_singleton_eq {ops pre post : List α} {x y : α} (h : ops ++ [x] = pre ++ y :: post) :
    (∃ post', ops = pre ++ y :: post') ∨ (ops = pre ∧ x = y) := by
  rcases List.eq_nil_or_concat post with rfl | ⟨init, last, rfl⟩
  · exact Or.inr (List.append_inj' h rfl |>.imp_right List.singleton_inj.mp)
  · have hassoc : ops ++ [x] = (pre ++ y :: init) ++ [last] := by simpa using h
    exact Or.inl ⟨init, (List.append_inj' hassoc rfl).1⟩

@[simp] theorem eachAfter_nil (J : List α → α → Prop) : EachAfter J [] := by
  intro pre x post h
  simp at h

/-- **One more operation** must stand in the relation to the whole trace before it. -/
theorem eachAfter_snoc {J : List α → α → Prop} {ops : List α} {x : α} :
    EachAfter J (ops ++ [x]) ↔ EachAfter J ops ∧ J ops x := by
  constructor
  · intro h
    refine ⟨fun pre y post hops => h pre y (post ++ [x]) ?_, h ops x [] rfl⟩
    rw [hops, List.append_assoc, List.cons_append]
  · rintro ⟨h, hx⟩ pre y post hops
    rcases append_singleton_eq hops with ⟨post', hold⟩ | ⟨rfl, rfl⟩
    · exact h pre y post' hold
    · exact hx

@[simp] theorem not_followedBy_nil (P Q : α → Prop) : ¬FollowedBy P Q [] := by
  rintro ⟨pre, post, h, ⟨x, hx, _⟩, _⟩
  rw [(List.append_eq_nil_iff.mp h.symm).1] at hx
  cases hx

theorem FollowedBy.fst {P Q : α → Prop} {ops : List α} (h : FollowedBy P Q ops) : ∃ x ∈ ops, P x := by
  obtain ⟨pre, post, rfl, ⟨x, hx, hPx⟩, _⟩ := h
  exact ⟨x, List.mem_append_left post hx, hPx⟩

/-- **One more operation** comes after what was done before. -/
theorem followedBy_snoc {P Q : α → Prop} {ops : List α} {x : α} :
    FollowedBy P Q (ops ++ [x]) ↔ FollowedBy P Q ops ∨ (Q x ∧ ∃ y ∈ ops, P y) := by
  constructor
  · rintro ⟨pre, post, h, ⟨p, hp, hPp⟩, q, hq, hQq⟩
    rcases List.eq_nil_or_concat post with rfl | ⟨init, last, rfl⟩
    · cases hq
    · have hassoc : ops ++ [x] = (pre ++ init) ++ [last] := by simpa using h
      obtain ⟨rfl, hlast⟩ := List.append_inj' hassoc rfl
      obtain rfl := List.singleton_inj.mp hlast
      rw [List.concat_eq_append] at hq
      rcases List.mem_append.mp hq with hq | hq
      · exact Or.inl ⟨pre, init, rfl, ⟨p, hp, hPp⟩, q, hq, hQq⟩
      · rw [List.mem_singleton.mp hq] at hQq
        exact Or.inr ⟨hQq, p, List.mem_append_left init hp, hPp⟩
  · rintro (⟨pre, post, rfl, hp, q, hq, hQq⟩ | ⟨hx, hp⟩)
    · exact ⟨pre, post ++ [x], List.append_assoc pre post [x], hp, q, List.mem_append_left [x] hq, hQq⟩
    · exact ⟨ops, [x], rfl, hp, x, List.mem_singleton_self x, hx⟩

/-- **One more operation** is a `G`, or it is no `R` and leaves the last `G` standing. -/
theorem since_snoc {R G : α → Prop} {ops : List α} {x : α} :
    Since R G (ops ++ [x]) ↔ G x ∨ (¬R x ∧ Since R G ops) := by
  constructor
  · rintro ⟨pre, y, post, h, hG, hpost⟩
    rcases List.eq_nil_or_concat post with rfl | ⟨init, last, rfl⟩
    · obtain ⟨_, hx⟩ := List.append_inj' h rfl
      rw [List.singleton_inj.mp hx]
      exact Or.inl hG
    · have hassoc : ops ++ [x] = (pre ++ y :: init) ++ [last] := by simpa using h
      obtain ⟨hops, hlast⟩ := List.append_inj' hassoc rfl
      obtain rfl := List.singleton_inj.mp hlast
      refine Or.inr ⟨hpost x (by simp), pre, y, init, hops, hG, fun z hz => hpost z (by simp [hz])⟩
  · rintro (hG | ⟨hR, pre, y, post, rfl, hG, hpost⟩)
    · exact ⟨ops, x, [], rfl, hG, fun y hy => (nomatch hy)⟩
    · refine ⟨pre, y, post ++ [x], by simp, hG, fun z hz => ?_⟩
      rcases List.mem_append.mp hz with hz | hz
      · exact hpost z hz
      · rw [List.mem_singleton.mp hz]
        exact hR

/-- Operations that are no `R` leave the last `G` standing. -/
theorem Since.append {R G : α → Prop} {ops : List α} (h : Since R G ops) {added : List α} (hR : ∀ x ∈ added, ¬R x) :
    Since R G (ops ++ added) := by
  obtain ⟨pre, x, post, rfl, hG, hpost⟩ := h
  refine ⟨pre, x, post ++ added, by simp, hG, fun y hy => ?_⟩
  rcases List.mem_append.mp hy with hy | hy
  · exact hpost y hy
  · exact hR y hy

/-- What came before does not matter once a `G` has come. -/
theorem Since.of_right {R G : α → Prop} {added : List α} (h : Since R G added) (ops : List α) :
    Since R G (ops ++ added) := by
  obtain ⟨pre, x, post, rfl, hG, hpost⟩ := h
  exact ⟨ops ++ pre, x, post, by simp, hG, hpost⟩

end PelionClient.Lib
