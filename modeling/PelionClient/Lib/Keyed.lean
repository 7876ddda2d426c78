import Mathlib.Data.List.Nodup

/-!
# Lists with a key

A list whose elements have a key, searched from its beginning: `findOrCreate` changes the first element with the key, or
makes a new one at the end (`findOrCreate_cases`). If the change keeps keys, the keys stay distinct (`findOrCreate_nodup`);
if it adds one part to an element, it adds one part to the list (`findOrCreate_parts`).
-/

namespace PelionClient.Lib

variable {α β κ : Type*} [DecidableEq κ]

/-- The first element with the key `k` is changed by `f`, or else the element `new` is, and put at the end. -/
def findOrCreate (key : α → κ) (k : κ) (new : α) (f : α → Option α) : List α → Option (List α)
  | [] => (f new).map fun y => [y]
  | x :: l =>
    if key x = k then (f x).map fun y => y :: l
    else (findOrCreate key k new f l).map fun l' => x :: l'

variable {key : α → κ} {k : κ} {new : α} {f : α → Option α} {l l' : List α}

/-- **The element is found, or created.** -/
theorem findOrCreate_cases (key : α → κ) (k : κ) (new : α) (f : α → Option α) (l : List α) :
    (∃ pre x post, l = pre ++ x :: post ∧ key x = k ∧
      findOrCreate key k new f l = (f x).map fun y => pre ++ y :: post) ∨
    ((∀ x ∈ l, key x ≠ k) ∧ findOrCreate key k new f l = (f new).map fun y => l ++ [y]) := by
  induction l with
  | nil => exact Or.inr ⟨by simp, rfl⟩
  | cons x l ih =>
    by_cases hx : key x = k
    · refine Or.inl ⟨[], x, l, rfl, hx, ?_⟩
      rw [findOrCreate, if_pos hx]
      rfl
    · rw [findOrCreate, if_neg hx]
      rcases ih with ⟨pre, y, post, rfl, hy, h⟩ | ⟨hnone, h⟩
      · refine Or.inl ⟨x :: pre, y, post, rfl, hy, ?_⟩
        rw [h, Option.map_map]
        rfl
      · refine Or.inr ⟨?_, ?_⟩
        · intro y hy
          rcases List.mem_cons.mp hy with rfl | hy
          · exact hx
          · exact hnone y hy
        · rw [h, Option.map_map]
          rfl

/-- The element that was changed, and where it stands. -/
theorem findOrCreate_eq_some (h : findOrCreate key k new f l = some l') :
    ∃ x y, f x = some y ∧ ((x ∈ l ∧ key x = k ∧ ∃ pre post, l = pre ++ x :: post ∧ l' = pre ++ y :: post) ∨
      (x = new ∧ (∀ z ∈ l, key z ≠ k) ∧ l' = l ++ [y])) := by
  rcases findOrCreate_cases key k new f l with ⟨pre, x, post, rfl, hx, heq⟩ | ⟨hnone, heq⟩
  · rw [heq] at h
    obtain ⟨y, hy, rfl⟩ := Option.map_eq_some_iff.mp h
    exact ⟨x, y, hy, Or.inl ⟨List.mem_append_right _ List.mem_cons_self, hx, pre, post, rfl, rfl⟩⟩
  · rw [heq] at h
    obtain ⟨y, hy, rfl⟩ := Option.map_eq_some_iff.mp h
    exact ⟨new, y, hy, Or.inr ⟨rfl, hnone, rfl⟩⟩

/-- It succeeds if the change does. -/
theorem findOrCreate_isSome (hfound : ∀ x ∈ l, key x = k → ∃ y, f x = some y) (hnew : ∃ y, f new = some y) :
    ∃ l', findOrCreate key k new f l = some l' := by
  rcases findOrCreate_cases key k new f l with ⟨pre, x, post, rfl, hx, heq⟩ | ⟨_, heq⟩
  · obtain ⟨y, hy⟩ := hfound x (List.mem_append_right _ List.mem_cons_self) hx
    exact ⟨_, by rw [heq, hy]; rfl⟩
  · obtain ⟨y, hy⟩ := hnew
    exact ⟨_, by rw [heq, hy]; rfl⟩

/-- Every element is one that was there, or one that was changed. -/
theorem findOrCreate_forall {P : α → Prop} (h : findOrCreate key k new f l = some l') (hl : ∀ x ∈ l, P x)
    (hf : ∀ x y, (x ∈ l ∨ x = new) → f x = some y → P y) : ∀ y ∈ l', P y := by
  obtain ⟨x, y, hy, ⟨hx, _, pre, post, rfl, rfl⟩ | ⟨rfl, _, rfl⟩⟩ := findOrCreate_eq_some h
  · intro z hz
    rcases List.mem_append.mp hz with hz | hz
    · exact hl z (List.mem_append_left _ hz)
    · rcases List.mem_cons.mp hz with rfl | hz
      · exact hf x z (Or.inl hx) hy
      · exact hl z (List.mem_append_right _ (List.mem_cons_of_mem _ hz))
  · intro z hz
    rcases List.mem_append.mp hz with hz | hz
    · exact hl z hz
    · rw [List.mem_singleton.mp hz]
      exact hf x y (Or.inr rfl) hy

theorem findOrCreate_ne_nil (h : findOrCreate key k new f l = some l') : l' ≠ [] := by
  obtain ⟨x, y, _, ⟨_, _, pre, post, _, rfl⟩ | ⟨_, _, rfl⟩⟩ := findOrCreate_eq_some h <;> simp

/-- **Keys stay distinct.** -/
theorem findOrCreate_nodup (h : findOrCreate key k new f l = some l') (hl : (l.map key).Nodup) (hnew : key new = k)
    (hf : ∀ x y, f x = some y → key y = key x) : (l'.map key).Nodup := by
  obtain ⟨x, y, hy, ⟨_, _, pre, post, rfl, rfl⟩ | ⟨rfl, hnone, rfl⟩⟩ := findOrCreate_eq_some h
  · have hkey := hf x y hy
    simpa [hkey] using hl
  · have hkey := (hf x y hy).trans hnew
    rw [List.map_append, List.nodup_append]
    refine ⟨hl, by simp, ?_⟩
    intro a ha b hb
    obtain ⟨z, hz, rfl⟩ := List.mem_map.mp ha
    rw [List.map_singleton, List.mem_singleton] at hb
    rw [hb, hkey]
    exact hnone z hz

/-- **One part more in the element is one part more in the list.** -/
theorem findOrCreate_parts {parts : α → List β} {e : β} (h : findOrCreate key k new f l = some l') (hnew : parts new = [])
    (hf : ∀ x y, (x ∈ l ∧ key x = k ∨ x = new) → f x = some y → (parts y).Perm (e :: parts x)) :
    (l'.flatMap parts).Perm (e :: l.flatMap parts) := by
  obtain ⟨x, y, hy, ⟨hx, hkey, pre, post, rfl, rfl⟩ | ⟨rfl, _, rfl⟩⟩ := findOrCreate_eq_some h
  · have hparts := hf x y (Or.inl ⟨hx, hkey⟩) hy
    simp only [List.flatMap_append, List.flatMap_cons]
    refine (List.Perm.append_left _ (List.Perm.append_right _ hparts)).trans ?_
    exact List.perm_middle
  · have hparts := hf x y (Or.inr rfl) hy
    rw [hnew] at hparts
    simp only [List.flatMap_append, List.flatMap_singleton]
    exact (List.Perm.append_left _ hparts).trans (List.perm_append_comm)

end PelionClient.Lib
