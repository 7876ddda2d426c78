import Mathlib.Data.List.Basic

/-!
# Calls that give results

`calls f n s` are the results of `n` calls of `f`, one after another from the state `s`, with the state after them. An
invariant that lets every call succeed lets any number of them (`calls_invariant`). If a good result moves a measure
forward and the measure is bounded, there are no more good results than the measure has room for (`calls_count`), and a bad
one comes after at most so many (`calls_until`).
-/

namespace PelionClient.Lib

variable {σ β : Type*}

/-- The results of `n` calls, and the state after them. -/
def calls (f : σ → Option (β × σ)) : Nat → σ → Option (List β × σ)
  | 0, s => some ([], s)
  | n + 1, s => (f s).bind fun p => (calls f n p.2).map fun q => (p.1 :: q.1, q.2)

variable {f : σ → Option (β × σ)} {s t : σ} {n : Nat} {bs : List β}

theorem calls_succ {b : β} (h : f s = some (b, t)) (n : Nat) :
    calls f (n + 1) s = (calls f n t).map fun q => (b :: q.1, q.2) := by
  rw [calls, h, Option.bind_some]

/-- Where the invariant holds a call succeeds and keeps it; so any number of calls do. -/
theorem calls_invariant (I : σ → Prop) (hI : ∀ s, I s → ∃ b t, f s = some (b, t) ∧ I t) (h : I s) (n : Nat) :
    ∃ bs t, calls f n s = some (bs, t) ∧ I t := by
  induction n generalizing s with
  | zero => exact ⟨[], s, rfl, h⟩
  | succ n ih =>
    obtain ⟨b, t, hcall, ht⟩ := hI s h
    obtain ⟨bs, u, hrest, hu⟩ := ih ht
    exact ⟨b :: bs, u, by rw [calls_succ hcall, hrest]; rfl, hu⟩

section Measure

variable (I : σ → Prop) (measure : σ → Nat) (good : β → Bool)

/-- **Good results that move the measure are at most as many as the way it has come.** -/
theorem calls_count (hI : ∀ s b t, I s → f s = some (b, t) → I t)
    (hmoves : ∀ s b t, I s → f s = some (b, t) → measure s + (if good b then 1 else 0) ≤ measure t) (h : I s)
    (hcalls : calls f n s = some (bs, t)) : measure s + bs.countP good ≤ measure t := by
  induction n generalizing s bs with
  | zero =>
    cases hcalls
    exact Nat.le_refl _
  | succ n ih =>
    obtain ⟨⟨b, u⟩, hcall, hrest⟩ := Option.bind_eq_some_iff.mp hcalls
    obtain ⟨⟨cs, v⟩, hcs, heq⟩ := Option.map_eq_some_iff.mp hrest
    obtain ⟨rfl, rfl⟩ := Prod.mk.inj heq
    have hone := hmoves s b u h hcall
    have hmore : measure u + cs.countP good ≤ measure v := ih (hI s b u h hcall) hcs
    rw [List.countP_cons]
    show measure s + (cs.countP good + if good b then 1 else 0) ≤ measure v
    omega

/-- **A bounded measure runs out**: good results end after at most as many calls as there is room. -/
theorem calls_until {bound : Nat} (hI : ∀ s, I s → ∃ b t, f s = some (b, t) ∧ I t)
    (hmoves : ∀ s b t, I s → f s = some (b, t) → good b = true → measure s < measure t)
    (hbound : ∀ s, I s → measure s ≤ bound) (h : I s) :
    ∃ n ≤ bound - measure s, ∃ bs t, calls f n s = some (bs, t) ∧ I t ∧ (∀ b ∈ bs, good b = true) ∧
      ∃ b u, f t = some (b, u) ∧ good b = false := by
  -- by induction on the room that is left
  induction hroom : bound - measure s using Nat.strongRecOn generalizing s with
  | _ room ih =>
    obtain ⟨b, t, hcall, ht⟩ := hI s h
    cases hgood : good b with
    | false => exact ⟨0, Nat.zero_le _, [], s, rfl, h, fun _ hb => (nomatch hb), b, t, hcall, hgood⟩
    | true =>
      have hlt := hmoves s b t h hcall hgood
      have hle := hbound t ht
      obtain ⟨n, hn, bs, u, hrest, hu, hall, hend⟩ := ih (bound - measure t) (by omega) ht rfl
      refine ⟨n + 1, by omega, b :: bs, u, by rw [calls_succ hcall, hrest]; rfl, hu, ?_, hend⟩
      intro c hc
      rcases List.mem_cons.mp hc with rfl | hc
      · exact hgood
      · exact hall c hc

end Measure

end PelionClient.Lib
