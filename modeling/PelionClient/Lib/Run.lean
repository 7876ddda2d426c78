import Mathlib.Data.List.Induction

/-!
# Runs of a partial step function

`run f s as` is the state that the inputs `as` lead to from `s`, if every one of them can be taken. What a step keeps, a
run keeps (`run_invariant`); an invariant may look at the inputs taken so far (`run_history`); a step that is always
possible where the invariant holds gives a run that is always possible (`run_progress`); steps that another function can
match give runs that it can match (`run_simulates`); steps that lower a measure lead to a goal (`run_reaches`); and where
the steps keep the invariant only under a condition on the state before them and their input, so do the runs all of whose
steps meet the condition (`run_invariant_of_meets`), and there the condition may be replaced by what follows from both
(`Meets.mono`). Where the condition is exact for a step, it is exact for a run
(`always_iff_meets`).
-/

namespace PelionClient.Lib

variable {σ ι : Type*}

/-- The state after the inputs `as`, if every one of them can be taken. -/
def run (f : σ → ι → Option σ) : σ → List ι → Option σ
  | s, [] => some s
  | s, a :: as => (f s a).bind fun t => run f t as

/-- Every step of the run over `as` meets `C`. -/
def Meets (C : σ → ι → Prop) (f : σ → ι → Option σ) : σ → List ι → Prop
  | _, [] => True
  | s, a :: as => C s a ∧ ∀ t, f s a = some t → Meets C f t as

/-- `P` holds in every state of the run over `as`. -/
def Always (P : σ → Prop) (f : σ → ι → Option σ) : σ → List ι → Prop
  | s, [] => P s
  | s, a :: as => P s ∧ ∀ t, f s a = some t → Always P f t as

/-- A step that is a computation which may fail. -/
theorem toOption_eq_some_iff {ε α : Type*} {x : Except ε α} {a : α} : x.toOption = some a ↔ x = .ok a := by
  cases x with
  | error e => exact iff_of_false (fun h => (nomatch h)) (fun h => (nomatch h))
  | ok b => exact ⟨fun h => congrArg Except.ok (Option.some.inj h), fun h => congrArg some (Except.ok.inj h)⟩

variable {f : σ → ι → Option σ}

@[simp] theorem run_nil (s : σ) : run f s [] = some s := rfl

@[simp] theorem run_cons (s : σ) (a : ι) (as : List ι) :
    run f s (a :: as) = (f s a).bind fun t => run f t as := rfl

theorem run_append (s : σ) (as bs : List ι) : run f s (as ++ bs) = (run f s as).bind fun t => run f t bs := by
  induction as generalizing s with
  | nil => rfl
  | cons a as ih =>
    simp only [List.cons_append, run_cons, Option.bind_assoc]
    congr 1
    funext t
    exact ih t

/-- The last step of a run. -/
theorem run_snoc {s u : σ} {as : List ι} {a : ι} :
    run f s (as ++ [a]) = some u ↔ ∃ t, run f s as = some t ∧ f t a = some u := by
  rw [run_append, Option.bind_eq_some_iff]
  simp

/-- What holds at the start and is kept by every step, under the inputs taken so far, holds after a run. -/
theorem run_history (I : List ι → σ → Prop) {s t : σ} {as : List ι} (h0 : I [] s)
    (hs : ∀ pre t a u, I pre t → f t a = some u → I (pre ++ [a]) u) (h : run f s as = some t) : I as t := by
  induction as using List.reverseRecOn generalizing t with
  | nil => cases h; exact h0
  | append_singleton as a ih =>
    obtain ⟨m, hm, hlast⟩ := run_snoc.mp h
    exact hs as m a t (ih hm) hlast

/-- An invariant of the steps is an invariant of the runs. -/
theorem run_invariant (I : σ → Prop) {s t : σ} {as : List ι} (h0 : I s)
    (hs : ∀ t a u, I t → f t a = some u → I u) (h : run f s as = some t) : I t :=
  run_history (fun _ => I) h0 (fun _ => hs) h

/-- A step that can be taken wherever the invariant holds gives a run over any inputs. -/
theorem run_progress (I : List ι → σ → Prop) {s : σ} (h0 : I [] s)
    (hs : ∀ pre t a, I pre t → ∃ u, f t a = some u ∧ I (pre ++ [a]) u) (as : List ι) :
    ∃ t, run f s as = some t ∧ I as t := by
  induction as using List.reverseRecOn with
  | nil => exact ⟨s, rfl, h0⟩
  | append_singleton as a ih =>
    obtain ⟨m, hm, hI⟩ := ih
    obtain ⟨u, hu, hI'⟩ := hs as m a hI
    exact ⟨u, run_snoc.mpr ⟨m, hm, hu⟩, hI'⟩

/-- **Simulation**: if every step of `f` is matched by a step of `g` on the same input, so is every run. -/
theorem run_simulates {τ : Type*} {g : τ → ι → Option τ} (R : σ → τ → Prop) {s u : σ} {t : τ} {as : List ι} (h0 : R s t)
    (hs : ∀ s t u, ∀ a ∈ as, R s t → f s a = some u → ∃ v, g t a = some v ∧ R u v) (h : run f s as = some u) :
    ∃ v, run g t as = some v ∧ R u v := by
  induction as generalizing s t with
  | nil => cases h; exact ⟨t, rfl, h0⟩
  | cons a as ih =>
    obtain ⟨m, hm, hrest⟩ := Option.bind_eq_some_iff.mp h
    obtain ⟨n, hn, hR⟩ := hs s t m a List.mem_cons_self h0 hm
    obtain ⟨v, hv, hR'⟩ := ih hR (fun s t u b hb => hs s t u b (List.mem_cons_of_mem _ hb)) hrest
    exact ⟨v, by rw [run_cons, hn, Option.bind_some, hv], hR'⟩

/-- **A measure leads to the goal**: where some input takes every state with `J` to the goal or to a smaller one with `J`,
inputs of that kind lead to the goal. -/
theorem run_reaches (J D : σ → Prop) (μ : σ → Nat) (A : ι → Prop)
    (hs : ∀ s, J s → ∃ a t, A a ∧ f s a = some t ∧ (D t ∨ (J t ∧ μ t < μ s))) {s : σ} (h0 : J s) :
    ∃ as t, (∀ a ∈ as, A a) ∧ run f s as = some t ∧ D t := by
  induction hn : μ s using Nat.strongRecOn generalizing s with
  | ind n ih =>
    obtain ⟨a, m, ha, hm, hD | ⟨hJ, hlt⟩⟩ := hs s h0
    · exact ⟨[a], m, List.forall_mem_singleton.mpr ha, by rw [run_cons, hm]; rfl, hD⟩
    · obtain ⟨as, t, has, ht, hD⟩ := ih (μ m) (hn ▸ hlt) hJ rfl
      exact ⟨a :: as, t, List.forall_mem_cons.mpr ⟨ha, has⟩, by rw [run_cons, hm, Option.bind_some, ht], hD⟩

/-- A run whose steps all meet the condition keeps what such steps keep. -/
theorem run_invariant_of_meets (I : σ → Prop) {C : σ → ι → Prop} {s t : σ} {as : List ι} (h0 : I s)
    (hs : ∀ t a u, I t → C t a → f t a = some u → I u) (hC : Meets C f s as) (h : run f s as = some t) : I t := by
  induction as generalizing s with
  | nil => cases h; exact h0
  | cons a as ih =>
    obtain ⟨m, hm, hrest⟩ := Option.bind_eq_some_iff.mp h
    exact ih (hs s a m h0 hC.1 hm) (hC.2 m hm) hrest

/-- What follows from the condition in every state that the steps with it can reach is met too. -/
theorem Meets.mono (I : σ → Prop) {C D : σ → ι → Prop} {s : σ} {as : List ι} (h0 : I s)
    (hI : ∀ t a u, I t → C t a → f t a = some u → I u) (hD : ∀ t a, I t → C t a → D t a) (h : Meets C f s as) :
    Meets D f s as := by
  induction as generalizing s with
  | nil => trivial
  | cons a as ih =>
    obtain ⟨hhead, hrest⟩ := h
    exact ⟨hD s a h0 hhead, fun t ht => ih (hI s a t h0 hhead ht) (hrest t ht)⟩

theorem Meets.and {C D : σ → ι → Prop} {s : σ} {as : List ι} (hC : Meets C f s as) (hD : Meets D f s as) :
    Meets (fun s a => C s a ∧ D s a) f s as := by
  induction as generalizing s with
  | nil => trivial
  | cons a as ih => exact ⟨⟨hC.1, hD.1⟩, fun t ht => ih (hC.2 t ht) (hD.2 t ht)⟩

theorem Always.head {P : σ → Prop} {s : σ} {as : List ι} (h : Always P f s as) : P s := by
  cases as with
  | nil => exact h
  | cons a as => exact h.1

/-- Every state that a part of the run leads to is one of its states. -/
theorem always_iff {P : σ → Prop} {s : σ} {as : List ι} :
    Always P f s as ↔ ∀ pre, pre <+: as → ∀ t, run f s pre = some t → P t := by
  constructor
  · intro h pre hpre t ht
    induction as generalizing s pre with
    | nil =>
      rw [List.prefix_nil.mp hpre] at ht
      cases ht
      exact h
    | cons a as ih =>
      cases pre with
      | nil =>
        cases ht
        exact h.1
      | cons b pre =>
        obtain ⟨rfl, hpre'⟩ := List.cons_prefix_cons.mp hpre
        obtain ⟨m, hm, hrest⟩ := Option.bind_eq_some_iff.mp ht
        exact ih (h.2 m hm) pre hpre' hrest
  · intro h
    induction as generalizing s with
    | nil => exact h [] (List.prefix_rfl) s rfl
    | cons a as ih =>
      refine ⟨h [] List.nil_prefix s rfl, fun m hm => ih fun pre hpre t ht => ?_⟩
      refine h (a :: pre) (List.cons_prefix_cons.mpr ⟨rfl, hpre⟩) t ?_
      rw [run_cons, hm]
      exact ht

/-- A run that keeps `P` meets what every step that keeps it meets. -/
theorem meets_of_always (I P : σ → Prop) {C : σ → ι → Prop} {s : σ} {as : List ι} (h0 : I s)
    (hI : ∀ t a u, I t → f t a = some u → I u)
    (hC : ∀ t a, I t → P t → (∀ u, f t a = some u → P u) → C t a) (h : Always P f s as) : Meets C f s as := by
  induction as generalizing s with
  | nil => trivial
  | cons a as ih =>
    obtain ⟨hP, hrest⟩ := h
    have hhead : C s a := hC s a h0 hP fun t ht => (hrest t ht).head
    exact ⟨hhead, fun t ht => ih (hI s a t h0 ht) (hrest t ht)⟩

/-- A run whose steps meet what keeps `P` keeps it. -/
theorem always_of_meets (I P : σ → Prop) {C : σ → ι → Prop} {s : σ} {as : List ι} (h0 : I s) (hP : P s)
    (hI : ∀ t a u, I t → f t a = some u → I u)
    (hC : ∀ t a u, I t → P t → C t a → f t a = some u → P u) (h : Meets C f s as) : Always P f s as := by
  induction as generalizing s with
  | nil => exact hP
  | cons a as ih =>
    obtain ⟨hhead, hrest⟩ := h
    exact ⟨hP, fun t ht => ih (hI s a t h0 ht) (hC s a t h0 hP hhead ht) (hrest t ht)⟩

/-- **If the steps that keep `P` are those that meet `C`, the runs that keep `P` are those whose steps meet `C`.** -/
theorem always_iff_meets (I P : σ → Prop) {C : σ → ι → Prop} {s : σ} {as : List ι} (h0 : I s) (hP : P s)
    (hI : ∀ t a u, I t → f t a = some u → I u)
    (hC : ∀ t a, I t → P t → (C t a ↔ ∀ u, f t a = some u → P u)) : Always P f s as ↔ Meets C f s as := by
  constructor
  · exact meets_of_always I P h0 hI fun t a hIt hPt hkeeps => (hC t a hIt hPt).mpr hkeeps
  · exact always_of_meets I P h0 hP hI fun t a u hIt hPt hc hu => (hC t a hIt hPt).mp hc u hu

end PelionClient.Lib
