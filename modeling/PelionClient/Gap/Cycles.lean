import PelionClient.Gap.Device

/-!
# What a scan cycle leaves on the queue

`run` posts `blink` with `call_every` each time it is called, and nothing cancels it. A periodic event that was accepted
stays queued through every action (`periodic_stays`), so from the first complete cycle on the queue is never again what it
was before it (`samePending_iff`).
-/

namespace PelionClient.Gap

open Lib

/-! ## Periodic events -/

section Pending

variable {s t : GapDevice} {e : Event Handler}

/-- A periodic event stays queued, whatever happens. -/
theorem periodic_step {a : Act} (hp : e.periodic = true) (he : e ∈ s.eventQueue.pending) (h : step s a = some t) :
    e ∈ t.eventQueue.pending := by
  obtain ⟨_, rfl⟩ := step_eq_some.mp h
  have hposts : e ∈ (s.eventQueue.postAll (posts a)).pending := EventQueue.mem_postAll _ he
  rw [next_eventQueue]
  cases a with
  | deliver d p q => exact EventQueue.mem_finish_of_periodic hp hposts
  | _ => exact hposts

theorem periodic_stays {as : List Act} (hp : e.periodic = true) (he : e ∈ s.eventQueue.pending)
    (h : run step s as = some t) : e ∈ t.eventQueue.pending :=
  run_invariant (fun s => e ∈ s.eventQueue.pending) he (fun _ _ _ hI hs => periodic_step hp hI hs) h

end Pending

/-! ## Inside `_ble.init` -/

/-- An action of the stack while `_ble.init` runs only posts. -/
theorem initialising_step {s t : GapDevice} {a : Act} (hs : s.phase = .initialising) (ha : ∀ e, a ≠ .initReturn e)
    (h : step s a = some t) : t.phase = .initialising ∧ t.eventQueue.capacity = s.eventQueue.capacity ∧
      t.eventQueue.pending.length ≤ s.eventQueue.pending.length + (posts a).length := by
  obtain ⟨hen, rfl⟩ := step_eq_some.mp h
  have hrun : a ≠ .run := by
    rintro rfl
    simp [Enabled, hs] at hen
  have hret : a ≠ .dispatchReturn := by
    rintro rfl
    simp [Enabled, hs] at hen
  have hdel : ∀ e p q, a ≠ .deliver e p q := by
    rintro e p q rfl
    simp [Enabled, Phase.Dispatches, hs] at hen
  have hq : (next s a).eventQueue = s.eventQueue.postAll (posts a) := by
    rw [next_eventQueue]
    cases a with
    | deliver e p q => exact absurd rfl (hdel e p q)
    | _ => rfl
  refine ⟨?_, ?_, ?_⟩
  · rw [next_phase s hrun ha hret (fun per p q => hdel _ p q), hs]
  · rw [hq, EventQueue.capacity_postAll]
  · rw [hq]; exact EventQueue.length_postAll_le _

theorem initialising_run {s t : GapDevice} {as : List Act} (hs : s.phase = .initialising)
    (ha : ∀ e, .initReturn e ∉ as) (h : run step s as = some t) :
    t.phase = .initialising ∧ t.eventQueue.capacity = s.eventQueue.capacity ∧
      t.eventQueue.pending.length ≤ s.eventQueue.pending.length + (as.flatMap posts).length := by
  induction as generalizing s with
  | nil => cases h; exact ⟨hs, rfl, Nat.le_refl _⟩
  | cons a as ih =>
    obtain ⟨u, hu, hrest⟩ := Option.bind_eq_some_iff.mp h
    obtain ⟨h1, h2, h3⟩ := initialising_step hs (fun e he => ha e (he ▸ List.mem_cons_self)) hu
    obtain ⟨h4, h5, h6⟩ := ih h1 (fun e he => ha e (List.mem_cons_of_mem _ he)) hrest
    refine ⟨h4, h5.trans h2, ?_⟩
    rw [List.flatMap_cons, List.length_append]
    omega

/-! ## Cycles -/

/-- A complete cycle: the main loop calls `run`, the stack initialises without an error and with fewer posts of its own
than the queue holds, and the dispatch goes on, in any order of deliveries, timeouts and errors, until it returns. -/
structure CompleteCycle (s t : GapDevice) where
  duringInit : List Act
  duringDispatch : List Act
  noReturn : ∀ e, .initReturn e ∉ duringInit
  room : (duringInit.flatMap posts).length < s.eventQueue.capacity
  noDispatchReturn : .dispatchReturn ∉ duringDispatch
  runs : run step s (.run :: (duringInit ++ .initReturn false :: (duringDispatch ++ [.dispatchReturn]))) = some t

/-- `n` complete cycles on a new object. -/
inductive Cycles (capacity : Nat) : Nat → GapDevice → Prop
  | zero : Cycles capacity 0 (.fresh capacity)
  | succ {n : Nat} {s t : GapDevice} : Cycles capacity n s → CompleteCycle s t → Cycles capacity (n + 1) t

def blinkEvent : Event Handler := ⟨.blink, true⟩

/-- A cycle from an empty queue leaves `blink` queued. -/
theorem blink_of_cycle {s t : GapDevice} (hs : s.eventQueue.pending = []) (hi : s.hasInitialized = false)
    (hc : CompleteCycle s t) : blinkEvent ∈ t.eventQueue.pending := by
  obtain ⟨pre, post, hno, hroom, _, h⟩ := hc
  -- `run` enters `_ble.init` with an empty queue
  obtain ⟨u, hu, h⟩ := Option.bind_eq_some_iff.mp h
  obtain ⟨_, rfl⟩ := step_eq_some.mp hu
  simp only [next, hi, Bool.false_eq_true, ↓reduceIte] at h
  rw [run_append, Option.bind_eq_some_iff] at h
  obtain ⟨v, hv, h⟩ := h
  obtain ⟨hph, hcap, hlen⟩ := initialising_run rfl hno hv
  simp only [hs, List.length_nil, Nat.zero_add] at hlen hcap
  -- so `call_every` finds room
  have hvroom : v.eventQueue.Room 1 := by
    unfold EventQueue.Room
    omega
  obtain ⟨w, hw, h⟩ := Option.bind_eq_some_iff.mp h
  obtain ⟨_, rfl⟩ := step_eq_some.mp hw
  exact periodic_stays rfl (EventQueue.mem_post_self hvroom) h

/-- From the first complete cycle on, `blink` is queued. -/
theorem blink_of_cycles {capacity n : Nat} {s : GapDevice} (h : Cycles capacity n s) :
    (n = 0 ∧ s = .fresh capacity) ∨ (n ≠ 0 ∧ blinkEvent ∈ s.eventQueue.pending) := by
  induction h with
  | zero => exact Or.inl ⟨rfl, rfl⟩
  | succ _ hc ih =>
    refine Or.inr ⟨Nat.succ_ne_zero _, ?_⟩
    rcases ih with ⟨_, rfl⟩ | ⟨_, hb⟩
    · exact blink_of_cycle rfl rfl hc
    · exact periodic_stays rfl hb hc.runs

/-- The same events are pending. -/
def SamePending (s t : GapDevice) : Prop := ∀ e, e ∈ s.eventQueue.pending ↔ e ∈ t.eventQueue.pending

/-- **The queue is what it was before the first cycle only as long as there was none.** -/
theorem samePending_iff {capacity n : Nat} {s : GapDevice} (h : Cycles capacity n s) :
    SamePending s (.fresh capacity) ↔ n = 0 := by
  rcases blink_of_cycles h with ⟨hn, rfl⟩ | ⟨hn, hb⟩
  · exact ⟨fun _ => hn, fun _ _ => Iff.rfl⟩
  · refine ⟨fun hsame => ?_, fun h0 => absurd h0 hn⟩
    have hnil := (hsame blinkEvent).mp hb
    cases hnil

/-! ## One undisturbed cycle -/

/-- Initialise, start, scan, one advertisement, the end of the duration, the end of the mode. -/
def quietCycle : List Act :=
  [.scheduleBleEvents, .initComplete false false, .deliver ⟨.processEvents, false⟩ false false,
   .deliver ⟨.demoModeStart, false⟩ false false, .deliver ⟨.scan, false⟩ false false, .advertisement,
   .deliver blinkEvent false false, .deliver ⟨.onDurationEnd, false⟩ false false,
   .deliver ⟨.demoModeEnd, false⟩ false false]

/-- The object after an undisturbed cycle: the `blink` event is left over. -/
def afterQuietCycle : GapDevice := ⟨.outside, false, 0, false, ⟨32, [blinkEvent]⟩, 1, 0⟩

def quietCycle_complete : CompleteCycle (.fresh 32) afterQuietCycle where
  duringInit := []
  duringDispatch := quietCycle
  noReturn := by simp
  room := by decide
  noDispatchReturn := by decide
  runs := by decide

theorem cycles_quiet : Cycles 32 1 afterQuietCycle := .succ .zero quietCycle_complete

theorem samePending_iff_quiet : Cycles 32 1 afterQuietCycle ∧ (SamePending afterQuietCycle (.fresh 32) ↔ 1 = 0) :=
  ⟨cycles_quiet, samePending_iff cycles_quiet⟩

/-- One undisturbed cycle changes the queue. -/
theorem quietCycle_leaves_blink : Cycles 32 1 afterQuietCycle ∧ ¬SamePending afterQuietCycle (.fresh 32) := by
  refine ⟨cycles_quiet, fun hsame => ?_⟩
  have hnil := (hsame blinkEvent).mp (by decide)
  cases hnil

end PelionClient.Gap
