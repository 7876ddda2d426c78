import PelionClient.Gap.Lifetime

/-!
# Whether `run` can return

In `dispatch_forever` two things decide whether `run` can still return: that a link of the chain is outstanding, and that
the blinks leave three places on the queue. With both it can (`returns`): it is enough to deliver what is pending, each
delivery lowers the number of those to come by one (`load_deliver`), and there is room for what they post. Without one of
them, no action but a connection timeout changes that, and the dispatch goes on for ever (`stuck_step`).
-/

namespace PelionClient.Gap

open Lib

/-- What the dispatch needs to come to its end. -/
def Free (s : GapDevice) : Prop := 0 < s.links ∧ s.blinks + 3 ≤ s.eventQueue.capacity

/-- The dispatch that cannot come to its end. -/
structure Stuck (s : GapDevice) : Prop where
  roomy : Roomy s
  dispatching : s.phase = .dispatching
  notFree : ¬Free s

/-- The dispatch that can. -/
structure Ending (s : GapDevice) : Prop where
  chain : OneChain s
  dispatching : s.phase = .dispatching
  free : Free s

/-- What the stack and the dispatch loop do inside `run`, apart from advertisements and connection timeouts. -/
def Inner : Act → Prop
  | .run | .advertisement | .timeout .conn => False
  | _ => True

/-! ## The load -/

/-- A pending event, and the events that come from it, one after another. -/
def Handler.load : Handler → Nat
  | .blink | .processEvents | .scan | .demoModeEnd => 1
  | .onDurationEnd => 2
  | .demoModeStart => 4

def loadOf : List (Event Handler) → Nat
  | [] => 0
  | e :: es => e.handler.load + loadOf es

/-- The callbacks and deliveries to come. -/
def GapDevice.load (s : GapDevice) : Nat := 5 * s.initPending + loadOf s.eventQueue.pending

theorem loadOf_append (es ds : List (Event Handler)) : loadOf (es ++ ds) = loadOf es + loadOf ds := by
  induction es with
  | nil => exact (Nat.zero_add _).symm
  | cons e es ih => rw [List.cons_append, loadOf, loadOf, ih, Nat.add_assoc]

theorem loadOf_erase {e : Event Handler} {es : List (Event Handler)} (he : e ∈ es) :
    e.handler.load + loadOf (es.erase e) = loadOf es := by
  induction es with
  | nil => cases he
  | cons d es ih =>
    by_cases hd : d = e
    · subst hd
      rw [List.erase_cons_head, loadOf]
    · have hmem : e ∈ es := (List.mem_cons.mp he).resolve_left (Ne.symm hd)
      rw [List.erase_cons_tail (by simpa using hd), loadOf, loadOf, ← ih hmem]
      omega

section Step

variable {s t : GapDevice} {a : Act} {e : Event Handler}

theorem load_posts (e : Event Handler) (x y : Bool) : loadOf (posts (.deliver e x y)) + 1 = e.handler.load := by
  obtain ⟨h, per⟩ := e
  cases h <;> rfl

/-- **A delivery lowers the load by one**, if its posts are accepted. -/
theorem load_deliver (x y : Bool) (he : e ∈ s.eventQueue.pending) (hper : e.periodic = false)
    (hposts : (s.eventQueue.postAll (posts (.deliver e x y))).pending =
      s.eventQueue.pending ++ posts (.deliver e x y)) : (next s (.deliver e x y)).load + 1 = s.load := by
  have hpending : (next s (.deliver e x y)).eventQueue.pending =
      (s.eventQueue.pending ++ posts (.deliver e x y)).erase e := by
    rw [next_eventQueue, queueAfter, EventQueue.finish, if_neg (by simp [hper]), hposts]
  have hinit : (next s (.deliver e x y)).initPending = s.initPending := initPending_handle s x y e.handler
  have herase : e.handler.load + loadOf ((s.eventQueue.pending ++ posts (.deliver e x y)).erase e) =
      loadOf (s.eventQueue.pending ++ posts (.deliver e x y)) :=
    loadOf_erase (List.mem_append_left _ he)
  rw [loadOf_append] at herase
  have hload := load_posts e x y
  rw [GapDevice.load, GapDevice.load, hpending, hinit]
  omega

theorem load_initComplete (hen : Enabled s (.initComplete false false)) (hroom : s.eventQueue.Room 1) :
    (next s (.initComplete false false)).load + 1 = s.load := by
  have hpend : 0 < s.initPending := hen.2
  have hpending : (next s (.initComplete false false)).eventQueue.pending =
      s.eventQueue.pending ++ [⟨.demoModeStart, false⟩] := by
    rw [next_eventQueue]
    exact EventQueue.pending_postAll _ hroom
  have hinit : (next s (.initComplete false false)).initPending = s.initPending - 1 := rfl
  have hload : loadOf [⟨.demoModeStart, false⟩] = 4 := rfl
  rw [GapDevice.load, GapDevice.load, hpending, hinit, loadOf_append, hload]
  omega

/-! ## Going on to the end -/

/-- It happens inside `run`. -/
theorem phase_of_inner (ha : Inner a) (hen : Enabled s a) : s.phase ≠ .outside := by
  cases a with
  | run | advertisement => exact absurd ha id
  | initComplete error physError => exact hen.1
  | scheduleBleEvents | timeout source => exact hen
  | initReturn error | dispatchReturn =>
    have hphase : s.phase = _ := hen
    simp [hphase]
  | deliver e x y => rcases hen.1 with h | h <;> simp [h]

/-- An action in the dispatch that is no `demo_mode_end` leaves it there. -/
theorem phase_of_dispatching (hph : s.phase = .dispatching) (hen : Enabled s a)
    (hend : ∀ per p q, a ≠ .deliver ⟨.demoModeEnd, per⟩ p q) : (next s a).phase = .dispatching := by
  rw [next_phase s ?_ ?_ ?_ hend, hph]
  · rintro rfl
    simp [Enabled, hph] at hen
  · rintro e rfl
    simp [Enabled, hph] at hen
  · rintro rfl
    simp [Enabled, hph] at hen

theorem Ending.next (hI : Ending s) (hen : Enabled s a) (ha : Inner a) (hkept : ChainKept s a)
    (hend : ∀ per p q, a ≠ .deliver ⟨.demoModeEnd, per⟩ p q) : Ending (next s a) := by
  have hinit (error : Bool) : a ≠ .initReturn error := by
    rintro rfl
    simp [Enabled, hI.dispatching] at hen
  have hconn : a ≠ .timeout .conn := by
    rintro rfl
    exact ha
  obtain ⟨hlink, hroom⟩ := hI.free
  refine ⟨oneChain_step hI.chain hconn (step_eq_some.mpr ⟨hen, rfl⟩), phase_of_dispatching hI.dispatching hen hend,
    links_step hlink hen hkept (hinit true) hend, ?_⟩
  rw [blinks_next hen (hinit false), capacity_next]
  exact hroom

/-- Beside the blinks and the links nothing is pending, or it can be delivered. -/
theorem pending_cases (honly : OnlyBlink s) : (∃ e ∈ s.eventQueue.pending, e.periodic = false ∧ isLink e = false) ∨
    s.eventQueue.pending.length = s.blinks + s.count isLink := by
  by_cases h : ∃ e ∈ s.eventQueue.pending, e.periodic = false ∧ isLink e = false
  · exact Or.inl h
  · refine Or.inr ?_
    have hsplit := List.length_eq_countP_add_countP Event.periodic (l := s.eventQueue.pending)
    have hlinks : s.eventQueue.pending.countP (fun e => ¬e.periodic = true) = s.eventQueue.pending.countP isLink := by
      refine List.countP_congr fun e he => ?_
      rw [decide_eq_true_iff, Bool.not_eq_true]
      constructor
      · exact fun hper => by_contra fun hlink => h ⟨e, he, hper, by simpa using hlink⟩
      · exact fun hlink => honly.oneShot he hlink
    rw [hlinks] at hsplit
    exact hsplit

/-- A pending event that is no link is delivered. -/
theorem ending_other (hI : Ending s) (he : e ∈ s.eventQueue.pending) (hper : e.periodic = false)
    (hlink : isLink e = false) :
    Ending (next s (.deliver e false false)) ∧ (next s (.deliver e false false)).load < s.load := by
  have hen : Enabled s (.deliver e false false) := ⟨Or.inl hI.dispatching, he⟩
  obtain ⟨handler, per⟩ := e
  cases handler with
  | demoModeStart | onDurationEnd | demoModeEnd => cases hlink
  | blink | processEvents | scan =>
    exact ⟨hI.next hen trivial trivial (by simp), Nat.lt_of_succ_le
      (Nat.le_of_eq (load_deliver false false he hper (List.append_nil _).symm))⟩

/-- A pending link is delivered, with room for its posts. -/
theorem ending_link (hI : Ending s) (he : e ∈ s.eventQueue.pending) (hlink : isLink e = true)
    (hroom : s.eventQueue.Room 2) : (next s (.deliver e false false)).phase = .breaking ∨
      (Ending (next s (.deliver e false false)) ∧ (next s (.deliver e false false)).load < s.load) := by
  have hen : Enabled s (.deliver e false false) := ⟨Or.inl hI.dispatching, he⟩
  have hper := hI.chain.onlyBlink.oneShot he hlink
  have hone : s.eventQueue.Room 1 := Nat.le_of_succ_le hroom
  obtain ⟨handler, per⟩ := e
  cases handler with
  | blink | processEvents | scan => cases hlink
  | demoModeEnd => exact Or.inl rfl
  | demoModeStart =>
    exact Or.inr ⟨hI.next hen trivial (Or.inr hroom) (by simp), Nat.lt_of_succ_le
      (Nat.le_of_eq (load_deliver false false he hper (EventQueue.pending_postAll _ hroom)))⟩
  | onDurationEnd =>
    exact Or.inr ⟨hI.next hen trivial (Or.inr hone) (by simp), Nat.lt_of_succ_le
      (Nat.le_of_eq (load_deliver false false he hper (EventQueue.pending_postAll _ hone)))⟩

/-- **An action brings the dispatch closer to its end.** -/
theorem ending_step (hI : Ending s) :
    ∃ a t, Inner a ∧ step s a = some t ∧ (t.phase = .breaking ∨ (Ending t ∧ t.load < s.load)) := by
  rcases pending_cases hI.chain.onlyBlink with ⟨e, he, hper, hlink⟩ | hlength
  · exact ⟨.deliver e false false, _, trivial, step_eq_some.mpr ⟨⟨Or.inl hI.dispatching, he⟩, rfl⟩,
      Or.inr (ending_other hI he hper hlink)⟩
  · obtain ⟨hpos, hroom⟩ := hI.free
    have hone := hI.chain.one
    rw [s.links_eq] at hpos hone
    have hroom2 : s.eventQueue.Room 2 := by
      unfold EventQueue.Room
      omega
    by_cases hpend : 0 < s.initPending
    · have hen : Enabled s (.initComplete false false) := ⟨by rw [hI.dispatching]; simp, hpend⟩
      have hroom1 : s.eventQueue.Room 1 := Nat.le_of_succ_le hroom2
      exact ⟨.initComplete false false, _, trivial, step_eq_some.mpr ⟨hen, rfl⟩,
        Or.inr ⟨hI.next hen trivial (Or.inr ⟨rfl, hroom1⟩) (by simp), Nat.lt_of_succ_le
          (Nat.le_of_eq (load_initComplete hen hroom1))⟩⟩
    · have hlinks : 0 < s.count isLink := by omega
      obtain ⟨e, he, hlink⟩ := List.countP_pos_iff.mp hlinks
      exact ⟨.deliver e false false, _, trivial, step_eq_some.mpr ⟨⟨Or.inl hI.dispatching, he⟩, rfl⟩,
        ending_link hI he hlink hroom2⟩

/-- **`run` can return**, if the dispatch is free to come to its end. -/
theorem returns (hI : OneChain s) (hin : s.phase ≠ .outside) (hfree : s.phase = .dispatching → Free s) :
    ∃ as t, (∀ a ∈ as, Inner a) ∧ run step s as = some t ∧ t.phase = .outside := by
  have hbreak {u : GapDevice} (hu : u.phase = .breaking) : step u .dispatchReturn = some { u with phase := .outside } :=
    step_eq_some.mpr ⟨hu, rfl⟩
  cases hph : s.phase with
  | outside => exact absurd hph hin
  | initialising =>
    have hret : step s (.initReturn true) = some { s with phase := .outside, initPending := s.initPending - 1 } :=
      step_eq_some.mpr ⟨hph, rfl⟩
    exact ⟨[.initReturn true], _, List.forall_mem_singleton.mpr trivial, by rw [run_cons, hret]; rfl, rfl⟩
  | breaking =>
    exact ⟨[.dispatchReturn], _, List.forall_mem_singleton.mpr trivial, by rw [run_cons, hbreak hph]; rfl, rfl⟩
  | dispatching =>
    obtain ⟨as, u, has, hu, hbr⟩ := run_reaches Ending (fun t => t.phase = .breaking) GapDevice.load Inner
      (fun _ => ending_step) (show Ending s from ⟨hI, hph, hfree hph⟩)
    refine ⟨as ++ [.dispatchReturn], _, ?_, run_snoc.mpr ⟨u, hu, hbreak hbr⟩, rfl⟩
    exact List.forall_mem_append.mpr ⟨has, List.forall_mem_singleton.mpr trivial⟩

/-! ## The dispatch that goes on for ever -/

/-- No action but a connection timeout frees it. -/
theorem notFree_next (hI : Stuck s) (hen : Enabled s a) (hconn : a ≠ .timeout .conn) : ¬Free (next s a) := by
  have hrun : a ≠ .run := by
    rintro rfl
    simp [Enabled, hI.dispatching] at hen
  have hlinks := links_next_le hI.roomy.chain.onlyBlink hen hrun hconn
  have hblinks := blinks_step (step_eq_some.mpr ⟨hen, rfl⟩)
  rintro ⟨hlink, hroom⟩
  rw [capacity_next] at hroom
  exact hI.notFree ⟨by omega, by omega⟩

/-- **The stuck dispatch stays stuck.** -/
theorem stuck_step (hI : Stuck s) (hconn : a ≠ .timeout .conn) (h : step s a = some t) : Stuck t := by
  have hroomy := roomy_step hI.roomy hconn h
  obtain ⟨hen, rfl⟩ := step_eq_some.mp h
  refine ⟨hroomy, phase_of_dispatching hI.dispatching hen ?_, notFree_next hI hen hconn⟩
  -- `demo_mode_end` would be a link, and have had the room
  rintro per p q rfl
  have hlink := GapDevice.count_pos (p := isLink) hen.2 rfl
  have hlate := GapDevice.count_pos (p := isLate) hen.2 rfl
  have hlinks := s.links_eq
  exact hI.notFree ⟨by omega, hI.roomy.room (Or.inl hlate)⟩

end Step

/-! ## Runs -/

section Runs

variable {capacity : Nat} {as : List Act} {s : GapDevice}

theorem free_iff (h : run step (.fresh capacity) as = some s) :
    Free s ↔ Outstanding s ∧ accepted (.fresh capacity) as + 3 ≤ capacity := by
  have hcap : s.eventQueue.capacity = capacity := capacity_run h
  have hblinks : s.blinks = accepted (.fresh capacity) as := by
    rw [blinks_run h]
    exact Nat.zero_add _
  rw [Free, outstanding_iff, hcap, hblinks]

theorem stuck_of_quiet (hquiet : Quiet as) (h : run step (.fresh capacity) as = some s) (hph : s.phase = .dispatching)
    (hnot : ¬(Outstanding s ∧ accepted (.fresh capacity) as + 3 ≤ capacity)) : Stuck s :=
  ⟨roomy_of_quiet hquiet h, hph, (free_iff h).not.mpr hnot⟩

end Runs

end PelionClient.Gap
