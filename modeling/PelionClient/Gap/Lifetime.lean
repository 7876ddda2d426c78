import PelionClient.Gap.Chain

/-!
# How long the scan loop lives

Every `run` whose `_ble.init` succeeds posts one more `blink`, for good (`blinks_run`), and a cycle that ends has at one
time three events besides the blinks on the queue: `demo_mode_start`, which is being delivered, and the two that it posts.
So without connection timeouts `dispatch_forever` returns only while the blinks leave three places (`accepted_of_return`).

Up to that point nothing is lost: as long as the blinks, the pending `process_events` and three more events fit, every
state of the dispatch has the next link of its chain outstanding (`outstanding_of_tame`).
-/

namespace PelionClient.Gap

open Lib

/-! ## The blinks -/

/-- The periodic events on the queue. -/
def GapDevice.blinks (s : GapDevice) : Nat := s.count Event.periodic

/-- The successful returns of `_ble.init` that found room for `blink`. -/
def accepted : GapDevice → List Act → Nat
  | _, [] => 0
  | s, a :: as => (if a = .initReturn false ∧ s.eventQueue.Room 1 then 1 else 0) + accepted (next s a) as

section Blinks

variable {s t : GapDevice} {a : Act}

theorem posts_oneShot (ha : a ≠ .initReturn false) : ∀ e ∈ posts a, e.periodic = false := by
  unfold posts
  split <;> simp_all

/-- Nothing else posts a periodic event, and none is taken off. -/
theorem blinks_next (hen : Enabled s a) (ha : a ≠ .initReturn false) : (next s a).blinks = s.blinks := by
  refine count_next_eq hen (posts_oneShot ha) ?_
  rintro e x y rfl hper
  exact hper

theorem blinks_initReturn (s : GapDevice) :
    (next s (.initReturn false)).blinks = s.blinks + if s.eventQueue.Room 1 then 1 else 0 := by
  show (s.eventQueue.post blinkEvent).pending.countP Event.periodic = _
  split
  · rename_i hroom
    rw [EventQueue.countP_post_of_room _ hroom]
    rfl
  · rename_i hroom
    rw [EventQueue.countP_post_of_neg (Or.inl hroom)]
    rfl

theorem blinks_step (h : step s a = some t) :
    t.blinks = s.blinks + if a = .initReturn false ∧ s.eventQueue.Room 1 then 1 else 0 := by
  obtain ⟨hen, rfl⟩ := step_eq_some.mp h
  by_cases ha : a = .initReturn false
  · subst ha
    simp only [blinks_initReturn, true_and]
  · simp only [blinks_next hen ha, ha, false_and, ↓reduceIte, Nat.add_zero]

/-- **The queue holds a blink for each one accepted.** -/
theorem blinks_run {as : List Act} (h : run step s as = some t) : t.blinks = s.blinks + accepted s as := by
  induction as generalizing s with
  | nil => cases h; rfl
  | cons a as ih =>
    obtain ⟨u, hu, hrest⟩ := Option.bind_eq_some_iff.mp h
    have hone := blinks_step hu
    obtain ⟨_, rfl⟩ := step_eq_some.mp hu
    rw [ih hrest, hone, accepted, Nat.add_assoc]

theorem capacity_next (s : GapDevice) (a : Act) : (next s a).eventQueue.capacity = s.eventQueue.capacity := by
  rw [next_eventQueue]
  cases a with
  | deliver e x y => exact EventQueue.capacity_finish.trans (EventQueue.capacity_postAll _)
  | _ => exact EventQueue.capacity_postAll _

theorem capacity_run {as : List Act} (h : run step s as = some t) : t.eventQueue.capacity = s.eventQueue.capacity := by
  refine run_invariant (fun u => u.eventQueue.capacity = s.eventQueue.capacity) rfl (fun u b v hu hs => ?_) h
  obtain ⟨_, rfl⟩ := step_eq_some.mp hs
  rw [capacity_next, hu]

end Blinks

/-! ## The three places -/

/-- A chain past `demo_mode_start` has had the room for its posts beside the blinks. -/
structure Roomy (s : GapDevice) : Prop where
  chain : OneChain s
  room : 0 < s.count isLate ∨ s.phase = .breaking → s.blinks + 3 ≤ s.eventQueue.capacity

section Step

variable {s : GapDevice}

/-- An event on the queue beside the blinks. -/
theorem blinks_lt_length {e : Event Handler} (he : e ∈ s.eventQueue.pending) (hper : e.periodic = false) :
    s.blinks + 1 ≤ s.eventQueue.pending.length := by
  have hsplit := List.length_eq_countP_add_countP Event.periodic (l := s.eventQueue.pending)
  have hone : 0 < s.eventQueue.pending.countP (fun e => !e.periodic) :=
    List.countP_pos_iff.mpr ⟨e, he, by simp [hper]⟩
  have hcount : s.blinks = s.eventQueue.pending.countP Event.periodic := rfl
  simp only [Bool.not_eq_true, Bool.decide_eq_false] at hsplit
  omega

/-- `demo_mode_start` gets the chain further only with room for both its posts. -/
theorem room_of_late (hI : OneChain s) {per x y : Bool} (he : ⟨.demoModeStart, per⟩ ∈ s.eventQueue.pending)
    (hzero : s.count isLate = 0) (hlate : 0 < (next s (.deliver ⟨.demoModeStart, per⟩ x y)).count isLate) :
    s.blinks + 3 ≤ s.eventQueue.capacity := by
  have hper := hI.onlyBlink.oneShot he rfl
  have hlen := blinks_lt_length he hper
  have hdel := count_deliver (p := isLate) x y he
  simp only [isLate, Bool.false_eq_true, and_false, ↓reduceIte, Nat.add_zero] at hdel
  by_contra hfull
  have hscan : (s.eventQueue.post ⟨.scan, false⟩).pending.countP isLate = s.count isLate :=
    EventQueue.countP_post_of_neg (Or.inr rfl)
  have hnoroom : ¬(s.eventQueue.post ⟨.scan, false⟩).Room 1 := by
    intro h1
    have h2 := EventQueue.room_of_post Nat.one_pos h1
    unfold EventQueue.Room at h2
    omega
  have hsame : (s.eventQueue.postAll (posts (.deliver ⟨.demoModeStart, per⟩ x y))).pending.countP isLate = s.count isLate :=
    (EventQueue.countP_post_of_neg (Or.inl hnoroom)).trans hscan
  omega

/-- A delivery that leaves the chain late, or ended, has had the room. -/
theorem room_deliver (hI : Roomy s) {e : Event Handler} {x y : Bool} (hen : Enabled s (.deliver e x y))
    (hafter : 0 < (next s (.deliver e x y)).count isLate ∨ (next s (.deliver e x y)).phase = .breaking) :
    s.blinks + 3 ≤ s.eventQueue.capacity := by
  by_cases hold : 0 < s.count isLate ∨ s.phase = .breaking
  · exact hI.room hold
  · obtain ⟨hzero, hphase⟩ := not_or.mp hold
    rw [Nat.pos_iff_ne_zero, Decidable.not_not] at hzero
    obtain ⟨handler, per⟩ := e
    cases handler with
    | demoModeStart =>
      rcases hafter with hlate | hph
      · exact room_of_late hI.chain hen.2 hzero hlate
      · exact absurd hph hphase
    | onDurationEnd | demoModeEnd =>
      have hpos := GapDevice.count_pos (p := isLate) hen.2 rfl
      omega
    | blink | processEvents | scan =>
      have hle := count_next_le (p := isLate) hen (by simp [posts])
      rw [phase_deliver x y (by simp)] at hafter
      rcases hafter with hlate | h
      · omega
      · exact absurd h hphase

theorem roomy_step {t : GapDevice} {a : Act} (hI : Roomy s) (hconn : a ≠ .timeout .conn) (h : step s a = some t) :
    Roomy t := by
  refine ⟨oneChain_step hI.chain hconn h, ?_⟩
  obtain ⟨hen, rfl⟩ := step_eq_some.mp h
  rw [capacity_next]
  cases a with
  | run =>
    have hout : s.phase = .outside := hen
    simp only [next]
    split
    · exact hI.room
    · rename_i hnot
      have hzero := count_late_eq_zero (hI.chain.ended (Or.inr ⟨hout, by simpa using hnot⟩))
      rintro (hlate | hph)
      · exact absurd hzero (Nat.ne_of_gt hlate)
      · cases hph
  | initReturn error =>
    have hzero := hI.chain.early hen
    have hsame : (next s (.initReturn error)).count isLate = s.count isLate :=
      count_next_eq hen (by cases error <;> simp [posts, isLate]) (by simp)
    rintro (hlate | hph)
    · omega
    · cases error <;> cases hph
  | deliver e x y =>
    rw [blinks_next hen (by simp)]
    exact room_deliver hI hen
  | initComplete error physError =>
    rw [blinks_next hen (by simp), next_phase s (by simp) (by simp) (by simp) (by simp)]
    have hsame : (next s (.initComplete error physError)).count isLate = s.count isLate :=
      count_next_eq hen (by cases error <;> simp [posts, isLate]) (by simp)
    rw [hsame]
    exact hI.room
  | scheduleBleEvents =>
    have hsame : (next s .scheduleBleEvents).count isLate = s.count isLate :=
      count_next_eq hen (by simp [posts, isLate]) (by simp)
    rw [blinks_next hen (by simp), hsame]
    exact hI.room
  | timeout source =>
    cases source with
    | conn => exact absurd rfl hconn
    | advertising | scan | other => exact hI.room
  | advertisement => exact hI.room
  | dispatchReturn => exact fun _ => hI.room (Or.inr hen)

end Step

theorem roomy_of_quiet {capacity : Nat} {as : List Act} {s : GapDevice} (hquiet : Quiet as)
    (h : run step (.fresh capacity) as = some s) : Roomy s := by
  refine quiet_run Roomy ⟨oneChain_fresh capacity, ?_⟩ (fun _ _ _ => roomy_step) hquiet h
  rintro (hlate | hph)
  · exact absurd hlate (Nat.lt_irrefl 0)
  · cases hph

/-- **The loop runs out of queue**: without connection timeouts `dispatch_forever` returns only while the blinks accepted
so far leave three places. -/
theorem accepted_of_return {capacity : Nat} {as : List Act} {s : GapDevice} (hquiet : Quiet as)
    (h : run step (.fresh capacity) (as ++ [.dispatchReturn]) = some s) : accepted (.fresh capacity) as + 3 ≤ capacity := by
  obtain ⟨u, hu, hlast⟩ := run_snoc.mp h
  obtain ⟨hen, _⟩ := step_eq_some.mp hlast
  have hroom := (roomy_of_quiet hquiet hu).room (Or.inr hen)
  rw [capacity_run hu, blinks_run hu] at hroom
  have hzero : (GapDevice.fresh capacity).blinks = 0 := rfl
  have hcap : (GapDevice.fresh capacity).eventQueue.capacity = capacity := rfl
  omega

/-- An undisturbed cycle on a queue of 32: one blink, and 31 places. -/
theorem accepted_of_return_quiet : accepted (.fresh 32) (.run :: .initReturn false :: quietCycle) + 3 ≤ 32 :=
  accepted_of_return (s := afterQuietCycle) (by decide) (by decide)

/-! ## Before that -/

/-- The event is of the kind `h`. -/
def ofKind (h : Handler) (e : Event Handler) : Bool := decide (e.handler = h)

/-- The action is no failure of the initialisation and no connection timeout; there are at most `n` blinks and `p` of
`process_events` on the queue; and `on_duration_end`, which is posted for six seconds later, is not delivered before the
`scan` that is posted with it. -/
def Tame (n p : Nat) (s : GapDevice) : Act → Prop
  | .timeout .conn => False
  | .initComplete error _ => error = false
  | .initReturn false => s.count (ofKind .blink) < n
  | .scheduleBleEvents => s.count (ofKind .processEvents) < p
  | .deliver ⟨.onDurationEnd, _⟩ _ _ => s.count (ofKind .scan) = 0
  | _ => True

/-- What is on the queue beside the one chain, which goes on. -/
structure Tamed (n p : Nat) (s : GapDevice) : Prop where
  chain : OneChain s
  progressing : Progressing s
  blinks : s.count (ofKind .blink) ≤ n
  processEvents : s.count (ofKind .processEvents) ≤ p
  scans : s.count (ofKind .scan) ≤ s.count (ofKind .onDurationEnd)

/-- Every event is of one kind. -/
theorem length_eq_kinds (s : GapDevice) : s.eventQueue.pending.length = s.count (ofKind .blink) +
    s.count (ofKind .processEvents) + s.count (ofKind .scan) + s.count isLink := by
  unfold GapDevice.count
  induction s.eventQueue.pending with
  | nil => rfl
  | cons e es ih =>
    obtain ⟨handler, per⟩ := e
    simp only [List.length_cons, List.countP_cons, ih]
    cases handler <;> simp [ofKind, isLink] <;> omega

/-- A link is `demo_mode_start`, `on_duration_end` or `demo_mode_end`. -/
theorem count_link_eq (s : GapDevice) : s.count isLink =
    s.count (ofKind .demoModeStart) + s.count (ofKind .onDurationEnd) + s.count (ofKind .demoModeEnd) := by
  unfold GapDevice.count
  induction s.eventQueue.pending with
  | nil => rfl
  | cons e es ih =>
    obtain ⟨handler, per⟩ := e
    simp only [List.countP_cons, ih]
    cases handler <;> simp [ofKind, isLink] <;> omega

section Tame

variable {n p : Nat} {s : GapDevice} {a : Act}

/-- While the chain is not at `on_duration_end` no scan is pending. -/
theorem Tamed.length_le (hI : Tamed n p s) (h : s.count (ofKind .onDurationEnd) = 0) :
    s.eventQueue.pending.length ≤ n + p + s.count isLink := by
  have hlen := length_eq_kinds s
  have hblinks := hI.blinks
  have hproc := hI.processEvents
  have hscans := hI.scans
  omega

/-- The callback or `demo_mode_start` is the chain's only link. -/
theorem Tamed.durationEnd_eq_zero (hI : Tamed n p s) (h : 0 < s.initPending ∨ 0 < s.count (ofKind .demoModeStart)) :
    s.count (ofKind .onDurationEnd) = 0 := by
  have hone := hI.chain.one
  rw [s.links_eq] at hone
  have hlinks := count_link_eq s
  omega

theorem Tamed.room_demoModeStart (hI : Tamed n p s) (hcap : n + p + 3 ≤ s.eventQueue.capacity) {per : Bool}
    (he : ⟨.demoModeStart, per⟩ ∈ s.eventQueue.pending) : s.eventQueue.Room 2 := by
  have hpos := GapDevice.count_pos (p := ofKind .demoModeStart) he rfl
  have hlen := hI.length_le (hI.durationEnd_eq_zero (Or.inr hpos))
  have hone := hI.chain.one
  rw [s.links_eq] at hone
  unfold EventQueue.Room
  omega

/-- **A tame step loses no link.** -/
theorem Tamed.chainKept (hI : Tamed n p s) (hcap : n + p + 3 ≤ s.eventQueue.capacity) (hen : Enabled s a)
    (ha : Tame n p s a) : ChainKept s a := by
  have hone := hI.chain.one
  rw [s.links_eq] at hone
  cases a with
  | initComplete error physError =>
    have hpend : 0 < s.initPending := hen.2
    have hlen := hI.length_le (hI.durationEnd_eq_zero (Or.inl hpend))
    refine Or.inr ⟨ha, ?_⟩
    unfold EventQueue.Room
    omega
  | deliver e x y =>
    obtain ⟨handler, per⟩ := e
    cases handler with
    | demoModeStart => exact Or.inr (hI.room_demoModeStart hcap hen.2)
    | onDurationEnd =>
      have hscan : s.count (ofKind .scan) = 0 := ha
      have hlen := length_eq_kinds s
      have hblinks := hI.blinks
      have hproc := hI.processEvents
      refine Or.inr ?_
      unfold EventQueue.Room
      omega
    | blink | processEvents | scan | demoModeEnd => trivial
  | _ => trivial

/-- The kinds that an action posts. -/
theorem posts_kind {h : Handler} {e : Event Handler} (he : e ∈ posts a) (hk : ofKind h e = true) :
    (h = .blink ∧ a = .initReturn false) ∨ (h = .processEvents ∧ a = .scheduleBleEvents) ∨
    (h = .demoModeStart ∧ ∃ phys, a = .initComplete false phys) ∨
    ((h = .scan ∨ h = .onDurationEnd) ∧ ∃ per x y, a = .deliver ⟨.demoModeStart, per⟩ x y) ∨ h = .demoModeEnd := by
  have hkind : e.handler = h := of_decide_eq_true hk
  subst hkind
  unfold posts at he
  split at he <;> simp_all
  rcases he with rfl | rfl <;> simp

/-- A kind that the action does not post is not counted more often after it. -/
theorem count_kind_le (hen : Enabled s a) {h : Handler} (hp : ∀ e ∈ posts a, ofKind h e = false) :
    (next s a).count (ofKind h) ≤ s.count (ofKind h) := count_next_le hen hp

theorem blinks_tame (hI : Tamed n p s) (hen : Enabled s a) (ha : Tame n p s a) :
    (next s a).count (ofKind .blink) ≤ n := by
  by_cases hret : a = .initReturn false
  · subst hret
    have hlt : s.count (ofKind .blink) < n := ha
    have hadd := EventQueue.countP_postAll_le (q := s.eventQueue) (ofKind .blink) [blinkEvent]
    exact Nat.le_trans hadd hlt
  · refine Nat.le_trans (count_kind_le hen fun e he => ?_) hI.blinks
    rw [← Bool.not_eq_true]
    intro hk
    have hkind := posts_kind he hk
    simp_all

theorem processEvents_tame (hI : Tamed n p s) (hen : Enabled s a) (ha : Tame n p s a) :
    (next s a).count (ofKind .processEvents) ≤ p := by
  by_cases hsch : a = .scheduleBleEvents
  · subst hsch
    have hlt : s.count (ofKind .processEvents) < p := ha
    have hadd := EventQueue.countP_postAll_le (q := s.eventQueue) (ofKind .processEvents) [⟨.processEvents, false⟩]
    exact Nat.le_trans hadd hlt
  · refine Nat.le_trans (count_kind_le hen fun e he => ?_) hI.processEvents
    rw [← Bool.not_eq_true]
    intro hk
    have hkind := posts_kind he hk
    simp_all

/-- `demo_mode_start` posts `scan` and `on_duration_end` together. -/
theorem scans_demoModeStart (hI : Tamed n p s) (hcap : n + p + 3 ≤ s.eventQueue.capacity) {per x y : Bool}
    (he : ⟨.demoModeStart, per⟩ ∈ s.eventQueue.pending) :
    (next s (.deliver ⟨.demoModeStart, per⟩ x y)).count (ofKind .scan) ≤
      (next s (.deliver ⟨.demoModeStart, per⟩ x y)).count (ofKind .onDurationEnd) := by
  have hroom : s.eventQueue.Room (posts (.deliver ⟨.demoModeStart, per⟩ x y)).length := hI.room_demoModeStart hcap he
  have hscan := count_deliver (p := ofKind .scan) x y he
  have hdur := count_deliver (p := ofKind .onDurationEnd) x y he
  rw [EventQueue.countP_postAll _ _ hroom] at hscan hdur
  simp only [posts, ofKind, List.countP_cons, List.countP_nil, reduceCtorEq, decide_false, decide_true, Bool.false_eq_true,
    and_false, ↓reduceIte, Nat.add_zero, Nat.zero_add] at hscan hdur
  have hold := hI.scans
  unfold GapDevice.count ofKind at hold hscan hdur ⊢
  omega

theorem scans_tame (hI : Tamed n p s) (hcap : n + p + 3 ≤ s.eventQueue.capacity) (hen : Enabled s a)
    (ha : Tame n p s a) : (next s a).count (ofKind .scan) ≤ (next s a).count (ofKind .onDurationEnd) := by
  by_cases hstart : ∃ per x y, a = .deliver ⟨.demoModeStart, per⟩ x y
  · obtain ⟨per, x, y, rfl⟩ := hstart
    exact scans_demoModeStart hI hcap hen.2
  have hscan : (next s a).count (ofKind .scan) ≤ s.count (ofKind .scan) := by
    refine count_kind_le hen fun e he => ?_
    rw [← Bool.not_eq_true]
    intro hk
    have hkind := posts_kind he hk
    simp_all
  by_cases hend : ∃ per x y, a = .deliver ⟨.onDurationEnd, per⟩ x y
  · obtain ⟨per, x, y, rfl⟩ := hend
    have hnone : s.count (ofKind .scan) = 0 := ha
    omega
  · have hdur : (next s a).count (ofKind .onDurationEnd) = s.count (ofKind .onDurationEnd) := by
      refine count_next_eq hen (fun e he => ?_) fun e x y hdel _ => ?_
      · rw [← Bool.not_eq_true]
        intro hk
        have hkind := posts_kind he hk
        simp_all
      · obtain ⟨handler, per⟩ := e
        refine decide_eq_false fun h => hend ⟨per, x, y, ?_⟩
        rw [hdel]
        exact congrArg (fun h => Act.deliver ⟨h, per⟩ x y) h
    have hold := hI.scans
    omega

theorem tamed_step {t : GapDevice} (hI : Tamed n p s ∧ n + p + 3 ≤ s.eventQueue.capacity) (ha : Tame n p s a)
    (h : step s a = some t) : Tamed n p t ∧ n + p + 3 ≤ t.eventQueue.capacity := by
  obtain ⟨hI, hcap⟩ := hI
  have hconn : a ≠ .timeout .conn := by
    rintro rfl
    exact ha
  have hchain := oneChain_step hI.chain hconn h
  obtain ⟨hen, rfl⟩ := step_eq_some.mp h
  have hprog := progressing_step hI.progressing (hI.chainKept hcap hen ha) h
  refine ⟨⟨hchain, hprog, blinks_tame hI hen ha, processEvents_tame hI hen ha, scans_tame hI hcap hen ha⟩, ?_⟩
  rw [capacity_next]
  exact hcap

end Tame

theorem tamed_fresh (n p capacity : Nat) : Tamed n p (.fresh capacity) := by
  refine ⟨oneChain_fresh capacity, ?_, Nat.zero_le _, Nat.zero_le _, Nat.le_refl _⟩
  rintro (h | h) <;> cases h

/-- **Before the blinks have taken the queue nothing is lost**: in a tame run on a queue with three places more than blinks
and `process_events`, every state inside `dispatch_forever` has a link outstanding. -/
theorem outstanding_of_tame {n p capacity : Nat} {as : List Act} {s : GapDevice} (hcap : n + p + 3 ≤ capacity)
    (htame : Meets (Tame n p) step (.fresh capacity) as) (h : run step (.fresh capacity) as = some s)
    (hph : s.phase = .dispatching) : Outstanding s := by
  have hI := run_invariant_of_meets (fun s => Tamed n p s ∧ n + p + 3 ≤ s.eventQueue.capacity)
    ⟨tamed_fresh n p capacity, hcap⟩ (fun _ _ _ => tamed_step) htame h
  exact (outstanding_iff s).mpr (hI.1.progressing (Or.inr hph))

theorem outstanding_of_tame_goodInit : Outstanding afterGoodInit := by
  refine @outstanding_of_tame 1 0 32 goodInit afterGoodInit (by decide) ?_ (by decide) rfl
  refine ⟨trivial, fun t ht => ⟨?_, fun u _ => ⟨rfl, fun _ _ => trivial⟩⟩⟩
  cases ht
  exact Nat.one_pos

end PelionClient.Gap
