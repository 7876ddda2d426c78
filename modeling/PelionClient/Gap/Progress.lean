import PelionClient.Gap.Device

/-!
# Whether a scan cycle can end

`dispatch_forever` ends after `demo_mode_end`, which is reached along a chain: `on_init_complete` posts `demo_mode_start`,
which posts `on_duration_end`, which posts `demo_mode_end`. A link of the chain is lost where `on_init_complete` returns
early on an error, and where a full queue drops the post of the next link. A step that loses no last link (`ChainKept`)
keeps a link outstanding (`links_step`), so in a run of such steps some link is outstanding whenever the object is inside
`dispatch_forever` (`outstanding_of_chainKept`). A step that does lose the last link leaves none (`stuck_of_lost`).
-/

namespace PelionClient.Gap

open Lib

/-- A pending event on the way to `break_dispatch`. -/
def isLink (e : Event Handler) : Bool :=
  match e.handler with
  | .demoModeStart | .onDurationEnd | .demoModeEnd => true
  | _ => false

/-- The actions outstanding that lead to `break_dispatch`: initialisation callbacks and pending events. -/
def GapDevice.links (s : GapDevice) : Nat := s.initPending + s.eventQueue.pending.countP isLink

/-- The initialisation callback, `demo_mode_start`, `on_duration_end` or `demo_mode_end` is outstanding. -/
def Outstanding (s : GapDevice) : Prop :=
  0 < s.initPending ∨ ∃ e ∈ s.eventQueue.pending,
    e.handler = .demoModeStart ∨ e.handler = .onDurationEnd ∨ e.handler = .demoModeEnd

theorem isLink_iff (e : Event Handler) :
    isLink e = true ↔ e.handler = .demoModeStart ∨ e.handler = .onDurationEnd ∨ e.handler = .demoModeEnd := by
  obtain ⟨h, p⟩ := e
  cases h <;> simp [isLink]

theorem outstanding_iff (s : GapDevice) : Outstanding s ↔ 0 < s.links := by
  unfold Outstanding GapDevice.links
  rw [Nat.add_pos_iff_pos_or_pos, List.countP_pos_iff]
  simp only [isLink_iff]

/-- The step does not lose the last link: the initialisation completes without an error, and a link that posts the next
one finds room for it. -/
def ChainKept (s : GapDevice) : Act → Prop
  | .initComplete error _ => 2 ≤ s.links ∨ (error = false ∧ s.eventQueue.Room 1)
  | .deliver ⟨.demoModeStart, _⟩ _ _ => 2 ≤ s.links ∨ s.eventQueue.Room 2
  | .deliver ⟨.onDurationEnd, _⟩ _ _ => 2 ≤ s.links ∨ s.eventQueue.Room 1
  | _ => True

/-! ## One step -/

theorem initPending_handle (s : GapDevice) (p q : Bool) (h : Handler) :
    (handle s p q h).initPending = s.initPending := by
  cases h with
  | scan => exact (scan_queue s p q).2.2
  | blink | processEvents | demoModeStart | onDurationEnd | demoModeEnd => rfl

/-- The links after a delivery: those after its posts, less the one delivered. -/
theorem links_deliver {s : GapDevice} {e : Event Handler} (p q : Bool) (he : e ∈ s.eventQueue.pending) :
    (next s (.deliver e p q)).links + (if e.periodic = false ∧ isLink e = true then 1 else 0) =
      s.initPending + (s.eventQueue.postAll (posts (.deliver e p q))).pending.countP isLink := by
  have hmem : e ∈ (s.eventQueue.postAll (posts (.deliver e p q))).pending := EventQueue.mem_postAll _ he
  have hinit : (next s (.deliver e p q)).initPending = s.initPending := initPending_handle s p q e.handler
  rw [GapDevice.links, next_eventQueue, hinit, queueAfter, EventQueue.countP_finish isLink hmem, Nat.add_assoc]

/-- The links after an initialisation callback. -/
theorem links_initComplete (s : GapDevice) (error physError : Bool) :
    (next s (.initComplete error physError)).links =
      s.initPending - 1 + (s.eventQueue.postAll (posts (.initComplete error physError))).pending.countP isLink := by
  cases error <;> rfl

/-- Every other action that stays in `run` leaves the links there are. -/
theorem links_le_next (s : GapDevice) {a : Act} (hinit : a ≠ .initReturn true) (hcb : ∀ e p, a ≠ .initComplete e p)
    (hdel : ∀ e p q, a ≠ .deliver e p q) : s.links ≤ (next s a).links := by
  have hcount : s.eventQueue.pending.countP isLink ≤ (next s a).eventQueue.pending.countP isLink := by
    rw [next_eventQueue]
    cases a with
    | deliver e p q => exact absurd rfl (hdel e p q)
    | _ => exact EventQueue.countP_le_postAll isLink _
  have hpend : s.initPending ≤ (next s a).initPending := by
    cases a with
    | run =>
      simp only [next]
      split
      · exact Nat.le_refl _
      · exact Nat.le_succ _
    | initReturn error =>
      cases error with
      | true => exact absurd rfl hinit
      | false => exact Nat.le_refl _
    | initComplete e p => exact absurd rfl (hcb e p)
    | deliver e p q => exact absurd rfl (hdel e p q)
    | timeout source => cases source <;> exact Nat.le_refl _
    | scheduleBleEvents | advertisement | dispatchReturn => exact Nat.le_refl _
  exact Nat.add_le_add hpend hcount

/-- A delivered link leaves a link if there was another, or if there is room for its posts and a link is among them. -/
theorem links_deliver_pos {s : GapDevice} {e : Event Handler} (p q : Bool) (he : e ∈ s.eventQueue.pending)
    (hlink : isLink e = true) (hposts : (posts (.deliver e p q)).countP isLink = 1)
    (hc : 2 ≤ s.links ∨ s.eventQueue.Room (posts (.deliver e p q)).length) : 0 < (next s (.deliver e p q)).links := by
  have hl := links_deliver p q he
  have hself : 0 < s.eventQueue.pending.countP isLink := List.countP_pos_iff.mpr ⟨e, he, hlink⟩
  rcases hc with h2 | hroom
  · have hle : s.eventQueue.pending.countP isLink ≤
        (s.eventQueue.postAll (posts (.deliver e p q))).pending.countP isLink := EventQueue.countP_le_postAll isLink _
    unfold GapDevice.links at h2
    split at hl <;> omega
  · have hadd := EventQueue.countP_postAll isLink (posts (.deliver e p q)) hroom
    split at hl <;> omega

/-- **A step that keeps the chain leaves a link**, where there was one and the dispatch goes on. -/
theorem links_step {s : GapDevice} {a : Act} (hpos : 0 < s.links) (hen : Enabled s a) (hc : ChainKept s a)
    (hinit : a ≠ .initReturn true) (hend : ∀ per p q, a ≠ .deliver ⟨.demoModeEnd, per⟩ p q) :
    0 < (next s a).links := by
  cases a with
  | initComplete error physError =>
    rw [links_initComplete]
    rcases hc with h2 | ⟨rfl, hroom⟩
    · have hle : s.eventQueue.pending.countP isLink ≤
          (s.eventQueue.postAll (posts (.initComplete error physError))).pending.countP isLink :=
        EventQueue.countP_le_postAll isLink _
      unfold GapDevice.links at h2
      omega
    · have hadd := EventQueue.countP_postAll isLink (posts (.initComplete false physError)) hroom
      have hone : (posts (.initComplete false physError)).countP isLink = 1 := rfl
      omega
  | deliver e p q =>
    have hl := links_deliver p q hen.2
    have hle : s.eventQueue.pending.countP isLink ≤
        (s.eventQueue.postAll (posts (.deliver e p q))).pending.countP isLink := EventQueue.countP_le_postAll isLink _
    obtain ⟨h, per⟩ := e
    cases h with
    | demoModeEnd => exact absurd rfl (hend per p q)
    | demoModeStart => exact links_deliver_pos p q hen.2 rfl rfl hc
    | onDurationEnd => exact links_deliver_pos p q hen.2 rfl rfl hc
    | blink | processEvents | scan =>
      simp only [isLink, Bool.false_eq_true, and_false, ↓reduceIte, Nat.add_zero] at hl
      rw [hl]
      exact Nat.lt_of_lt_of_le hpos (Nat.add_le_add_left hle _)
  | _ => exact Nat.lt_of_lt_of_le hpos (links_le_next s hinit (by simp) (by simp))

/-! ## Runs -/

/-- Some link is outstanding while `run` initialises and dispatches. -/
def Progressing (s : GapDevice) : Prop := s.phase = .initialising ∨ s.phase = .dispatching → 0 < s.links

theorem progressing_step {s t : GapDevice} {a : Act} (hI : Progressing s) (hc : ChainKept s a)
    (h : step s a = some t) : Progressing t := by
  obtain ⟨hen, rfl⟩ := step_eq_some.mp h
  intro hph
  by_cases hrun : a = .run
  · subst hrun
    have hout : s.phase = .outside := hen
    simp only [next] at hph ⊢
    split
    · rename_i hinit
      rw [if_pos hinit, hout] at hph
      rcases hph with hph | hph <;> cases hph
    · exact Nat.add_pos_left (Nat.succ_pos _) _
  by_cases hret : a = .dispatchReturn
  · subst hret
    rcases hph with hph | hph <;> cases hph
  by_cases hend : ∃ per p q, a = .deliver ⟨.demoModeEnd, per⟩ p q
  · obtain ⟨per, p, q, rfl⟩ := hend
    rcases hph with hph | hph <;> cases hph
  have hend' : ∀ per p q, a ≠ .deliver ⟨.demoModeEnd, per⟩ p q := fun per p q he => hend ⟨per, p, q, he⟩
  by_cases hinit : ∃ error, a = .initReturn error
  · obtain ⟨error, rfl⟩ := hinit
    cases error with
    | true => rcases hph with hph | hph <;> cases hph
    | false => exact links_step (hI (Or.inl hen)) hen hc (by simp) hend'
  · have hinit' : ∀ error, a ≠ .initReturn error := fun error he => hinit ⟨error, he⟩
    rw [next_phase s hrun hinit' hret hend'] at hph
    exact links_step (hI hph) hen hc (hinit' true) hend'

/-- **In a run whose steps keep the chain, an action that leads to `break_dispatch` is outstanding whenever the object is
inside `dispatch_forever`.** -/
theorem outstanding_of_chainKept {capacity : Nat} {as : List Act} {s : GapDevice}
    (hc : Meets ChainKept step (.fresh capacity) as) (h : run step (.fresh capacity) as = some s)
    (hph : s.phase = .dispatching) : Outstanding s := by
  have hI : Progressing s := by
    refine run_invariant_of_meets Progressing ?_ (fun _ _ _ => progressing_step) hc h
    rintro (hph | hph) <;> cases hph
  exact (outstanding_iff s).mpr (hI (Or.inr hph))

/-! ## A lost link -/

/-- **A step that loses the last link leaves none**, so the condition on the steps is exact. -/
theorem stuck_of_lost {s : GapDevice} {a : Act} (hen : Enabled s a) (hone : ∀ e p q, a = .deliver e p q → e.periodic = false)
    (hc : ¬ChainKept s a) : ¬Outstanding (next s a) := by
  rw [outstanding_iff, Nat.not_lt, Nat.le_zero_eq]
  cases a with
  | initComplete error physError =>
    obtain ⟨h2, hpost⟩ := not_or.mp hc
    have hpend : 0 < s.initPending := hen.2
    have hsame : (s.eventQueue.postAll (posts (.initComplete error physError))).pending.countP isLink =
        s.eventQueue.pending.countP isLink := by
      cases error with
      | true => rfl
      | false => exact EventQueue.countP_post_of_neg (Or.inl fun hroom => hpost ⟨rfl, hroom⟩)
    rw [links_initComplete, hsame]
    unfold GapDevice.links at h2
    omega
  | deliver e p q =>
    have hl := links_deliver p q hen.2
    obtain ⟨h, per⟩ := e
    have hper : per = false := hone _ p q rfl
    subst hper
    cases h with
    | demoModeStart =>
      obtain ⟨h2, hroom⟩ := not_or.mp hc
      have hself : 0 < s.eventQueue.pending.countP isLink := List.countP_pos_iff.mpr ⟨_, hen.2, rfl⟩
      -- `scan` takes the last place, if there is one
      have hsame : (s.eventQueue.postAll (posts (.deliver ⟨.demoModeStart, false⟩ p q))).pending.countP isLink =
          s.eventQueue.pending.countP isLink := by
        have hscan : (s.eventQueue.post ⟨.scan, false⟩).pending.countP isLink = s.eventQueue.pending.countP isLink :=
          EventQueue.countP_post_of_neg (Or.inr rfl)
        have hfull : ¬(s.eventQueue.post ⟨.scan, false⟩).Room 1 := fun h1 =>
          hroom (EventQueue.room_of_post Nat.one_pos h1)
        exact (EventQueue.countP_post_of_neg (Or.inl hfull)).trans hscan
      simp only [isLink, and_self, ↓reduceIte] at hl
      unfold GapDevice.links at h2
      omega
    | onDurationEnd =>
      obtain ⟨h2, hroom⟩ := not_or.mp hc
      have hself : 0 < s.eventQueue.pending.countP isLink := List.countP_pos_iff.mpr ⟨_, hen.2, rfl⟩
      have hsame : (s.eventQueue.postAll (posts (.deliver ⟨.onDurationEnd, false⟩ p q))).pending.countP isLink =
          s.eventQueue.pending.countP isLink := EventQueue.countP_post_of_neg (Or.inl hroom)
      simp only [isLink, and_self, ↓reduceIte] at hl
      unfold GapDevice.links at h2
      omega
    | blink | processEvents | scan | demoModeEnd => exact absurd trivial hc
  | _ => exact absurd trivial hc

/-! ## Runs on a small scale -/

/-- The stack reports a failed initialisation while `run` is dispatching. -/
def failedInit : List Act := [.run, .initReturn false, .initComplete true false]

/-- After a failed initialisation only `blink` is left: nothing ends the dispatch. -/
theorem failedInit_stuck : ∃ s, run step (.fresh 32) failedInit = some s ∧ s.phase = .dispatching ∧ ¬Outstanding s := by
  refine ⟨⟨.dispatching, false, 0, false, ⟨32, [⟨.blink, true⟩]⟩, 0, 0⟩, by decide, rfl, ?_⟩
  rw [outstanding_iff]
  decide

/-- The same with an initialisation that succeeds. -/
def goodInit : List Act := [.run, .initReturn false, .initComplete false true]

def afterGoodInit : GapDevice :=
  ⟨.dispatching, true, 0, false, ⟨32, [⟨.blink, true⟩, ⟨.demoModeStart, false⟩]⟩, 0, 0⟩

theorem goodInit_outstanding : Outstanding afterGoodInit := by
  refine @outstanding_of_chainKept 32 goodInit afterGoodInit ?_ (by decide) rfl
  refine ⟨trivial, fun t ht => ⟨trivial, fun u hu => ⟨Or.inr ⟨rfl, ?_⟩, fun _ _ => trivial⟩⟩⟩
  cases ht
  cases hu
  decide

end PelionClient.Gap
