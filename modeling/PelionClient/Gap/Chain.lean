import PelionClient.Gap.Progress
import PelionClient.Gap.Cycles

/-!
# One chain a cycle

Without connection timeouts each call of `run` starts one chain of actions towards `break_dispatch`, and the next call
comes only when the chain has ended: at most one link is outstanding, and none once `demo_mode_end` has run
(`oneChain_run`). So no cycle is cut short by what an earlier one has left on the queue.

The events of one kind are counted step by step (`count_next_le`, `count_next_eq`); `blink` is the only periodic one
(`onlyBlink_step`).
-/

namespace PelionClient.Gap

open Lib

/-! ## Events of a kind -/

/-- The pending events that meet `p`. -/
def GapDevice.count (s : GapDevice) (p : Event Handler → Bool) : Nat := s.eventQueue.pending.countP p

section Count

variable {s : GapDevice} {a : Act} {p : Event Handler → Bool}

theorem GapDevice.count_pos {e : Event Handler} (he : e ∈ s.eventQueue.pending) (hp : p e = true) : 0 < s.count p :=
  List.countP_pos_iff.mpr ⟨e, he, hp⟩

/-- The events that meet `p` after a delivery: those after its posts, less the one delivered. -/
theorem count_deliver {e : Event Handler} (x y : Bool) (he : e ∈ s.eventQueue.pending) :
    (next s (.deliver e x y)).count p + (if e.periodic = false ∧ p e = true then 1 else 0) =
      (s.eventQueue.postAll (posts (.deliver e x y))).pending.countP p := by
  have hmem : e ∈ (s.eventQueue.postAll (posts (.deliver e x y))).pending := EventQueue.mem_postAll _ he
  rw [GapDevice.count, next_eventQueue, queueAfter, EventQueue.countP_finish p hmem]

/-- An action that posts none of them leaves no more of them than there are. -/
theorem count_next_le (hen : Enabled s a) (hp : ∀ e ∈ posts a, p e = false) : (next s a).count p ≤ s.count p := by
  have hposts := EventQueue.countP_postAll_of_neg (q := s.eventQueue) hp
  cases a with
  | deliver e x y =>
    have hdel := count_deliver (p := p) x y hen.2
    rw [hposts] at hdel
    exact Nat.le.intro hdel
  | _ =>
    rw [GapDevice.count, next_eventQueue]
    exact Nat.le_of_eq hposts

/-- And as many of them, if none is released. -/
theorem count_next_eq (hen : Enabled s a) (hp : ∀ e ∈ posts a, p e = false)
    (hkeep : ∀ e x y, a = .deliver e x y → e.periodic = false → p e = false) : (next s a).count p = s.count p := by
  have hposts := EventQueue.countP_postAll_of_neg (q := s.eventQueue) hp
  cases a with
  | deliver e x y =>
    have hdel := count_deliver (p := p) x y hen.2
    have hnot : ¬(e.periodic = false ∧ p e = true) := by
      rintro ⟨hper, he⟩
      rw [hkeep e x y rfl hper] at he
      cases he
    rw [hposts, if_neg hnot] at hdel
    exact hdel
  | _ =>
    rw [GapDevice.count, next_eventQueue]
    exact hposts

end Count

/-! ## The periodic event -/

/-- Nothing but `blink` is periodic. -/
def OnlyBlink (s : GapDevice) : Prop := ∀ e ∈ s.eventQueue.pending, e.periodic = true → e = blinkEvent

theorem posts_onlyBlink (a : Act) : ∀ e ∈ posts a, e.periodic = true → e = blinkEvent := by
  unfold posts
  split <;> simp [blinkEvent]

theorem onlyBlink_step {s t : GapDevice} {a : Act} (hI : OnlyBlink s) (h : step s a = some t) : OnlyBlink t := by
  obtain ⟨_, rfl⟩ := step_eq_some.mp h
  intro e he hper
  rw [next_eventQueue] at he
  have hposted : e ∈ (s.eventQueue.postAll (posts a)).pending := by
    cases a with
    | deliver d x y => exact EventQueue.mem_of_mem_finish he
    | _ => exact he
  rcases EventQueue.mem_or_of_mem_postAll hposted with hold | hnew
  · exact hI e hold hper
  · exact posts_onlyBlink a e hnew hper

/-- A link is delivered once. -/
theorem OnlyBlink.oneShot {s : GapDevice} (hI : OnlyBlink s) {e : Event Handler} (he : e ∈ s.eventQueue.pending)
    (hlink : isLink e = true) : e.periodic = false := by
  cases hper : e.periodic with
  | false => rfl
  | true =>
    rw [hI e he hper] at hlink
    cases hlink

/-! ## The links -/

/-- A link after `demo_mode_start`. -/
def isLate (e : Event Handler) : Bool :=
  match e.handler with
  | .onDurationEnd | .demoModeEnd => true
  | _ => false

theorem isLink_of_isLate {e : Event Handler} (h : isLate e = true) : isLink e = true := by
  obtain ⟨h', per⟩ := e
  cases h' with
  | onDurationEnd | demoModeEnd => rfl
  | blink | processEvents | demoModeStart | scan => cases h

theorem GapDevice.late_le (s : GapDevice) : s.count isLate ≤ s.count isLink :=
  List.countP_mono_left fun _ _ h => isLink_of_isLate h

theorem GapDevice.links_eq (s : GapDevice) : s.links = s.initPending + s.count isLink := rfl

section Links

variable {s : GapDevice}

/-- A link that posts one link leaves no more links than there are. -/
theorem links_deliver_le (hI : OnlyBlink s) {e : Event Handler} (x y : Bool) (he : e ∈ s.eventQueue.pending)
    (hlink : isLink e = true) (hposts : (posts (.deliver e x y)).countP isLink ≤ 1) :
    (next s (.deliver e x y)).links ≤ s.links := by
  have hl := links_deliver x y he
  have hadd := EventQueue.countP_postAll_le (q := s.eventQueue) isLink (posts (.deliver e x y))
  rw [if_pos ⟨hI.oneShot he hlink, hlink⟩] at hl
  unfold GapDevice.links at hl ⊢
  omega

/-- `demo_mode_end` posts nothing. -/
theorem links_demoModeEnd (hI : OnlyBlink s) {per x y : Bool} (he : ⟨.demoModeEnd, per⟩ ∈ s.eventQueue.pending) :
    (next s (.deliver ⟨.demoModeEnd, per⟩ x y)).links + 1 = s.links := by
  have hl := links_deliver x y he
  rw [if_pos ⟨hI.oneShot he rfl, rfl⟩] at hl
  exact hl

/-- **Only `run` and a connection timeout add a link.** -/
theorem links_next_le (hI : OnlyBlink s) {a : Act} (hen : Enabled s a) (hrun : a ≠ .run) (hconn : a ≠ .timeout .conn) :
    (next s a).links ≤ s.links := by
  cases a with
  | run => exact absurd rfl hrun
  | initReturn error =>
    cases error with
    | true => exact Nat.add_le_add_right (Nat.sub_le _ _) _
    | false =>
      have hcount : (next s (.initReturn false)).count isLink = s.count isLink :=
        count_next_eq hen (by simp [posts, isLink]) (by simp)
      exact Nat.add_le_add_left (Nat.le_of_eq hcount) _
  | initComplete error physError =>
    have hpend : 0 < s.initPending := hen.2
    have hadd := EventQueue.countP_postAll_le (q := s.eventQueue) isLink (posts (.initComplete error physError))
    have hone : (posts (.initComplete error physError)).countP isLink ≤ 1 := by
      cases error with
      | true => exact Nat.zero_le 1
      | false => exact Nat.le_refl 1
    rw [links_initComplete]
    unfold GapDevice.links
    omega
  | timeout source =>
    cases source with
    | conn => exact absurd rfl hconn
    | advertising | scan | other => exact Nat.le_refl _
  | scheduleBleEvents =>
    have hcount : (next s .scheduleBleEvents).count isLink = s.count isLink :=
      count_next_eq hen (by simp [posts, isLink]) (by simp)
    exact Nat.add_le_add_left (Nat.le_of_eq hcount) _
  | advertisement | dispatchReturn => exact Nat.le_refl _
  | deliver e x y =>
    obtain ⟨h, per⟩ := e
    cases h with
    | demoModeStart | onDurationEnd | demoModeEnd => exact links_deliver_le hI x y hen.2 rfl (by simp [posts, isLink])
    | blink | processEvents | scan =>
      exact Nat.le.intro (links_deliver x y hen.2)

end Links

/-! ## One chain -/

/-- At most one link; none after `demo_mode_end`, and none when `run` is about to start a chain. In `_ble.init` the chain
has not gone past `demo_mode_start`, and not past the callback unless the stack has initialised. -/
structure OneChain (s : GapDevice) : Prop where
  onlyBlink : OnlyBlink s
  one : s.links ≤ 1
  ended : s.phase = .breaking ∨ (s.phase = .outside ∧ s.hasInitialized = false) → s.links = 0
  waiting : s.phase = .initialising → s.hasInitialized = false → s.count isLink = 0
  early : s.phase = .initialising → s.count isLate = 0

theorem oneChain_fresh (capacity : Nat) : OneChain (.fresh capacity) := by
  refine ⟨?_, Nat.zero_le 1, fun _ => rfl, fun _ _ => rfl, fun _ => rfl⟩
  intro e he
  cases he

theorem count_late_eq_zero {s : GapDevice} (h : s.links = 0) : s.count isLate = 0 := by
  have hle := s.late_le
  rw [s.links_eq] at h
  omega

section Step

variable {s : GapDevice}

/-- `run` starts a chain where there was none. -/
theorem oneChain_run_action (hI : OneChain s) (hen : Enabled s .run) : OneChain (next s .run) := by
  have hout : s.phase = .outside := hen
  simp only [next]
  split
  · exact hI
  · rename_i hnot
    have hinit : s.hasInitialized = false := by simpa using hnot
    have hzero := hI.ended (Or.inr ⟨hout, hinit⟩)
    have hsum := s.links_eq
    refine ⟨hI.onlyBlink, ?_, ?_, ?_, ?_⟩
    · show s.initPending + 1 + s.count isLink ≤ 1
      omega
    · rintro (h | ⟨h, _⟩) <;> cases h
    · intro _ _
      show s.count isLink = 0
      omega
    · intro _
      show s.count isLate = 0
      exact count_late_eq_zero hzero

/-- `_ble.init` returns. -/
theorem oneChain_initReturn (hI : OneChain s) {error : Bool} (hen : Enabled s (.initReturn error))
    (honly : OnlyBlink (next s (.initReturn error))) : OneChain (next s (.initReturn error)) := by
  have hph : s.phase = .initialising := hen
  have hle := links_next_le hI.onlyBlink hen (by simp) (by simp)
  refine ⟨honly, Nat.le_trans hle hI.one, ?_, ?_, ?_⟩
  · cases error with
    | false => rintro (h | ⟨h, _⟩) <;> cases h
    | true =>
      -- the stack drops the callback that it owed
      rintro (h | ⟨_, hinit⟩)
      · cases h
      · have hcount := hI.waiting hph hinit
        have hone := hI.one
        rw [s.links_eq] at hone
        show s.initPending - 1 + s.count isLink = 0
        omega
  · cases error <;> intro h <;> cases h
  · cases error <;> intro h <;> cases h

/-- The stack reports how the initialisation went. -/
theorem oneChain_initComplete (hI : OneChain s) {error physError : Bool} (hen : Enabled s (.initComplete error physError))
    (honly : OnlyBlink (next s (.initComplete error physError))) : OneChain (next s (.initComplete error physError)) := by
  have hph : (next s (.initComplete error physError)).phase = s.phase :=
    next_phase s (by simp) (by simp) (by simp) (by simp)
  have hle := links_next_le hI.onlyBlink hen (by simp) (by simp)
  have hlate : (next s (.initComplete error physError)).count isLate = s.count isLate :=
    count_next_eq hen (by cases error <;> simp [posts, isLate]) (by simp)
  refine ⟨honly, Nat.le_trans hle hI.one, ?_, ?_, ?_⟩
  · rw [hph]
    rintro (h | ⟨h, _⟩)
    · have hzero := hI.ended (Or.inl h)
      omega
    · exact absurd h hen.1
  · rw [hph]
    intro h hinit
    cases error with
    | true =>
      have hno : s.hasInitialized = false := by simpa [next, onInitComplete] using hinit
      exact hI.waiting h hno
    | false => simp [next, onInitComplete, GapDevice.call] at hinit
  · rw [hph, hlate]
    exact hI.early

/-- Only `demo_mode_end` breaks the dispatch. -/
theorem phase_deliver {e : Event Handler} (x y : Bool) (he : e.handler ≠ .demoModeEnd) :
    (next s (.deliver e x y)).phase = s.phase := by
  refine next_phase s (by simp) (by simp) (by simp) fun per p q h => he ?_
  injection h with h
  rw [h]

/-- A delivery leaves `run` dispatching, or ends the chain. -/
theorem oneChain_deliver (hI : OneChain s) {e : Event Handler} {x y : Bool} (hen : Enabled s (.deliver e x y))
    (honly : OnlyBlink (next s (.deliver e x y))) : OneChain (next s (.deliver e x y)) := by
  have hle := links_next_le hI.onlyBlink hen (by simp) (by simp)
  by_cases hend : e.handler = .demoModeEnd
  · obtain ⟨handler, per⟩ := e
    obtain rfl : handler = .demoModeEnd := hend
    have hone := hI.one
    have hdown := links_demoModeEnd (x := x) (y := y) hI.onlyBlink hen.2
    refine ⟨honly, by omega, fun _ => by omega, ?_, ?_⟩ <;> intro h <;> cases h
  · have hph := phase_deliver (s := s) x y hend
    have hdisp : s.phase ≠ .initialising ∧ s.phase ≠ .outside := by
      rcases hen.1 with h | h <;> simp [h]
    refine ⟨honly, Nat.le_trans hle hI.one, ?_, ?_, ?_⟩
    · rw [hph]
      rintro (h | ⟨h, _⟩)
      · have hzero := hI.ended (Or.inl h)
        omega
      · exact absurd h hdisp.2
    · rw [hph]
      exact fun h => absurd h hdisp.1
    · rw [hph]
      exact fun h => absurd h hdisp.1

/-- The actions of the stack that leave phase, flag and links alone. -/
theorem oneChain_same {t : GapDevice} (hI : OneChain s) (honly : OnlyBlink t) (hphase : t.phase = s.phase)
    (hinit : t.hasInitialized = s.hasInitialized) (hpend : t.initPending = s.initPending)
    (hlink : t.count isLink = s.count isLink) (hlate : t.count isLate = s.count isLate) : OneChain t := by
  have hlinks : t.links = s.links := by rw [t.links_eq, s.links_eq, hpend, hlink]
  refine ⟨honly, ?_, ?_, ?_, ?_⟩
  · rw [hlinks]; exact hI.one
  · rw [hphase, hinit, hlinks]; exact hI.ended
  · rw [hphase, hinit, hlink]; exact hI.waiting
  · rw [hphase, hlate]; exact hI.early

/-- **A step that is no connection timeout keeps the one chain.** -/
theorem oneChain_step {t : GapDevice} {a : Act} (hI : OneChain s) (hconn : a ≠ .timeout .conn) (h : step s a = some t) :
    OneChain t := by
  have honly := onlyBlink_step hI.onlyBlink h
  obtain ⟨hen, rfl⟩ := step_eq_some.mp h
  cases a with
  | run => exact oneChain_run_action hI hen
  | initReturn error => exact oneChain_initReturn hI hen honly
  | initComplete error physError => exact oneChain_initComplete hI hen honly
  | deliver e x y => exact oneChain_deliver hI hen honly
  | scheduleBleEvents =>
    have hlink : (next s .scheduleBleEvents).count isLink = s.count isLink :=
      count_next_eq hen (by simp [posts, isLink]) (by simp)
    have hlate : (next s .scheduleBleEvents).count isLate = s.count isLate :=
      count_next_eq hen (by simp [posts, isLate]) (by simp)
    exact oneChain_same hI honly rfl rfl rfl hlink hlate
  | timeout source =>
    cases source with
    | conn => exact absurd rfl hconn
    | advertising | scan | other => exact hI
  | advertisement => exact oneChain_same hI honly rfl rfl rfl rfl rfl
  | dispatchReturn =>
    have hzero := hI.ended (Or.inl hen)
    refine ⟨honly, hI.one, fun _ => hzero, ?_, ?_⟩ <;> intro h <;> cases h

end Step

/-- No connection attempt times out. -/
def Quiet (as : List Act) : Prop := .timeout .conn ∉ as

instance (as : List Act) : Decidable (Quiet as) := inferInstanceAs (Decidable (¬_ ∈ as))

/-- What the steps without a connection timeout keep, a quiet run keeps. -/
theorem quiet_run (I : GapDevice → Prop) {s t : GapDevice} {as : List Act} (h0 : I s)
    (hs : ∀ s a t, I s → a ≠ .timeout .conn → step s a = some t → I t) (hquiet : Quiet as) (h : run step s as = some t) :
    I t := by
  refine run_invariant_of_meets I h0 hs ?_ h
  clear h h0
  induction as generalizing s with
  | nil => trivial
  | cons a as ih =>
    rw [Quiet, List.mem_cons, not_or] at hquiet
    obtain ⟨ha, has⟩ := hquiet
    exact ⟨Ne.symm ha, fun u _ => ih has⟩

theorem oneChain_of_quiet {capacity : Nat} {as : List Act} {s : GapDevice} (hquiet : Quiet as)
    (h : run step (.fresh capacity) as = some s) : OneChain s :=
  quiet_run OneChain (oneChain_fresh capacity) (fun _ _ _ => oneChain_step) hquiet h

/-- **A cycle starts with no link and ends with none**, and has one at most in between. -/
theorem oneChain_run {capacity : Nat} {as : List Act} {s : GapDevice} (hquiet : Quiet as)
    (h : run step (.fresh capacity) as = some s) :
    s.links ≤ 1 ∧ (s.phase = .breaking ∨ (s.phase = .outside ∧ s.hasInitialized = false) → ¬Outstanding s) := by
  have hI := oneChain_of_quiet hquiet h
  refine ⟨hI.one, fun hph => ?_⟩
  rw [outstanding_iff, hI.ended hph]
  exact Nat.lt_irrefl 0

/-- One undisturbed cycle leaves no link. -/
theorem oneChain_quietCycle : afterQuietCycle.links ≤ 1 ∧ (afterQuietCycle.phase = .breaking ∨
    (afterQuietCycle.phase = .outside ∧ afterQuietCycle.hasInitialized = false) → ¬Outstanding afterQuietCycle) :=
  @oneChain_run 32 (.run :: .initReturn false :: (quietCycle ++ [.dispatchReturn])) afterQuietCycle (by decide) (by decide)

end PelionClient.Gap
