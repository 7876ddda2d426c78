import Mathlib.Data.List.Basic

/-!
# A bounded event queue

Events are posted to be delivered once or periodically. A post is dropped when the queue is full. A delivered event keeps
its place until its handler has returned; then a one-shot event is released (`finish`), while a periodic one stays queued
for the next period. Nothing else takes an event off the queue, so a periodic event that was accepted once stays for
good (`mem_finish_of_periodic`).
-/

namespace PelionClient.Lib

variable {α : Type*}

structure Event (α : Type*) where
  handler : α
  periodic : Bool
deriving DecidableEq, Repr

structure EventQueue (α : Type*) where
  capacity : Nat
  pending : List (Event α)
deriving DecidableEq, Repr

namespace EventQueue

variable {q : EventQueue α} {e d : Event α}

/-- Post an event, if there is room for it. -/
def post (q : EventQueue α) (e : Event α) : EventQueue α :=
  if q.pending.length < q.capacity then { q with pending := q.pending ++ [e] } else q

/-- `call` and `call_in`: one delivery. -/
def call (q : EventQueue α) (a : α) : EventQueue α := q.post ⟨a, false⟩

/-- `call_every`: a delivery each period. -/
def callEvery (q : EventQueue α) (a : α) : EventQueue α := q.post ⟨a, true⟩

/-- There is room for `n` more events. -/
def Room (q : EventQueue α) (n : Nat) : Prop := q.pending.length + n ≤ q.capacity

instance (q : EventQueue α) (n : Nat) : Decidable (q.Room n) := inferInstanceAs (Decidable (_ ≤ _))

@[simp] theorem capacity_post : (q.post e).capacity = q.capacity := by
  unfold post
  split <;> rfl

theorem post_of_room (h : q.Room 1) : q.post e = { q with pending := q.pending ++ [e] } := if_pos h

theorem mem_post (h : d ∈ q.pending) : d ∈ (q.post e).pending := by
  unfold post
  split
  · exact List.mem_append_left _ h
  · exact h

theorem mem_post_self (h : q.Room 1) : e ∈ (q.post e).pending := by
  simp [post_of_room h]

theorem length_post_le : (q.post e).pending.length ≤ q.pending.length + 1 := by
  unfold post
  split
  · simp
  · exact Nat.le_succ _

theorem countP_post_of_room (p : Event α → Bool) (h : q.Room 1) :
    (q.post e).pending.countP p = q.pending.countP p + if p e then 1 else 0 := by
  simp [post_of_room h, List.countP_append, List.countP_cons]

theorem countP_le_post (p : Event α → Bool) : q.pending.countP p ≤ (q.post e).pending.countP p := by
  unfold post
  split
  · simp [List.countP_append]
  · exact Nat.le_refl _

/-- A post that cannot be counted leaves the count. -/
theorem countP_post_of_neg {p : Event α → Bool} (h : ¬q.Room 1 ∨ p e = false) :
    (q.post e).pending.countP p = q.pending.countP p := by
  unfold post
  split
  · rename_i hroom
    have he : p e = false := h.resolve_left (fun hn => hn hroom)
    simp [List.countP_append, he]
  · rfl

theorem room_post {n : Nat} (h : q.Room (n + 1)) : (q.post e).Room n := by
  have hlen : (q.post e).pending.length ≤ q.pending.length + 1 := length_post_le
  unfold Room at *
  rw [capacity_post]
  omega

/-- Room after a post was room for one more before it. -/
theorem room_of_post {n : Nat} (hn : 0 < n) (h : (q.post e).Room n) : q.Room (n + 1) := by
  unfold Room post at *
  split at h
  · simp only [List.length_append, List.length_singleton] at h
    omega
  · omega

/-! ## Several posts in a row -/

def postAll (q : EventQueue α) (es : List (Event α)) : EventQueue α := es.foldl post q

@[simp] theorem postAll_nil : q.postAll [] = q := rfl

@[simp] theorem postAll_cons {es : List (Event α)} : q.postAll (e :: es) = (q.post e).postAll es := rfl

@[simp] theorem capacity_postAll (es : List (Event α)) : (q.postAll es).capacity = q.capacity := by
  induction es generalizing q with
  | nil => rfl
  | cons e es ih => rw [postAll_cons, ih, capacity_post]

theorem mem_postAll (es : List (Event α)) (h : d ∈ q.pending) : d ∈ (q.postAll es).pending := by
  induction es generalizing q with
  | nil => exact h
  | cons e es ih => exact ih (mem_post h)

theorem length_postAll_le (es : List (Event α)) :
    (q.postAll es).pending.length ≤ q.pending.length + es.length := by
  induction es generalizing q with
  | nil => exact Nat.le_refl _
  | cons e es ih =>
    have h1 : ((q.post e).postAll es).pending.length ≤ (q.post e).pending.length + es.length := ih
    have h2 : (q.post e).pending.length ≤ q.pending.length + 1 := length_post_le
    rw [postAll_cons, List.length_cons]
    omega

theorem countP_le_postAll (p : Event α → Bool) (es : List (Event α)) :
    q.pending.countP p ≤ (q.postAll es).pending.countP p := by
  induction es generalizing q with
  | nil => exact Nat.le_refl _
  | cons e es ih => exact Nat.le_trans (countP_le_post p) ih

/-- With room for all of them, all the posts are queued. -/
theorem pending_postAll (es : List (Event α)) (h : q.Room es.length) : (q.postAll es).pending = q.pending ++ es := by
  induction es generalizing q with
  | nil => exact (List.append_nil _).symm
  | cons e es ih =>
    rw [List.length_cons] at h
    have h1 : q.Room 1 := by
      unfold Room at *
      omega
    rw [postAll_cons, ih (room_post h), post_of_room h1, List.append_assoc, List.singleton_append]

/-- With room for all of them, all the posts are counted. -/
theorem countP_postAll (p : Event α → Bool) (es : List (Event α)) (h : q.Room es.length) :
    (q.postAll es).pending.countP p = q.pending.countP p + es.countP p := by
  induction es generalizing q with
  | nil => simp
  | cons e es ih =>
    rw [List.length_cons] at h
    have h1 : q.Room 1 := by
      unfold Room at *
      omega
    rw [postAll_cons, ih (room_post h), countP_post_of_room p h1, List.countP_cons, Nat.add_assoc,
      Nat.add_comm (es.countP p)]

/-- The posts that can be counted are the most that the count grows by. -/
theorem countP_postAll_le (p : Event α → Bool) (es : List (Event α)) :
    (q.postAll es).pending.countP p ≤ q.pending.countP p + es.countP p := by
  induction es generalizing q with
  | nil => exact Nat.le_refl _
  | cons e es ih =>
    have hrest : ((q.post e).postAll es).pending.countP p ≤ (q.post e).pending.countP p + es.countP p := ih
    have hone : (q.post e).pending.countP p ≤ q.pending.countP p + if p e then 1 else 0 := by
      unfold post
      split
      · simp [List.countP_append, List.countP_cons]
      · exact Nat.le_add_right _ _
    rw [postAll_cons, List.countP_cons]
    omega

/-- What is queued was queued or has been posted. -/
theorem mem_or_of_mem_postAll {es : List (Event α)} (h : d ∈ (q.postAll es).pending) : d ∈ q.pending ∨ d ∈ es := by
  induction es generalizing q with
  | nil => exact Or.inl h
  | cons e es ih =>
    rcases ih h with hpost | hes
    · unfold post at hpost
      split at hpost
      · rcases List.mem_append.mp hpost with hold | hnew
        · exact Or.inl hold
        · exact Or.inr (List.mem_cons.mpr (Or.inl (List.mem_singleton.mp hnew)))
      · exact Or.inl hpost
    · exact Or.inr (List.mem_cons_of_mem _ hes)

/-- Posts that cannot be counted leave the count. -/
theorem countP_postAll_of_neg {p : Event α → Bool} {es : List (Event α)} (h : ∀ e ∈ es, p e = false) :
    (q.postAll es).pending.countP p = q.pending.countP p := by
  induction es generalizing q with
  | nil => rfl
  | cons e es ih =>
    obtain ⟨he, hes⟩ := List.forall_mem_cons.mp h
    rw [postAll_cons, ih hes, countP_post_of_neg (Or.inr he)]

section Finish

variable [DecidableEq α]

/-- The handler of `e` has returned. -/
def finish (q : EventQueue α) (e : Event α) : EventQueue α :=
  if e.periodic then q else { q with pending := q.pending.erase e }

/-- A periodic event is never taken off the queue. -/
theorem mem_finish_of_periodic (hd : d.periodic = true) (h : d ∈ q.pending) : d ∈ (q.finish e).pending := by
  unfold finish
  split
  · exact h
  · rename_i he
    have hne : d ≠ e := by
      rintro rfl
      exact he hd
    exact (List.mem_erase_of_ne hne).mpr h

@[simp] theorem capacity_finish : (q.finish e).capacity = q.capacity := by
  unfold finish
  split <;> rfl

theorem mem_of_mem_finish (h : d ∈ (q.finish e).pending) : d ∈ q.pending := by
  unfold finish at h
  split at h
  · exact h
  · exact List.mem_of_mem_erase h

/-- A delivery releases one event at most, and it is the one delivered. -/
theorem countP_finish (p : Event α → Bool) (h : e ∈ q.pending) :
    q.pending.countP p = (q.finish e).pending.countP p + if e.periodic = false ∧ p e = true then 1 else 0 := by
  unfold finish
  cases hp : e.periodic with
  | true => simp
  | false => simp [(List.perm_cons_erase h).countP_eq, List.countP_cons]

end Finish

end EventQueue

end PelionClient.Lib
