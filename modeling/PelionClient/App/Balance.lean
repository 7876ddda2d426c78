import PelionClient.App.Fcc
import PelionClient.Lib.Trace

/-!
# Whether the client is finalised once

An accepted `fcc_init` should be undone by one `fcc_finalize` if the start-up fails, and by none if it succeeds (`Balanced`).
Only `mcc_platform_sotp_init` and its caller `mcc_platform_fcc_init` finalise: both of them, if the first one fails at
initialisation, and neither if a reset, a reformat or a check fails. So the start-up is balanced exactly if none of these
happens (`balanced_iff`).

While the client is open (`Open`), what is left to do decides: a success is balanced and a failure is not
(`balanced_of_open`), and one `fcc_finalize` closes it (`balanced_of_closed`).
-/

namespace PelionClient.App

open Lib

/-- A call to the factory configurator client. -/
def Call.isFcc : Call → Bool
  | .reformatStorage _ => false
  | _ => true

/-- An accepted `fcc_init`. -/
def Call.AcceptedInit (b : Build) : Call → Prop
  | .fccInit status => status = 0 ∨ status = b.entropyError ∨ status = b.rotError
  | _ => False

/-- An accepted `fcc_init` has not been finalised. -/
def Open (b : Build) (calls : List Call) : Prop := (∃ x ∈ calls, x.AcceptedInit b) ∧ .finalize ∉ calls

/-- The client is finalised only while it is open, and used no more after that; and it is finalised once if the start-up
failed after an accepted `fcc_init`, and never if it succeeded. -/
structure Balanced (b : Build) (failed : Bool) (calls : List Call) : Prop where
  whileOpen : EachAfter (fun pre x => x = .finalize → Open b pre) calls
  last : EachAfter (fun pre x => .finalize ∈ pre → x.isFcc = true → x = .finalize) calls
  success : failed = false → .finalize ∉ calls
  failure : failed = true → (∃ x ∈ calls, x.AcceptedInit b) → calls.count .finalize = 1

/-! ## Open and closed traces -/

section Traces

variable {b : Build} {failed : Bool} {calls added : List Call}

theorem Open.append (h : Open b calls) (hadded : .finalize ∉ added) : Open b (calls ++ added) := by
  obtain ⟨⟨x, hx, hinit⟩, hnone⟩ := h
  refine ⟨⟨x, List.mem_append_left _ hx, hinit⟩, ?_⟩
  rw [List.mem_append]
  rintro (hmem | hmem)
  · exact hnone hmem
  · exact hadded hmem

/-- Without `fcc_finalize` nothing is asked of the calls one by one. -/
theorem eachAfter_of_not_mem {J : List Call → Call → Prop} (h : .finalize ∉ calls)
    (hJ : ∀ pre x, .finalize ∉ pre → x ≠ .finalize → J pre x) : EachAfter J calls := by
  rintro pre x post rfl
  refine hJ pre x (fun hmem => h (List.mem_append_left _ hmem)) ?_
  rintro rfl
  exact h (List.mem_append_right _ List.mem_cons_self)

theorem eachAfter_open (h : .finalize ∉ calls) :
    EachAfter (fun pre x => x = .finalize → Open b pre) calls ∧
      EachAfter (fun pre x => .finalize ∈ pre → x.isFcc = true → x = .finalize) calls :=
  ⟨eachAfter_of_not_mem h fun _ _ _ hne heq => absurd heq hne,
    eachAfter_of_not_mem h fun _ _ hnone _ hmem => absurd hmem hnone⟩

/-- **While the client is open, success is balanced and failure is not.** -/
theorem balanced_of_open (h : Open b calls) : Balanced b failed calls ↔ failed = false := by
  constructor
  · intro hbal
    by_contra hfailed
    rw [Bool.not_eq_false] at hfailed
    have hone := hbal.failure hfailed h.1
    rw [List.count_eq_zero_of_not_mem h.2] at hone
    cases hone
  · rintro rfl
    obtain ⟨hopen, hlast⟩ := @eachAfter_open b calls h.2
    exact ⟨hopen, hlast, fun _ => h.2, fun hf => (nomatch hf)⟩

/-- **A failure that finalises an open client is balanced.** -/
theorem balanced_of_closed (h : Open b calls) : Balanced b true (calls ++ [.finalize]) := by
  obtain ⟨hopen, hlast⟩ := @eachAfter_open b calls h.2
  refine ⟨eachAfter_snoc.mpr ⟨hopen, fun _ => h⟩, eachAfter_snoc.mpr ⟨hlast, fun _ _ => rfl⟩,
    fun hf => (nomatch hf), fun _ _ => ?_⟩
  rw [List.count_append, List.count_eq_zero_of_not_mem h.2]
  rfl

/-- Finalising twice is not. -/
theorem not_balanced_twice : ¬Balanced b failed (calls ++ [.finalize] ++ [.finalize]) := by
  intro hbal
  have hopen := (eachAfter_snoc.mp hbal.whileOpen).2 rfl
  exact hopen.2 (List.mem_append_right _ List.mem_cons_self)

theorem not_mem_of_sets (h : ∀ x ∈ added, x.sets = true) : .finalize ∉ added := fun hmem => Bool.false_ne_true (h _ hmem)

theorem not_mem_of_wipes (h : ∀ x ∈ added, x.wipes = true) : .finalize ∉ added :=
  fun hmem => Bool.false_ne_true (h _ hmem)

/-- **From an open client, a `mcc_platform_sotp_init` that is the last thing done** on its failure is balanced, and
otherwise leaves the client open. -/
theorem sotpInit_open (o : SotpOutcomes) (h : Open b calls) :
    (o.Accepted b ∧ (sotpInit b o calls).1 = 0 ∧ Open b (sotpInit b o calls).2) ∨
      (¬o.Accepted b ∧ (sotpInit b o calls).1 ≠ 0 ∧ Balanced b true (sotpInit b o calls).2) := by
  rcases @sotpInit_cases b o calls with ⟨haccepted, hs⟩ | ⟨hnot, hfail, added, hadded, hs⟩
  · refine Or.inl ⟨haccepted, by rw [hs], ?_⟩
    rw [hs]
    exact h.append (not_mem_of_sets (sets_sotpCalls b o))
  · refine Or.inr ⟨hnot, hfail, ?_⟩
    rw [hs]
    exact balanced_of_closed (h.append (not_mem_of_sets hadded))

theorem resetStorage_open (o : ResetOutcomes) (h : Open b calls) : Open b (resetStorage b o calls).2 := by
  obtain ⟨_, added, hadded, hs⟩ := @resetStorage_spec b o calls
  rw [hs]
  exact h.append (not_mem_of_wipes hadded)

theorem verify_open (o : VerifyOutcomes) (h : Open b calls) : Open b (verifyCloudConfiguration b o calls).2 := by
  rw [verify_spec]
  refine (h.append ?_).append (by simp)
  split <;> simp

end Traces

/-! ## The start-up -/

/-- The recovery is compiled in, and if it fails then in `mcc_platform_sotp_init`. -/
def Outcomes.RecoversBalanced (b : Build) (o : Outcomes) : Prop :=
  b.noAutoFormat = false ∧ o.reformat = 0 ∧ o.resetAgain.Accepted b ∧
    (o.sotpAgain.Accepted b → o.checkAgain.verify = 0)

/-- The start-up ends with the first check, or as the recovery does. -/
def Outcomes.ChecksBalanced (b : Build) (o : Outcomes) : Prop := o.check.verify = 0 ∨ o.RecoversBalanced b

/-- `fcc_init` is rejected; or it and the `mcc_platform_sotp_init` after it are accepted, and if anything fails after that
then a later `mcc_platform_sotp_init`. -/
def Outcomes.EndsBalanced (b : Build) (o : Outcomes) : Prop :=
  ¬o.InitAccepted b ∨ (o.sotp.Accepted b ∧
    (if b.resetStorage then o.reset.Accepted b ∧ (o.sotpReset.Accepted b → o.ChecksBalanced b) else o.ChecksBalanced b))

section StartUp

variable {b : Build} {o : Outcomes} {calls : List Call}

theorem recover_balanced (h : Open b calls) :
    Balanced b (recover b o calls).1 (recover b o calls).2 ↔ o.RecoversBalanced b := by
  unfold recover Outcomes.RecoversBalanced
  cases hformat : b.noAutoFormat with
  | true => simp [balanced_of_open h]
  | false =>
    have hopen : Open b (calls ++ [.reformatStorage o.reformat]) := h.append (by simp)
    simp only [Bool.false_eq_true, if_false, true_and]
    by_cases hzero : o.reformat = 0
    swap
    · simp only [if_pos hzero, balanced_of_open hopen, hzero, false_and, Bool.true_eq_false]
    have hreset := (@resetStorage_spec b o.resetAgain (calls ++ [.reformatStorage o.reformat])).1
    have hopen2 := resetStorage_open o.resetAgain hopen
    rw [and_iff_right hzero]
    simp only [if_neg (not_not_intro hzero)]
    by_cases hok : o.resetAgain.Accepted b
    swap
    · rw [if_pos (mt hreset.mp hok), balanced_of_open hopen2]
      simp [hok]
    rw [if_neg (not_not_intro (hreset.mpr hok))]
    simp only [hok, true_and]
    rcases sotpInit_open o.sotpAgain hopen2 with ⟨hset, hs, hopen3⟩ | ⟨hset, hs, hbal⟩
    · rw [if_neg (not_not_intro hs), balanced_of_open (verify_open o.checkAgain hopen3), verify_spec]
      simp [hset]
    · rw [if_pos hs]
      exact iff_of_true hbal fun hacc => absurd hacc hset

/-- The first check and what follows it, with an open client. -/
theorem check_balanced (h : Open b calls) :
    Balanced b
      (if (verifyCloudConfiguration b o.check calls).1 then recover b o (verifyCloudConfiguration b o.check calls).2
        else (false, (verifyCloudConfiguration b o.check calls).2)).1
      (if (verifyCloudConfiguration b o.check calls).1 then recover b o (verifyCloudConfiguration b o.check calls).2
        else (false, (verifyCloudConfiguration b o.check calls).2)).2 ↔ o.ChecksBalanced b := by
  have hopen := verify_open o.check h
  have hfails : (verifyCloudConfiguration b o.check calls).1 = decide (o.check.verify ≠ 0) := by rw [verify_spec]
  unfold Outcomes.ChecksBalanced
  rw [hfails]
  by_cases hzero : o.check.verify = 0
  · rw [if_neg (by simp [hzero]), balanced_of_open hopen]
    exact iff_of_true rfl (Or.inl hzero)
  · rw [if_pos (decide_eq_true hzero), recover_balanced hopen]
    exact (or_iff_right hzero).symm

/-- **The start-up is balanced exactly if nothing fails but `fcc_init`, or a later `mcc_platform_sotp_init` than the
first.** -/
theorem balanced_iff (b : Build) (o : Outcomes) :
    Balanced b (applicationInitFcc b o).1 (applicationInitFcc b o).2 ↔ o.EndsBalanced b := by
  unfold Outcomes.EndsBalanced applicationInitFcc beforeCheck
  rcases @fccInit_cases b o [] with ⟨hinit, hfail, h⟩ | ⟨hinit, hsotp, h⟩ | ⟨hinit, hsotp, hfail, added, _, h⟩
  · -- nothing was opened
    simp only [if_pos hfail]
    rw [h]
    refine iff_of_true ?_ (Or.inl hinit)
    obtain ⟨hopen, hlast⟩ := @eachAfter_open b [.fccInit o.fccInit] (by simp)
    refine ⟨hopen, hlast, fun hf => (nomatch hf), fun _ ⟨x, hx, hacc⟩ => ?_⟩
    rw [List.mem_singleton.mp hx] at hacc
    exact absurd hacc hinit
  · have hopen : Open b (fccInit b o []).2 := by
      rw [h]
      have hstart : Open b [.fccInit o.fccInit] := ⟨⟨_, List.mem_cons_self, hinit⟩, by simp⟩
      exact hstart.append (not_mem_of_sets (sets_sotpCalls b o.sotp))
    have hok : (fccInit b o []).1 = 0 := by rw [h]
    simp only [if_neg (not_not_intro hok), hinit, not_true_eq_false, hsotp, true_and, false_or]
    cases hreset : b.resetStorage with
    | false =>
      simp only [Bool.false_eq_true, if_false, if_neg (not_not_intro hok)]
      exact check_balanced hopen
    | true =>
      have hspec := (@resetStorage_spec b o.reset (fccInit b o []).2).1
      have hopen2 := resetStorage_open o.reset hopen
      simp only [if_true]
      by_cases hacc : o.reset.Accepted b
      swap
      · have hne := mt hspec.mp hacc
        simp only [if_pos hne, hacc, false_and, balanced_of_open hopen2, Bool.true_eq_false]
      simp only [if_neg (not_not_intro (hspec.mpr hacc)), hacc, true_and]
      rcases sotpInit_open o.sotpReset hopen2 with ⟨hset, hs, hopen3⟩ | ⟨hset, hs, hbal⟩
      · simp only [if_neg (not_not_intro hs), hset, true_imp_iff]
        exact check_balanced hopen3
      · simp only [if_pos hs]
        exact iff_of_true hbal fun hset' => absurd hset' hset
  · -- `mcc_platform_sotp_init` and its caller have both finalised
    simp only [if_pos hfail]
    rw [h]
    refine iff_of_false not_balanced_twice ?_
    rintro (hno | ⟨hyes, _⟩)
    · exact hno hinit
    · exact hsotp hyes

end StartUp

/-! ## A failed `fcc_rot_set` -/

/-- A developer build without a hardware TRNG. -/
def rotBuild : Build := ⟨true, true, false, false, false, true, 8, 7⟩

/-- `fcc_rot_set` fails at initialisation. -/
def rotFails : Outcomes :=
  ⟨0, ⟨0, 1⟩, ⟨0, 0, 0⟩, ⟨0, 0⟩, ⟨0, 0⟩, 0, ⟨0, 0, 0⟩, ⟨0, 0⟩, ⟨0, 0⟩⟩

/-- The client is finalised twice. -/
theorem rotFails_not_balanced : (applicationInitFcc rotBuild rotFails).2 =
      [.fccInit 0, .entropySet 0, .rotSet 1, .finalize, .finalize] ∧
    ¬Balanced rotBuild (applicationInitFcc rotBuild rotFails).1 (applicationInitFcc rotBuild rotFails).2 := by
  have htrace : (applicationInitFcc rotBuild rotFails).2 =
      [.fccInit 0, .entropySet 0, .rotSet 1, .finalize, .finalize] := by decide
  refine ⟨htrace, ?_⟩
  rw [htrace]
  exact @not_balanced_twice rotBuild _ [.fccInit 0, .entropySet 0, .rotSet 1]

end PelionClient.App
