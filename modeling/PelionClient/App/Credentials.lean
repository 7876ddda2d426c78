import PelionClient.App.Fcc
import PelionClient.Lib.Trace

/-!
# What a successful start-up has verified

`application_init_fcc` succeeds only if the last `fcc_verify_device_configured_4mbed_cloud` has, with nothing wiped after it,
and, where the developer build sets the Root of Trust and the entropy itself, with these set after the last wipe
(`Complete`). Every way to success ends with `mcc_platform_sotp_init` and the check (`complete_of_check`); so the trace is
complete whatever was wiped before (`complete_of_success`).
-/

namespace PelionClient.App

open Lib

/-- `fcc_rot_set` has set the Root of Trust, or found it. -/
def Call.SetsRot (b : Build) : Call → Prop
  | .rotSet status => status = 0 ∨ status = b.rotError
  | _ => False

/-- `fcc_entropy_set` has set the entropy, or found it. -/
def Call.SetsEntropy (b : Build) : Call → Prop
  | .entropySet status => status = 0 ∨ status = b.entropyError
  | _ => False

/-- The device is verified and its credentials are complete: the last verification succeeded and nothing was wiped after it,
and what a developer build sets was set after the last wipe. -/
structure Complete (b : Build) (calls : List Call) : Prop where
  verified : Since (fun x => x.isVerify = true ∨ x.wipes = true) (· = .verify 0) calls
  rot : b.developerMode = true → b.palUserDefined = true → Since (fun x => x.wipes = true) (Call.SetsRot b) calls
  entropy : b.developerMode = true → b.palUserDefined = true → b.hwTrng = false →
    Since (fun x => x.wipes = true) (Call.SetsEntropy b) calls

/-- How often the configuration is verified. -/
def verifications (calls : List Call) : Nat := calls.countP Call.isVerify

section Paths

variable {b : Build} {calls added : List Call}

/-! ## After `mcc_platform_sotp_init` -/

/-- The Root of Trust is set after the last wipe. -/
theorem since_rot {o : SotpOutcomes} (h : o.Accepted b) (hdev : b.developerMode = true) (hpal : b.palUserDefined = true) :
    Since (fun x => x.wipes = true) (Call.SetsRot b) (calls ++ sotpCalls b o) := by
  have hrot : Call.SetsRot b (.rotSet o.rotSet) := (h ⟨hdev, hpal⟩).2
  unfold sotpCalls
  rw [if_pos ⟨hdev, hpal⟩]
  apply Since.of_right
  cases b.hwTrng with
  | true => exact (@since_snoc _ _ _ [] _).mpr (Or.inl hrot)
  | false => exact (@since_snoc _ _ _ [.entropySet o.entropySet] _).mpr (Or.inl hrot)

/-- And so is the entropy. -/
theorem since_entropy {o : SotpOutcomes} (h : o.Accepted b) (hdev : b.developerMode = true)
    (hpal : b.palUserDefined = true) (hhw : b.hwTrng = false) :
    Since (fun x => x.wipes = true) (Call.SetsEntropy b) (calls ++ sotpCalls b o) := by
  have hentropy : Call.SetsEntropy b (.entropySet o.entropySet) := (h ⟨hdev, hpal⟩).1 hhw
  unfold sotpCalls
  rw [if_pos ⟨hdev, hpal⟩, hhw, if_neg Bool.false_ne_true]
  apply Since.of_right
  refine (@since_snoc _ _ _ [Call.entropySet o.entropySet] (.rotSet o.rotSet)).mpr (Or.inr ⟨Bool.false_ne_true, ?_⟩)
  exact (@since_snoc _ _ _ [] _).mpr (Or.inl hentropy)

/-- **A check that succeeds right after `mcc_platform_sotp_init`** leaves a complete trace. -/
theorem complete_of_check {o : SotpOutcomes} {o' : VerifyOutcomes} (hsotp : (sotpInit b o calls).1 = 0)
    (hcheck : (verifyCloudConfiguration b o' (sotpInit b o calls).2).1 = false) :
    Complete b (verifyCloudConfiguration b o' (sotpInit b o calls).2).2 := by
  rcases @sotpInit_cases b o calls with ⟨haccepted, h⟩ | ⟨_, hfail, _⟩
  swap
  · exact absurd hsotp hfail
  rw [h, verify_spec] at hcheck ⊢
  have hverify : o'.verify = 0 := by simpa using hcheck
  -- the check wipes nothing
  have hkeeps : ∀ G, Since (fun x : Call => x.wipes = true) G (calls ++ sotpCalls b o) →
      Since (fun x : Call => x.wipes = true) G (calls ++ sotpCalls b o ++
        (if b.developerMode then [.developerFlow o'.developerFlow] else []) ++ [.verify o'.verify]) := by
    intro G hG
    refine (hG.append ?_).append (by simp [Call.wipes])
    split <;> simp [Call.wipes]
  constructor
  · rw [hverify]
    exact since_snoc.mpr (Or.inl rfl)
  · intro hdev hpal
    exact hkeeps _ (since_rot haccepted hdev hpal)
  · intro hdev hpal hhw
    exact hkeeps _ (since_entropy haccepted hdev hpal hhw)

/-! ## How often the configuration is verified -/

theorem verifications_append : verifications (calls ++ added) = verifications calls + verifications added :=
  List.countP_append

/-- Calls of other kinds. -/
theorem verifications_of_not (h : ∀ x ∈ added, x.sets = true ∨ x.wipes = true) : verifications added = 0 := by
  refine List.countP_eq_zero.mpr fun x hx hv => ?_
  have hkind := h x hx
  cases x <;> simp [Call.isVerify, Call.sets, Call.wipes] at hv hkind

theorem verifications_sotpInit (o : SotpOutcomes) : verifications (sotpInit b o calls).2 = verifications calls := by
  rcases @sotpInit_cases b o calls with ⟨_, h⟩ | ⟨_, _, added, hadded, h⟩
  · rw [h, verifications_append, verifications_of_not fun x hx => Or.inl (sets_sotpCalls b o x hx), Nat.add_zero]
  · rw [h, verifications_append, verifications_append, verifications_of_not fun x hx => Or.inl (hadded x hx)]
    rfl

theorem verifications_resetStorage (o : ResetOutcomes) :
    verifications (resetStorage b o calls).2 = verifications calls := by
  obtain ⟨_, added, hadded, h⟩ := @resetStorage_spec b o calls
  rw [h, verifications_append, verifications_of_not fun x hx => Or.inr (hadded x hx), Nat.add_zero]

theorem verifications_fccInit (o : Outcomes) : verifications (fccInit b o calls).2 = verifications calls := by
  rcases @fccInit_cases b o calls with ⟨_, _, h⟩ | ⟨_, _, h⟩ | ⟨_, _, _, added, hadded, h⟩
  · rw [h, verifications_append]
    rfl
  · rw [h, verifications_append, verifications_append,
      verifications_of_not fun x hx => Or.inl (sets_sotpCalls b o.sotp x hx)]
    rfl
  · simp only [h, verifications_append, verifications_of_not fun x hx => Or.inl (hadded x hx)]
    rfl

theorem verifications_verify (o : VerifyOutcomes) :
    verifications (verifyCloudConfiguration b o calls).2 = verifications calls + 1 := by
  rw [verify_spec]
  simp only [verifications_append]
  cases b.developerMode <;> rfl

end Paths

/-! ## The whole start-up -/

section StartUp

variable {b : Build} {o : Outcomes} {calls : List Call}

/-- Up to the first check nothing is verified, and if all went well `mcc_platform_sotp_init` was last. -/
theorem beforeCheck_spec (b : Build) (o : Outcomes) : verifications (beforeCheck b o).2 = 0 ∧
    ((beforeCheck b o).1 = 0 → ∃ s calls, (sotpInit b s calls).1 = 0 ∧ (sotpInit b s calls).2 = (beforeCheck b o).2) := by
  have hinit : verifications (fccInit b o []).2 = 0 := verifications_fccInit o
  have hsotp : (fccInit b o []).1 = 0 →
      ∃ s calls, (sotpInit b s calls).1 = 0 ∧ (sotpInit b s calls).2 = (fccInit b o []).2 := by
    intro hok
    rcases @fccInit_cases b o [] with ⟨_, hfail, _⟩ | ⟨_, haccepted, h⟩ | ⟨_, _, hfail, _⟩
    · exact absurd hok hfail
    · rcases @sotpInit_cases b o.sotp ([] ++ [.fccInit o.fccInit]) with ⟨_, hs⟩ | ⟨hnot, _⟩
      · exact ⟨o.sotp, [] ++ [.fccInit o.fccInit], by rw [hs], by rw [hs, h]⟩
      · exact absurd haccepted hnot
    · exact absurd hok hfail
  unfold beforeCheck
  dsimp only
  split
  · rename_i hfail
    exact ⟨hinit, fun hok => absurd hok hfail⟩
  rename_i hok
  split
  · split
    · rename_i hfail
      exact ⟨by rw [verifications_resetStorage, hinit], fun hok => absurd hok hfail⟩
    · exact ⟨by rw [verifications_sotpInit, verifications_resetStorage, hinit], fun hok' => ⟨_, _, hok', rfl⟩⟩
  · exact ⟨hinit, fun _ => hsotp (not_not.mp hok)⟩

/-- The recovery verifies once at most, and if it succeeds the trace is complete. -/
theorem recover_spec (b : Build) (o : Outcomes) (calls : List Call) :
    verifications (recover b o calls).2 ≤ verifications calls + 1 ∧
      ((recover b o calls).1 = false → Complete b (recover b o calls).2) := by
  have hformat : verifications (calls ++ [.reformatStorage o.reformat]) = verifications calls := by
    rw [verifications_append]
    rfl
  unfold recover
  dsimp only
  split
  · exact ⟨Nat.le_succ _, fun h => (nomatch h)⟩
  split
  · exact ⟨Nat.le_trans (Nat.le_of_eq hformat) (Nat.le_succ _), fun h => (nomatch h)⟩
  split
  · exact ⟨by rw [verifications_resetStorage]; omega, fun h => (nomatch h)⟩
  split
  · exact ⟨by rw [verifications_sotpInit, verifications_resetStorage]; omega, fun h => (nomatch h)⟩
  · rename_i hsotp
    refine ⟨?_, complete_of_check (not_not.mp hsotp)⟩
    rw [verifications_verify, verifications_sotpInit, verifications_resetStorage]
    omega

/-- The start-up succeeds only with a complete trace. -/
def StartsComplete (b : Build) (o : Outcomes) : Prop :=
  (applicationInitFcc b o).1 = false → Complete b (applicationInitFcc b o).2

/-- **A start-up that succeeds is verified and complete, and none verifies more than twice.** -/
theorem complete_of_success (b : Build) (o : Outcomes) :
    StartsComplete b o ∧ verifications (applicationInitFcc b o).2 ≤ 2 := by
  obtain ⟨hnone, hlast⟩ := beforeCheck_spec b o
  unfold StartsComplete applicationInitFcc
  dsimp only
  split
  · exact ⟨fun h => (nomatch h), Nat.le_trans (Nat.le_of_eq hnone) (Nat.zero_le _)⟩
  rename_i hok
  have hone : verifications (verifyCloudConfiguration b o.check (beforeCheck b o).2).2 = 1 := by
    rw [verifications_verify, hnone]
  split
  · obtain ⟨htwice, hcomplete⟩ := recover_spec b o (verifyCloudConfiguration b o.check (beforeCheck b o).2).2
    exact ⟨hcomplete, by omega⟩
  · rename_i hcheck
    obtain ⟨s, calls, hsotp, hsame⟩ := hlast (not_not.mp hok)
    rw [← hsame] at hcheck hone ⊢
    exact ⟨fun _ => complete_of_check hsotp (Bool.eq_false_iff.mpr hcheck),
      Nat.le_trans (Nat.le_of_eq hone) (Nat.le_succ _)⟩

end StartUp

end PelionClient.App
