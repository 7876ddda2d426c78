import Mathlib.Data.Int.Order.Basic

/-!
# Start-up of the factory configurator client

`application_init_fcc` (`application_init.cpp`) initialises the factory configurator client, checks that the device has its
cloud configuration, and if it has not, wipes the storage and checks again. The functions it calls are those of
`app_platform_setup.c`. What is compiled depends on the `Build`; what the client and the platform return are `Outcomes`, one
for each place of a call. The calls are kept in a trace, with what they returned. `FCC_STATUS_SUCCESS` is 0.

The result of `fcc_developer_flow` is only printed.
-/

namespace PelionClient.App

/-- How the application is compiled, and the statuses of the client that it looks for. -/
structure Build where
  /-- `MBED_CONF_APP_DEVELOPER_MODE == 1` -/
  developerMode : Bool
  /-- `PAL_USER_DEFINED_CONFIGURATION` is defined. -/
  palUserDefined : Bool
  /-- `PAL_USE_HW_TRNG` -/
  hwTrng : Bool
  /-- `RESET_STORAGE` -/
  resetStorage : Bool
  /-- `MBED_CONF_APP_MCC_NO_AUTO_FORMAT` is defined. -/
  noAutoFormat : Bool
  /-- `TARGET_LIKE_MBED` is defined. -/
  targetLikeMbed : Bool
  /-- `FCC_STATUS_ENTROPY_ERROR` -/
  entropyError : Int
  /-- `FCC_STATUS_ROT_ERROR` -/
  rotError : Int
deriving DecidableEq, Repr

/-- A call to the client or the platform, and its status. -/
inductive Call
  | fccInit (status : Int)
  | entropySet (status : Int)
  | rotSet (status : Int)
  | storageDelete (status : Int)
  /-- `mcc_platform_reformat_storage` -/
  | reformatStorage (status : Int)
  | developerFlow (status : Int)
  | verify (status : Int)
  | finalize
deriving DecidableEq, Repr

/-- The statuses in one `mcc_platform_sotp_init`. -/
structure SotpOutcomes where
  entropySet : Int
  rotSet : Int
deriving DecidableEq, Repr

/-- The statuses in one `mcc_platform_reset_storage`. -/
structure ResetOutcomes where
  storageDelete : Int
  reformat : Int
  /-- The second `fcc_storage_delete`. -/
  storageDelete' : Int
deriving DecidableEq, Repr

/-- The statuses in one `application_init_verify_cloud_configuration`. -/
structure VerifyOutcomes where
  developerFlow : Int
  verify : Int
deriving DecidableEq, Repr

/-- The statuses in `application_init_fcc`. -/
structure Outcomes where
  fccInit : Int
  sotp : SotpOutcomes
  /-- With `RESET_STORAGE`. -/
  reset : ResetOutcomes
  sotpReset : SotpOutcomes
  check : VerifyOutcomes
  /-- The recovery. -/
  reformat : Int
  resetAgain : ResetOutcomes
  sotpAgain : SotpOutcomes
  checkAgain : VerifyOutcomes
deriving DecidableEq, Repr

/-! ## `app_platform_setup.c` -/

def fccFinalize (calls : List Call) : List Call := calls ++ [.finalize]

/-- The second half of `mcc_platform_sotp_init`. -/
def setRot (b : Build) (o : SotpOutcomes) (calls : List Call) : Int × List Call :=
  let calls := calls ++ [.rotSet o.rotSet]
  if o.rotSet ≠ 0 ∧ o.rotSet ≠ b.rotError then (o.rotSet, fccFinalize calls) else (0, calls)

def sotpInit (b : Build) (o : SotpOutcomes) (calls : List Call) : Int × List Call :=
  if b.developerMode = true ∧ b.palUserDefined = true then
    if b.hwTrng then setRot b o calls
    else
      let calls := calls ++ [.entropySet o.entropySet]
      if o.entropySet ≠ 0 ∧ o.entropySet ≠ b.entropyError then (o.entropySet, fccFinalize calls)
      else setRot b o calls
  else (0, calls)

def fccInit (b : Build) (o : Outcomes) (calls : List Call) : Int × List Call :=
  let calls := calls ++ [.fccInit o.fccInit]
  if o.fccInit ≠ 0 ∧ o.fccInit ≠ b.entropyError ∧ o.fccInit ≠ b.rotError then (o.fccInit, calls)
  else
    let r := sotpInit b o.sotp calls
    if r.1 ≠ 0 then (r.1, fccFinalize r.2) else (0, r.2)

def resetStorage (b : Build) (o : ResetOutcomes) (calls : List Call) : Int × List Call :=
  let calls := calls ++ [.storageDelete o.storageDelete]
  if o.storageDelete ≠ 0 then
    if b.targetLikeMbed then
      let calls := calls ++ [.reformatStorage o.reformat]
      if o.reformat = 0 then (o.storageDelete', calls ++ [.storageDelete o.storageDelete']) else (o.reformat, calls)
    else (o.storageDelete, calls)
  else (o.storageDelete, calls)

/-! ## `application_init.cpp` -/

/-- `application_init_verify_cloud_configuration`: as in the source, `true` says that the check failed. -/
def verifyCloudConfiguration (b : Build) (o : VerifyOutcomes) (calls : List Call) : Bool × List Call :=
  let calls := if b.developerMode then calls ++ [.developerFlow o.developerFlow] else calls
  (decide (o.verify ≠ 0), calls ++ [.verify o.verify])

/-- `application_init_fcc` before the first check. -/
def beforeCheck (b : Build) (o : Outcomes) : Int × List Call :=
  let r := fccInit b o []
  if r.1 ≠ 0 then r
  else if b.resetStorage then
    let r := resetStorage b o.reset r.2
    if r.1 ≠ 0 then r else sotpInit b o.sotpReset r.2
  else r

/-- `application_init_fcc` after a first check that failed. -/
def recover (b : Build) (o : Outcomes) (calls : List Call) : Bool × List Call :=
  if b.noAutoFormat then (true, calls)
  else
    let calls := calls ++ [.reformatStorage o.reformat]
    if o.reformat ≠ 0 then (true, calls)
    else
      let r := resetStorage b o.resetAgain calls
      if r.1 ≠ 0 then (true, r.2)
      else
        let r := sotpInit b o.sotpAgain r.2
        if r.1 ≠ 0 then (true, r.2) else verifyCloudConfiguration b o.checkAgain r.2

/-- `application_init_fcc`: as in the source, `true` says that it failed. -/
def applicationInitFcc (b : Build) (o : Outcomes) : Bool × List Call :=
  let r := beforeCheck b o
  if r.1 ≠ 0 then (true, r.2)
  else
    let r := verifyCloudConfiguration b o.check r.2
    if r.1 then recover b o r.2 else (false, r.2)

/-! ## What the functions return and call -/

/-- `fcc_verify_device_configured_4mbed_cloud`. -/
def Call.isVerify : Call → Bool
  | .verify _ => true
  | _ => false

/-- A storage deletion or a reformat. -/
def Call.wipes : Call → Bool
  | .storageDelete _ | .reformatStorage _ => true
  | _ => false

/-- `fcc_entropy_set` or `fcc_rot_set`. -/
def Call.sets : Call → Bool
  | .entropySet _ | .rotSet _ => true
  | _ => false

/-- What `mcc_platform_sotp_init` sets is set, or exists already. -/
def SotpOutcomes.Accepted (b : Build) (o : SotpOutcomes) : Prop :=
  b.developerMode = true ∧ b.palUserDefined = true →
    (b.hwTrng = false → o.entropySet = 0 ∨ o.entropySet = b.entropyError) ∧ (o.rotSet = 0 ∨ o.rotSet = b.rotError)

/-- The storage is deleted, at once or after a reformat. -/
def ResetOutcomes.Accepted (b : Build) (o : ResetOutcomes) : Prop :=
  o.storageDelete = 0 ∨ (b.targetLikeMbed = true ∧ o.reformat = 0 ∧ o.storageDelete' = 0)

/-- `fcc_init` succeeds, or finds what it would set. -/
def Outcomes.InitAccepted (b : Build) (o : Outcomes) : Prop :=
  o.fccInit = 0 ∨ o.fccInit = b.entropyError ∨ o.fccInit = b.rotError

/-- The calls of a successful `mcc_platform_sotp_init`. -/
def sotpCalls (b : Build) (o : SotpOutcomes) : List Call :=
  if b.developerMode = true ∧ b.palUserDefined = true then
    if b.hwTrng then [.rotSet o.rotSet] else [.entropySet o.entropySet, .rotSet o.rotSet]
  else []

section Spec

variable {b : Build}

theorem sets_sotpCalls (b : Build) (o : SotpOutcomes) : ∀ x ∈ sotpCalls b o, x.sets = true := by
  unfold sotpCalls
  split
  · split <;> simp [Call.sets]
  · simp

theorem setRot_cases (o : SotpOutcomes) (calls : List Call) :
    ((o.rotSet = 0 ∨ o.rotSet = b.rotError) ∧ setRot b o calls = (0, calls ++ [.rotSet o.rotSet])) ∨
    (¬(o.rotSet = 0 ∨ o.rotSet = b.rotError) ∧ setRot b o calls = (o.rotSet, calls ++ [.rotSet o.rotSet] ++ [.finalize])) := by
  unfold setRot fccFinalize
  by_cases hrot : o.rotSet = 0 ∨ o.rotSet = b.rotError
  · exact Or.inl ⟨hrot, if_neg fun h => hrot.elim h.1 h.2⟩
  · exact Or.inr ⟨hrot, if_pos (not_or.mp hrot)⟩

/-- **`mcc_platform_sotp_init`** sets what there is to set, or finalises. -/
theorem sotpInit_cases (o : SotpOutcomes) (calls : List Call) :
    (o.Accepted b ∧ sotpInit b o calls = (0, calls ++ sotpCalls b o)) ∨
    (¬o.Accepted b ∧ (sotpInit b o calls).1 ≠ 0 ∧
      ∃ added, (∀ x ∈ added, x.sets = true) ∧ (sotpInit b o calls).2 = calls ++ added ++ [.finalize]) := by
  unfold sotpInit sotpCalls SotpOutcomes.Accepted fccFinalize
  by_cases hdev : b.developerMode = true ∧ b.palUserDefined = true
  swap
  · exact Or.inl ⟨fun h => absurd h hdev, by simp only [if_neg hdev, List.append_nil]⟩
  simp only [hdev, and_self, if_true, true_imp_iff]
  cases hhw : b.hwTrng with
  | true =>
    simp only [if_true, Bool.true_eq_false, false_imp_iff, true_and]
    rcases @setRot_cases b o calls with ⟨hrot, h⟩ | ⟨hrot, h⟩
    · exact Or.inl ⟨hrot, h⟩
    · refine Or.inr ⟨hrot, ?_, [.rotSet o.rotSet], by simp [Call.sets], by rw [h]⟩
      rw [h]
      exact (not_or.mp hrot).1
  | false =>
    simp only [Bool.false_eq_true, if_false, true_imp_iff]
    by_cases hentropy : o.entropySet = 0 ∨ o.entropySet = b.entropyError
    · have hgo : ¬(o.entropySet ≠ 0 ∧ o.entropySet ≠ b.entropyError) := fun h => hentropy.elim h.1 h.2
      simp only [if_neg hgo]
      rcases @setRot_cases b o (calls ++ [.entropySet o.entropySet]) with ⟨hrot, h⟩ | ⟨hrot, h⟩
      · exact Or.inl ⟨⟨hentropy, hrot⟩, by rw [h, List.append_assoc]; rfl⟩
      · refine Or.inr ⟨fun hand => hrot hand.2, ?_, [.entropySet o.entropySet, .rotSet o.rotSet], by simp [Call.sets],
          by rw [h]; simp⟩
        rw [h]
        exact (not_or.mp hrot).1
    · have hstop : o.entropySet ≠ 0 ∧ o.entropySet ≠ b.entropyError := not_or.mp hentropy
      simp only [if_pos hstop]
      exact Or.inr ⟨fun hand => hentropy hand.1, (not_or.mp hentropy).1, [.entropySet o.entropySet], by simp [Call.sets], rfl⟩

/-- **`mcc_platform_reset_storage`** deletes the storage, or fails to. -/
theorem resetStorage_spec (o : ResetOutcomes) (calls : List Call) :
    ((resetStorage b o calls).1 = 0 ↔ o.Accepted b) ∧
      ∃ added, (∀ x ∈ added, x.wipes = true) ∧ (resetStorage b o calls).2 = calls ++ added := by
  unfold resetStorage ResetOutcomes.Accepted
  by_cases hdelete : o.storageDelete = 0
  · rw [if_neg (not_not_intro hdelete)]
    exact ⟨iff_of_true hdelete (Or.inl hdelete), [.storageDelete o.storageDelete], by simp [Call.wipes], rfl⟩
  rw [if_pos hdelete]
  cases b.targetLikeMbed with
  | false => exact ⟨by simp [hdelete], [.storageDelete o.storageDelete], by simp [Call.wipes], rfl⟩
  | true =>
    by_cases hformat : o.reformat = 0
    · simp only [if_true, if_pos hformat]
      exact ⟨by simp [hdelete, hformat],
        [.storageDelete o.storageDelete, .reformatStorage o.reformat, .storageDelete o.storageDelete'],
        by simp [Call.wipes], by simp⟩
    · simp only [if_true, if_neg hformat]
      exact ⟨by simp [hdelete, hformat], [.storageDelete o.storageDelete, .reformatStorage o.reformat],
        by simp [Call.wipes], by simp⟩

/-- **`mcc_platform_fcc_init`** is rejected, or sets up, or finalises twice. -/
theorem fccInit_cases (o : Outcomes) (calls : List Call) :
    (¬o.InitAccepted b ∧ (fccInit b o calls).1 ≠ 0 ∧ (fccInit b o calls).2 = calls ++ [.fccInit o.fccInit]) ∨
    (o.InitAccepted b ∧ o.sotp.Accepted b ∧
      fccInit b o calls = (0, calls ++ [.fccInit o.fccInit] ++ sotpCalls b o.sotp)) ∨
    (o.InitAccepted b ∧ ¬o.sotp.Accepted b ∧ (fccInit b o calls).1 ≠ 0 ∧ ∃ added, (∀ x ∈ added, x.sets = true) ∧
      (fccInit b o calls).2 = calls ++ [.fccInit o.fccInit] ++ added ++ [.finalize] ++ [.finalize]) := by
  unfold fccInit Outcomes.InitAccepted
  by_cases hinit : o.fccInit = 0 ∨ o.fccInit = b.entropyError ∨ o.fccInit = b.rotError
  swap
  · obtain ⟨hzero, hrest⟩ := not_or.mp hinit
    refine Or.inl ⟨hinit, ?_⟩
    simp only [if_pos (And.intro hzero (not_or.mp hrest))]
    exact ⟨hzero, trivial⟩
  have hgo : ¬(o.fccInit ≠ 0 ∧ o.fccInit ≠ b.entropyError ∧ o.fccInit ≠ b.rotError) :=
    fun h => hinit.elim h.1 fun h' => h'.elim h.2.1 h.2.2
  simp only [if_neg hgo]
  right
  rcases @sotpInit_cases b o.sotp (calls ++ [.fccInit o.fccInit]) with ⟨hsotp, h⟩ | ⟨hsotp, hfail, added, hadded, h⟩
  · exact Or.inl ⟨hinit, hsotp, by rw [h]; rfl⟩
  · refine Or.inr ⟨hinit, hsotp, ?_⟩
    rw [if_pos hfail]
    exact ⟨hfail, added, hadded, by rw [h]; rfl⟩

/-- The check adds its calls, the last one to `fcc_verify_device_configured_4mbed_cloud`. -/
theorem verify_spec (o : VerifyOutcomes) (calls : List Call) :
    verifyCloudConfiguration b o calls = (decide (o.verify ≠ 0),
      calls ++ (if b.developerMode then [.developerFlow o.developerFlow] else []) ++ [.verify o.verify]) := by
  unfold verifyCloudConfiguration
  split <;> simp

/-- `mcc_platform_sotp_init` succeeds if what it sets is set or exists already. -/
theorem sotpInit_ok {o : SotpOutcomes} (calls : List Call) (hentropy : o.entropySet = 0 ∨ o.entropySet = b.entropyError)
    (hrot : o.rotSet = 0 ∨ o.rotSet = b.rotError) : (sotpInit b o calls).1 = 0 := by
  rcases @sotpInit_cases b o calls with ⟨_, h⟩ | ⟨hsotp, _⟩
  · rw [h]
  · exact absurd (fun _ => ⟨fun _ => hentropy, hrot⟩) hsotp

/-- `mcc_platform_reset_storage` succeeds if the first `fcc_storage_delete` does. -/
theorem resetStorage_ok {o : ResetOutcomes} (calls : List Call) (h : o.storageDelete = 0) :
    (resetStorage b o calls).1 = 0 := (resetStorage_spec o calls).1.mpr (Or.inl h)

end Spec

end PelionClient.App
