import PelionClient.Platform.Mounted

/-!
# Reformatting the storage (`mcc_platform_reformat_storage`)

With the partition mode on, `mcc_platform_reformat_storage` formats the configured file systems until one fails
(`reformatStorage_on`). The body is compiled only for `NUMBER_OF_PARTITIONS > 0`, a macro that is not defined with the
partition mode off: there it returns -1 and formats nothing (`reformatStorage_off`).
-/

namespace PelionClient.Platform

open Lib

/-- `mcc_platform_reformat_storage`, where the formats of `fs1` and `fs2` end with `status1` and `status2`. -/
def reformatStorage (cfg : Config) (status1 status2 : Int) (s : Storage) : Option Int × Storage :=
  let s := { s with trace := [] }
  if s.bd then
    match cfg.layout with
    | .off => (some (-1), s)
    | .on two _ =>
      if s.fs .primary = false then (none, { s with halted := true })
      else
        let r := reformatPartition .primary (s.part .primary) status1 s
        if r.1 ≠ 0 then (some r.1, r.2)
        else if two = false then (some r.1, r.2)
        else if r.2.fs .secondary = false then (none, { r.2 with halted := true })
        else
          let r := reformatPartition .secondary (r.2.part .secondary) status2 r.2
          (some r.1, r.2)
  else (some (-1), s)

/-- The trace shows a format of every configured file system, and no format that failed. -/
def AllReformatted (layout : Layout) (ops : List Op) : Prop :=
  (∀ v, layout.Configured v → ∃ device status, .reformat v device status ∈ ops) ∧
    ∀ v device status, .reformat v device status ∈ ops → status = 0

section Reformat

variable {cfg : Config} {s : Storage} (status1 status2 : Int)

theorem reformatStorage_off (hlayout : cfg.layout = .off) :
    (reformatStorage cfg status1 status2 s).1 = some (-1) ∧ (reformatStorage cfg status1 status2 s).2.trace = [] := by
  unfold reformatStorage
  dsimp only
  rw [hlayout]
  split <;> exact ⟨rfl, rfl⟩

/-- With the partition mode on, and the file systems there, the formats are those of the first file system and, if there
are two and that succeeds, of the second. -/
theorem reformatStorage_on {two auto : Bool} (hlayout : cfg.layout = .on two auto) (hbd : s.bd = true)
    (hfs : ∀ v, cfg.layout.Configured v → s.fs v = true) :
    if status1 = 0 ∧ two = true then
      (reformatStorage cfg status1 status2 s).1 = some status2 ∧
        (reformatStorage cfg status1 status2 s).2.trace =
          [.reformat .primary (s.part .primary) status1, .reformat .secondary (s.part .secondary) status2]
    else
      (reformatStorage cfg status1 status2 s).1 = some status1 ∧
        (reformatStorage cfg status1 status2 s).2.trace = [.reformat .primary (s.part .primary) status1] := by
  have hprimary : s.fs .primary = true := hfs .primary trivial
  unfold reformatStorage
  rw [hlayout] at hfs ⊢
  simp only [hbd, if_true, hprimary, Bool.true_eq_false, if_false, reformatPartition, Storage.op]
  by_cases hone : status1 = 0
  · cases two with
    | false => simp [hone]
    | true =>
      have hsecondary : s.fs .secondary = true := hfs .secondary ⟨auto, rfl⟩
      simp [hone, hsecondary]
  · simp [hone]

/-- One format, of the first file system: all there is to do, if it is the only one. -/
theorem allReformatted_one {two auto : Bool} {device : Device} {status : Int} :
    AllReformatted (.on two auto) [.reformat .primary device status] ↔ status = 0 ∧ two = false := by
  constructor
  · rintro ⟨hall, hzero⟩
    refine ⟨hzero _ _ _ (List.mem_singleton_self _), ?_⟩
    cases two with
    | false => rfl
    | true =>
      obtain ⟨device', status', hmem⟩ := (Layout.forall_on.mp hall).2 rfl
      simp at hmem
  · rintro ⟨rfl, rfl⟩
    refine ⟨Layout.forall_on.mpr ⟨⟨_, _, List.mem_singleton_self _⟩, fun h => (nomatch h)⟩, ?_⟩
    intro v device' status' hmem
    simp only [List.mem_singleton, Op.reformat.injEq] at hmem
    omega

/-- A format of each. -/
theorem allReformatted_two {layout : Layout} {device1 device2 : Device} :
    AllReformatted layout [.reformat .primary device1 status1, .reformat .secondary device2 status2] ↔
      status1 = 0 ∧ status2 = 0 := by
  constructor
  · rintro ⟨_, hzero⟩
    exact ⟨hzero .primary device1 status1 (by simp), hzero .secondary device2 status2 (by simp)⟩
  · rintro ⟨hone, htwo⟩
    refine ⟨fun v _ => ?_, fun v device status hmem => ?_⟩
    · cases v <;> simp
    · simp only [List.mem_cons, Op.reformat.injEq, List.not_mem_nil, or_false] at hmem
      omega

/-- **It returns 0 exactly if it has formatted every configured file system without a failure.** -/
theorem reformatStorage_iff (hbd : s.bd = true) (hfs : ∀ v, cfg.layout.Configured v → s.fs v = true) :
    (reformatStorage cfg status1 status2 s).1 = some 0 ↔
      AllReformatted cfg.layout (reformatStorage cfg status1 status2 s).2.trace := by
  cases hlayout : cfg.layout with
  | off =>
    obtain ⟨hstatus, htrace⟩ := @reformatStorage_off cfg s status1 status2 hlayout
    rw [hstatus, htrace]
    refine iff_of_false (by decide) fun hall => ?_
    obtain ⟨device, status, hmem⟩ := hall.1 .primary trivial
    cases hmem
  | on two auto =>
    have hcases := @reformatStorage_on cfg s status1 status2 two auto hlayout hbd hfs
    split at hcases
    · rename_i hand
      rw [hcases.1, hcases.2, allReformatted_two, Option.some.injEq, and_iff_right hand.1]
    · rename_i hnot
      rw [hcases.1, hcases.2, allReformatted_one, Option.some.injEq]
      refine ⟨fun hzero => ⟨hzero, ?_⟩, fun h => h.1⟩
      apply Bool.eq_false_iff.mpr
      exact fun htwo => hnot ⟨hzero, htwo⟩

end Reformat

end PelionClient.Platform
