import Mathlib.Algebra.Group.Nat.Defs
import PelionClient.Platform.Success

/-!
# The ranges of the partitions

`mcc_platform_create_partitions` checks the sizes of the partitions against the size of the device before it writes their
table entries, but neither check looks at `PRIMARY_PARTITION_START`, and the default `SECONDARY_PARTITION_START` does not
either; and the end of the primary partition is a sum in the type of the macros, an `int` for plain literals.
`passed_primary` and `passed_secondary` say which ranges come past the checks, and `goodLayout_iff` for which configured
values they lie inside the device and apart from each other.
-/

namespace PelionClient.Platform

open Lib

/-- The partition mode with automatic partitioning, and `SECONDARY_PARTITION_START` left at its default. -/
def Config.byDefault (two : Bool) (primaryStart primarySize secondarySize : CInt) (asserts : Bool) : Config :=
  ⟨.on two true, primaryStart, primarySize, primarySize, secondarySize, asserts⟩

/-- The size checks before the table entry of `v` is written. -/
def Config.ChecksPassed (cfg : Config) (size : UInt64) : Volume → Prop
  | .primary => ¬size < cfg.primarySize.toUInt64
  | .secondary => ¬size < cfg.primarySize.toUInt64 ∧ ¬size < cfg.primarySize.toUInt64 + cfg.secondarySize.toUInt64

/-- On a device of this size the range has come past the size checks to `MBRBlockDevice::partition`. -/
def Passed (cfg : Config) (two : Bool) (size : UInt64) (v : Volume) (start stop : UInt64) : Prop :=
  cfg.ChecksPassed size v ∧ ∃ (o : CreateOutcomes) (s : Storage) (status : Int), s.size = size ∧ s.trace = [] ∧
    .partition v start stop status ∈ (createPartitions cfg two o s).2.trace

/-- The range lies inside a device of this size. -/
def Inside (size start stop : UInt64) : Prop := start ≤ stop ∧ stop ≤ size

/-- What the table entries should be like. -/
structure GoodLayout (cfg : Config) (two : Bool) (size : UInt64) : Prop where
  inside : ∀ v start stop, Passed cfg two size v start stop → Inside size start stop
  disjoint : two = true → ∀ a b c d, Passed cfg two size .primary a b → Passed cfg two size .secondary c d →
    ∀ x, ¬((a ≤ x ∧ x < b) ∧ (c ≤ x ∧ x < d))

/-! ## The ranges that come past the checks -/

section Entries

variable {cfg : Config} {two : Bool}

/-- The configured range of `v`. -/
def Config.IsRange (cfg : Config) (two : Bool) (v : Volume) (start stop : UInt64) : Prop :=
  (v = .secondary → two = true) ∧ start = cfg.start v ∧ stop = cfg.stop v

/-- Every table entry that was written is for the configured range. -/
def EntriesConfigured (cfg : Config) (two : Bool) (s : Storage) : Prop :=
  ∀ v start stop status, .partition v start stop status ∈ s.trace → cfg.IsRange two v start stop

theorem Appends.entries {v : Volume} {s t : Storage} (h : Appends v s t) (hs : EntriesConfigured cfg two s) :
    EntriesConfigured cfg two t := by
  obtain ⟨added, ht, hadded⟩ := h
  intro w start stop status hmem
  rw [ht] at hmem
  rcases List.mem_append.mp hmem with hmem | hmem
  · exact hs w start stop status hmem
  · exact (hadded _ hmem).elim

theorem EntriesConfigured.op {s : Storage} (h : EntriesConfigured cfg two s) {v : Volume} {start stop : UInt64}
    (hrange : cfg.IsRange two v start stop) (status : Int) :
    EntriesConfigured cfg two (s.op (.partition v start stop status)) := by
  intro w a b st hmem
  rcases List.mem_append.mp hmem with hmem | hmem
  · exact h w a b st hmem
  · cases List.mem_singleton.mp hmem
    exact hrange

theorem entries_createPartitions {s : Storage} (h : s.trace = []) (o : CreateOutcomes) :
    EntriesConfigured cfg two (createPartitions cfg two o s).2 := by
  have hnone : EntriesConfigured cfg two s := by
    intro v start stop status hmem
    rw [h] at hmem
    cases hmem
  have hprimary := hnone.op (show cfg.IsRange two .primary _ _ from ⟨by simp, rfl, rfl⟩) o.partition1
  have hmount := (appends_initAndMountPartition .primary o.mount1 _).entries hprimary
  unfold createPartitions
  dsimp only
  split
  · exact hnone
  split
  · exact hprimary
  split
  · exact hmount
  split
  · exact hmount
  rename_i htwo
  split
  · exact hmount
  have hrange : cfg.IsRange two .secondary (cfg.start .secondary) (cfg.stop .secondary) :=
    ⟨fun _ => by simpa using htwo, rfl, rfl⟩
  have hsecondary := hmount.op hrange o.partition2
  split
  · exact hsecondary
  · exact (appends_initAndMountPartition .secondary o.mount2 _).entries hsecondary

/-- Every driver call succeeds, but the writes of the table entries end as said. -/
def CreateOutcomes.entries (status1 status2 : Int) : CreateOutcomes :=
  ⟨status1, ⟨0, 0, 0, 0, 0, 0⟩, status2, ⟨0, 0, 0, 0, 0, 0⟩⟩

theorem passed_primary {size start stop : UInt64} : Passed cfg two size .primary start stop ↔
    cfg.ChecksPassed size .primary ∧ start = cfg.start .primary ∧ stop = cfg.stop .primary := by
  constructor
  · rintro ⟨hcheck, o, s, status, _, hs, hmem⟩
    exact ⟨hcheck, (entries_createPartitions hs o .primary start stop status hmem).2⟩
  · rintro ⟨hcheck, rfl, rfl⟩
    refine ⟨hcheck, .entries 1 0, { Storage.fresh with size := size }, 1, rfl, rfl, ?_⟩
    have hfit : ¬(cfg.asserts = true ∧ size < cfg.primarySize.toUInt64) := fun h => hcheck h.2
    simp [createPartitions, CreateOutcomes.entries, hfit, Storage.op]

theorem passed_secondary {size start stop : UInt64} : Passed cfg two size .secondary start stop ↔
    cfg.ChecksPassed size .secondary ∧ two = true ∧ start = cfg.start .secondary ∧ stop = cfg.stop .secondary := by
  constructor
  · rintro ⟨hcheck, o, s, status, _, hs, hmem⟩
    obtain ⟨htwo, hrange⟩ := entries_createPartitions hs o .secondary start stop status hmem
    exact ⟨hcheck, htwo rfl, hrange⟩
  · rintro ⟨hcheck, rfl, rfl, rfl⟩
    refine ⟨hcheck, .entries 0 0, { Storage.fresh with size := size }, 0, rfl, rfl, ?_⟩
    have hrewrites : (CreateOutcomes.entries 0 0).Rewrites2 cfg true size false :=
      ⟨⟨fun h => hcheck.1 h.2, rfl⟩, rfl, rfl, fun h => hcheck.2 h.2, rfl⟩
    rcases createPartitions_cases cfg true (.entries 0 0) { Storage.fresh with size := size } with
      ⟨hno, _⟩ | ⟨_, hno, _⟩ | ⟨_, h⟩
    · exact absurd hrewrites.1 hno
    · exact absurd hrewrites hno
    · obtain ⟨added, htrace, _⟩ := appends_initAndMountPartition .secondary (CreateOutcomes.entries 0 0).mount2
        ((rewritten1 cfg (.entries 0 0) { Storage.fresh with size := size }).op
          (.partition .secondary (cfg.start .secondary) (cfg.stop .secondary) 0))
      rw [h]
      refine htrace ▸ List.mem_append_left _ ?_
      exact List.mem_append_right _ (List.mem_singleton_self _)

end Entries

/-! ## The arithmetic of ranges -/

/-- The primary partition ends inside a device of `n` bytes, where the start `s` and the size `p`, as 64-bit numbers, are
added in type `t`: a 32-bit unsigned sum must not carry, and an `int` sum that overflows is extended with its sign. -/
def PrimaryFits (t : CType) (s p n : Nat) : Prop :=
  match t with
  | .int => if 2 ^ 31 ≤ s + p ∧ s + p < 2 ^ 32 then s + p + (2 ^ 64 - 2 ^ 32) ≤ n else s + p ≤ n
  | .unsignedInt => s + p % 2 ^ 32 < 2 ^ 32 ∧ s + p % 2 ^ 32 ≤ n
  | .longLong | .unsignedLongLong => s + p ≤ n

section Arithmetic

variable {S P Q : CInt} {size : UInt64}

/-- **The range of the primary partition lies inside the device** exactly if it fits. -/
theorem inside_primary_iff (hle : P.toUInt64 ≤ size) : Inside size S.toUInt64 (S.add P).toUInt64 ↔
    PrimaryFits (S.type.common P.type) S.toUInt64.toNat P.toUInt64.toNat size.toNat := by
  have hS := S.toUInt64.toNat_lt
  have hP := P.toUInt64.toNat_lt
  have hsize := size.toNat_lt
  rw [UInt64.le_iff_toNat_le] at hle
  unfold Inside
  rw [UInt64.le_iff_toNat_le, UInt64.le_iff_toNat_le]
  cases htype : S.type.common P.type with
  | int =>
    obtain ⟨hs, hp⟩ := CType.common_eq_int htype
    have hs' := CInt.toNat_of_int hs
    have hp' := CInt.toNat_of_int hp
    rw [CInt.toNat_add_int htype, PrimaryFits]
    split <;> split <;> omega
  | unsignedInt =>
    obtain ⟨hs, hp⟩ := CType.common_eq_unsignedInt htype
    have hs' : S.toUInt64.toNat < 2 ^ 32 ∨ 2 ^ 64 - 2 ^ 31 ≤ S.toUInt64.toNat := CInt.toNat_of_narrow hs
    have hp' : P.toUInt64.toNat < 2 ^ 32 ∨ 2 ^ 64 - 2 ^ 31 ≤ P.toUInt64.toNat := CInt.toNat_of_narrow hp
    rw [CInt.toNat_add_unsignedInt htype, PrimaryFits]
    omega
  | longLong | unsignedLongLong =>
    rw [CInt.toNat_add_wide (by rw [htype]; rfl), PrimaryFits]
    omega

theorem inside_sum_iff {a n : UInt64} : Inside size a (a + n) ↔ a.toNat + n.toNat ≤ size.toNat := by
  have ha := a.toNat_lt
  have hn := n.toNat_lt
  have hs := size.toNat_lt
  unfold Inside
  rw [UInt64.le_iff_toNat_le, UInt64.le_iff_toNat_le, UInt64.toNat_add]
  omega

theorem apart_iff {a b c d : UInt64} : (∀ x, ¬((a ≤ x ∧ x < b) ∧ (c ≤ x ∧ x < d))) ↔
    b.toNat ≤ a.toNat ∨ d.toNat ≤ c.toNat ∨ b.toNat ≤ c.toNat ∨ d.toNat ≤ a.toNat := by
  simp only [UInt64.le_iff_toNat_le, UInt64.lt_iff_toNat_lt]
  constructor
  · intro hapart
    have hfirst := hapart a
    have hsecond := hapart c
    omega
  · intro h x
    omega

/-- **The two ranges are apart**, the second from where the first would end if it started at 0. -/
theorem apart_ranges_iff (hfit : PrimaryFits (S.type.common P.type) S.toUInt64.toNat P.toUInt64.toNat size.toNat)
    (hsum : P.toUInt64.toNat + Q.toUInt64.toNat < 2 ^ 64) :
    (∀ x, ¬((S.toUInt64 ≤ x ∧ x < (S.add P).toUInt64) ∧ (P.toUInt64 ≤ x ∧ x < P.toUInt64 + Q.toUInt64))) ↔
      S.toUInt64.toNat = 0 ∨ P.toUInt64.toNat = 0 ∨ Q.toUInt64.toNat = 0 ∨
        P.toUInt64.toNat + Q.toUInt64.toNat ≤ S.toUInt64.toNat ∨
        S.type.common P.type = .unsignedInt ∧ 2 ^ 32 ≤ P.toUInt64.toNat := by
  have hS := S.toUInt64.toNat_lt
  have hP := P.toUInt64.toNat_lt
  have hsize := size.toNat_lt
  rw [apart_iff, UInt64.toNat_add, Nat.mod_eq_of_lt hsum]
  cases htype : S.type.common P.type with
  | int =>
    obtain ⟨hs, hp⟩ := CType.common_eq_int htype
    have hs' := CInt.toNat_of_int hs
    have hp' := CInt.toNat_of_int hp
    rw [htype, PrimaryFits] at hfit
    rw [CInt.toNat_add_int htype]
    simp only [reduceCtorEq, false_and, or_false]
    split at hfit <;> split <;> omega
  | unsignedInt =>
    obtain ⟨hs, hp⟩ := CType.common_eq_unsignedInt htype
    have hp' : P.toUInt64.toNat < 2 ^ 32 ∨ 2 ^ 64 - 2 ^ 31 ≤ P.toUInt64.toNat := CInt.toNat_of_narrow hp
    rw [htype, PrimaryFits] at hfit
    rw [CInt.toNat_add_unsignedInt htype]
    simp only [true_and]
    omega
  | longLong | unsignedLongLong =>
    rw [htype, PrimaryFits] at hfit
    rw [CInt.toNat_add_wide (by rw [htype]; rfl)]
    simp only [reduceCtorEq, false_and, or_false]
    omega

end Arithmetic

/-! ## Good layouts -/

/-- The configured values, as 64-bit numbers, suit a device of `size` bytes: if the first check passes, the primary partition
fits from where it starts; if both pass, the end of the secondary does not wrap, and the primary starts at 0 or behind the
secondary, or one of them is empty, or the primary is one of a negative size in an unsigned sum. -/
structure SizesFit (primaryStart primarySize secondarySize : CInt) (size : UInt64) (two : Bool) : Prop where
  primary : primarySize.toUInt64.toNat ≤ size.toNat → PrimaryFits (primaryStart.type.common primarySize.type)
    primaryStart.toUInt64.toNat primarySize.toUInt64.toNat size.toNat
  secondary : two = true → primarySize.toUInt64.toNat ≤ size.toNat →
    (primarySize.toUInt64.toNat + secondarySize.toUInt64.toNat) % 2 ^ 64 ≤ size.toNat →
      primarySize.toUInt64.toNat + secondarySize.toUInt64.toNat < 2 ^ 64 ∧
        (primaryStart.toUInt64.toNat = 0 ∨ primarySize.toUInt64.toNat = 0 ∨ secondarySize.toUInt64.toNat = 0 ∨
          primarySize.toUInt64.toNat + secondarySize.toUInt64.toNat ≤ primaryStart.toUInt64.toNat ∨
          primaryStart.type.common primarySize.type = .unsignedInt ∧ 2 ^ 32 ≤ primarySize.toUInt64.toNat)

section ByDefault

variable {two asserts : Bool} {S P Q : CInt} {size start stop : UInt64}

theorem passed_primary_byDefault : Passed (.byDefault two S P Q asserts) two size .primary start stop ↔
    P.toUInt64 ≤ size ∧ start = S.toUInt64 ∧ stop = (S.add P).toUInt64 := by
  rw [passed_primary, Config.ChecksPassed, UInt64.not_lt]
  rfl

theorem passed_secondary_byDefault : Passed (.byDefault two S P Q asserts) two size .secondary start stop ↔
    (P.toUInt64 ≤ size ∧ P.toUInt64 + Q.toUInt64 ≤ size) ∧ two = true ∧ start = P.toUInt64 ∧
      stop = P.toUInt64 + Q.toUInt64 := by
  rw [passed_secondary, Config.ChecksPassed, UInt64.not_lt, UInt64.not_lt]
  rfl

end ByDefault

/-- **The table entries are good exactly if the configured values suit the device.** -/
theorem goodLayout_iff (two asserts : Bool) (primaryStart primarySize secondarySize : CInt) (size : UInt64) :
    GoodLayout (.byDefault two primaryStart primarySize secondarySize asserts) two size ↔
      SizesFit primaryStart primarySize secondarySize size two := by
  constructor
  · rintro ⟨hinside, hdisjoint⟩
    have hfits : primarySize.toUInt64 ≤ size → PrimaryFits (primaryStart.type.common primarySize.type)
        primaryStart.toUInt64.toNat primarySize.toUInt64.toNat size.toNat := fun hle =>
      (inside_primary_iff hle).mp (hinside .primary _ _ (passed_primary_byDefault.mpr ⟨hle, rfl, rfl⟩))
    refine ⟨fun hle => hfits (UInt64.le_iff_toNat_le.mpr hle), fun htwo hle hle2 => ?_⟩
    rw [← UInt64.le_iff_toNat_le] at hle
    rw [← UInt64.toNat_add, ← UInt64.le_iff_toNat_le] at hle2
    have hpassed := (@passed_secondary_byDefault two asserts primaryStart primarySize secondarySize size _ _).mpr
      ⟨⟨hle, hle2⟩, htwo, rfl, rfl⟩
    have hsecondary := inside_sum_iff.mp (hinside .secondary _ _ hpassed)
    have hnowrap := Nat.lt_of_le_of_lt hsecondary size.toNat_lt
    refine ⟨hnowrap, (apart_ranges_iff (hfits hle) hnowrap).mp ?_⟩
    exact hdisjoint htwo _ _ _ _ (passed_primary_byDefault.mpr ⟨hle, rfl, rfl⟩) hpassed
  · rintro ⟨hprimary, hsecondary⟩
    constructor
    · intro v start stop hpassed
      cases v with
      | primary =>
        obtain ⟨hle, rfl, rfl⟩ := passed_primary_byDefault.mp hpassed
        exact (inside_primary_iff hle).mpr (hprimary (UInt64.le_iff_toNat_le.mp hle))
      | secondary =>
        obtain ⟨⟨hle, hle2⟩, htwo, rfl, rfl⟩ := passed_secondary_byDefault.mp hpassed
        rw [UInt64.le_iff_toNat_le] at hle
        rw [UInt64.le_iff_toNat_le, UInt64.toNat_add] at hle2
        have hnowrap := (hsecondary htwo hle hle2).1
        rw [Nat.mod_eq_of_lt hnowrap] at hle2
        exact inside_sum_iff.mpr hle2
    · intro htwo a b c d hpassed1 hpassed2
      obtain ⟨hle, rfl, rfl⟩ := passed_primary_byDefault.mp hpassed1
      obtain ⟨⟨_, hle2⟩, _, rfl, rfl⟩ := passed_secondary_byDefault.mp hpassed2
      rw [UInt64.le_iff_toNat_le] at hle
      rw [UInt64.le_iff_toNat_le, UInt64.toNat_add] at hle2
      obtain ⟨hnowrap, hapart⟩ := hsecondary htwo hle hle2
      exact (apart_ranges_iff (hprimary hle) hnowrap).mpr hapart

/-- 256 MB, as an `int`. -/
def quarterGB : CInt := CType.int.convert 268435456

/-- Two partitions of 256 MB from 256 MB on, on a device of 512 MB. -/
def overlapping : Config := .byDefault true quarterGB quarterGB quarterGB true

/-- Both checks pass, and the table entries of the two partitions are for the same range. -/
theorem overlapping_same_range : Passed overlapping true 536870912 .primary 268435456 536870912 ∧
    Passed overlapping true 536870912 .secondary 268435456 536870912 ∧ ¬GoodLayout overlapping true 536870912 := by
  have hpassed1 : Passed overlapping true 536870912 .primary 268435456 536870912 :=
    passed_primary_byDefault.mpr ⟨by decide, by decide, by decide⟩
  have hpassed2 : Passed overlapping true 536870912 .secondary 268435456 536870912 :=
    passed_secondary_byDefault.mpr ⟨⟨by decide, by decide⟩, rfl, by decide, by decide⟩
  refine ⟨hpassed1, hpassed2, fun h => ?_⟩
  exact h.disjoint rfl _ _ _ _ hpassed1 hpassed2 268435456 ⟨by decide, by decide⟩

/-- 1 GB from 1 GB on ends behind the end of a device of 4 GB, since the sum is an `int`. -/
example : Config.stop (.byDefault false oneGB oneGB oneGB true) .primary = 18446744071562067968 := by decide

end PelionClient.Platform
