import Mathlib.Order.Lattice

/-!
# The network connection (`mcc_platform_init_connection`)

The connection is tried a fixed number of times, and the first success ends the loop (`connectLoop_cases`). So it is made
exactly if there is an interface and one of the attempts succeeds (`initConnection_eq_zero`).
-/

namespace PelionClient.Platform

/-- `MCC_PLATFORM_CONNECTION_RETRY_COUNT` -/
def connectionRetryCount : Nat := 3

/-- The network of the device: whether there is a default interface, and what its `connect` returns at each call. -/
structure Network where
  present : Bool
  connect : Nat → Int

/-- The loop with `left` rounds to go, after `calls` calls of `connect`: what it returns, and the calls at its end. -/
def connectLoop (connect : Nat → Int) : Nat → Nat → Int × Nat
  | 0, calls => (-1, calls)
  | left + 1, calls => if connect calls = 0 then (0, calls + 1) else connectLoop connect left (calls + 1)

/-- `mcc_platform_init_connection`: what it returns, and whether `network_interface` is set after it. -/
def initConnection (network : Network) : Int × Bool :=
  if network.present then ((connectLoop network.connect connectionRetryCount 0).1, true) else (-1, false)

section Loop

variable {connect : Nat → Int}

/-- **The loop succeeds if a call does**, and then that was its last. -/
theorem connectLoop_cases (connect : Nat → Int) (left calls : Nat) :
    (∃ k < left, connect (calls + k) = 0 ∧ (∀ j < k, connect (calls + j) ≠ 0) ∧
      connectLoop connect left calls = (0, calls + k + 1)) ∨
    (∀ k < left, connect (calls + k) ≠ 0) ∧ connectLoop connect left calls = (-1, calls + left) := by
  induction left generalizing calls with
  | zero => exact Or.inr ⟨fun k hk => absurd hk (Nat.not_lt_zero k), rfl⟩
  | succ left ih =>
    by_cases hnow : connect calls = 0
    · refine Or.inl ⟨0, Nat.succ_pos left, hnow, fun j hj => absurd hj (Nat.not_lt_zero j), ?_⟩
      rw [connectLoop, if_pos hnow]
    · have hshift : ∀ k, calls + 1 + k = calls + (k + 1) := fun k => by omega
      rcases ih (calls + 1) with ⟨k, hk, hok, hfail, hloop⟩ | ⟨hfail, hloop⟩
      · refine Or.inl ⟨k + 1, Nat.succ_lt_succ hk, hshift k ▸ hok, fun j hj => ?_, ?_⟩
        · cases j with
          | zero => exact hnow
          | succ j => exact hshift j ▸ hfail j (Nat.lt_of_succ_lt_succ hj)
        · rw [connectLoop, if_neg hnow, hloop, hshift]
      · refine Or.inr ⟨fun j hj => ?_, ?_⟩
        · cases j with
          | zero => exact hnow
          | succ j => exact hshift j ▸ hfail j (Nat.lt_of_succ_lt_succ hj)
        · rw [connectLoop, if_neg hnow, hloop, hshift]

end Loop

/-- The connection is made if there is an interface and one of the attempts succeeds. -/
theorem initConnection_eq_zero {network : Network} :
    (initConnection network).1 = 0 ↔ network.present = true ∧ ∃ k < connectionRetryCount, network.connect k = 0 := by
  unfold initConnection
  cases network.present with
  | false => simp
  | true =>
    rcases connectLoop_cases network.connect connectionRetryCount 0 with ⟨k, hk, hok, _, hloop⟩ | ⟨hfail, hloop⟩
    · rw [if_pos rfl, hloop]
      exact iff_of_true rfl ⟨rfl, k, hk, Nat.zero_add k ▸ hok⟩
    · rw [if_pos rfl, hloop]
      refine iff_of_false (by simp) ?_
      rintro ⟨_, k, hk, hok⟩
      exact hfail k hk ((Nat.zero_add k).symm ▸ hok)

end PelionClient.Platform
