/-
DmlPact/Lib/Timing.lean

How long the commands of a run take.  A run begins at some reading of the
clock, each of its commands takes some time, and the clock after `n` commands
is the sum; so it never goes backwards, and between two commands it moves by
exactly the time they took.
-/
import Mathlib.Algebra.BigOperators.Intervals
import Mathlib.Algebra.Order.BigOperators.Group.Finset

namespace Effect

/-- When a run begins, and how long each of its commands takes. -/
structure Timing where
  start : Nat
  spent : Nat → Nat

namespace Timing

variable (τ : Timing) {n m : Nat}

/-- The clock once `n` commands have been answered. -/
def clock (n : Nat) : Nat := τ.start + ∑ i ∈ Finset.range n, τ.spent i

/-- The time the commands from the `n`-th up to the `m`-th take. -/
def between (n m : Nat) : Nat := ∑ i ∈ Finset.Ico n m, τ.spent i

theorem clock_add_between (h : n ≤ m) : τ.clock n + τ.between n m = τ.clock m := by
  rw [clock, clock, between, Nat.add_assoc, Finset.sum_range_add_sum_Ico _ h]

/-- The part of it that goes to commands of one kind. -/
def takes {κ : Type} [DecidableEq κ] (kind : Nat → κ) (c : κ) (n m : Nat) : Nat :=
  ∑ i ∈ Finset.Ico n m with kind i = c, τ.spent i

/-- The parts of all the kinds that occur make up the whole. -/
theorem between_eq_sum {κ : Type} [DecidableEq κ] {kind : Nat → κ} {kinds : Finset κ}
    (h : ∀ i, n ≤ i → i < m → kind i ∈ kinds) :
    τ.between n m = ∑ c ∈ kinds, τ.takes kind c n m := by
  refine (Finset.sum_fiberwise_of_maps_to (fun i hi => ?_) _).symm
  obtain ⟨hn, hm⟩ := Finset.mem_Ico.mp hi
  exact h i hn hm

/-- A deadline that had not passed has not passed since exactly when what was
left of it was not used up. -/
theorem clock_le_iff {deadline : Nat} (h : n ≤ m) (hn : τ.clock n ≤ deadline) :
    τ.clock m ≤ deadline ↔ τ.between n m ≤ deadline - τ.clock n := by
  rw [← τ.clock_add_between h]
  omega

end Timing

end Effect
