import Mathlib.Data.Nat.Count
import Mathlib.Tactic

/-!
# Counting in windows

How often a predicate on the natural numbers holds in a window `k, …, k + n - 1`.

## Main results

* `window_of_periodic` : a window as long as a period holds what the first period holds.
* `window_prefix_or_tail` : a window over a predicate that holds below `a` and from `n` on.
* `window_cyclic` : a window one short of a period over a cyclic one.
-/

namespace EFS

variable (p : ℕ → Prop) [DecidablePred p]

/-- How often `p` holds among `n` numbers from `k` on. -/
def window (k n : ℕ) : ℕ := Nat.count (fun i => p (k + i)) n

variable {p}

theorem window_congr {q : ℕ → Prop} [DecidablePred q] (h : ∀ j, p j ↔ q j) (k n : ℕ) :
    window p k n = window q k n := by
  simp only [window, h]

theorem window_of_forall (h : ∀ j, p j) (k n : ℕ) : window p k n = n :=
  Nat.count_of_forall fun _ _ => h _

theorem window_of_forall_not (h : ∀ j, ¬ p j) (k n : ℕ) : window p k n = 0 :=
  Nat.count_of_forall_not fun _ _ => h _

theorem count_add_window (k n : ℕ) : Nat.count p k + window p k n = Nat.count p (k + n) :=
  (Nat.count_add p k n).symm

theorem window_succ_left (k n : ℕ) :
    window p k (n + 1) = (if p k then 1 else 0) + window p (k + 1) n := by
  have h₁ := count_add_window (p := p) k (n + 1)
  have h₂ := count_add_window (p := p) (k + 1) n
  rw [Nat.count_succ, show k + 1 + n = k + (n + 1) by omega] at h₂
  omega

theorem window_succ_right (k n : ℕ) :
    window p k (n + 1) = window p k n + if p (k + n) then 1 else 0 :=
  Nat.count_succ _ n

/-- A window as long as a period holds what the first period holds. -/
theorem window_of_periodic {m : ℕ} (hp : ∀ j, p (m + j) ↔ p j) (k : ℕ) :
    window p k m = Nat.count p m := by
  have h₁ := count_add_window (p := p) k m
  have h₂ := count_add_window (p := p) m k
  have h₃ : window p m k = Nat.count p k := by simp only [window, hp]
  rw [Nat.add_comm k m] at h₁
  omega

theorem count_prefix_or_tail {a n : ℕ} (h : a ≤ n) (m : ℕ) :
    Nat.count (fun j => j < a ∨ n ≤ j) m = min m a + (m - n) := by
  induction m with
  | zero => simp
  | succ m ih =>
    rw [Nat.count_succ, ih]
    split_ifs with hm
    · omega
    · omega

/-- A window over a predicate that holds below `a` and from `n` on holds `a` times exactly if it
starts at `a` or before. -/
theorem window_prefix_or_tail {a n : ℕ} (ha : a < n) (k : ℕ) :
    window (fun j => j < a ∨ n ≤ j) k n = a ↔ k ≤ a := by
  have h := count_add_window (p := fun j => j < a ∨ n ≤ j) k n
  rw [count_prefix_or_tail ha.le, count_prefix_or_tail ha.le] at h
  omega

/-- One cycle of a predicate that holds below `a` and at the end `n` of the cycle. -/
theorem count_cyclic {a n : ℕ} (ha : a < n) :
    Nat.count (fun j => j % (n + 1) < a ∨ j % (n + 1) = n) (n + 1) = a + 1 := by
  -- before the end of the cycle only the numbers below `a` count
  have hbelow (m : ℕ) (hm : m ≤ n) :
      Nat.count (fun j => j % (n + 1) < a ∨ j % (n + 1) = n) m = min m a := by
    induction m with
    | zero => simp
    | succ m ih =>
      rw [Nat.count_succ, ih (by omega), Nat.mod_eq_of_lt (by omega)]
      split_ifs with h
      · omega
      · omega
  rw [Nat.count_succ, hbelow n le_rfl, if_pos (.inr (Nat.mod_eq_of_lt n.lt_succ_self))]
  omega

theorem add_mod_cycle (k n : ℕ) :
    (k + n) % (n + 1) = if k % (n + 1) = 0 then n else k % (n + 1) - 1 := by
  have hr : k % (n + 1) < n + 1 := Nat.mod_lt _ n.succ_pos
  rw [Nat.add_mod, Nat.mod_eq_of_lt n.lt_succ_self]
  split_ifs with h
  · rw [h, Nat.zero_add, Nat.mod_eq_of_lt n.lt_succ_self]
  · rw [show k % (n + 1) + n = k % (n + 1) - 1 + (n + 1) by omega, Nat.add_mod_right,
      Nat.mod_eq_of_lt (by omega)]

/-- A window over a cyclic predicate that holds below `a` and at the end `n` of the cycle holds `a`
times exactly if it starts, in its cycle, at `a` or before. -/
theorem window_cyclic {a n : ℕ} (ha : a < n) (k : ℕ) :
    window (fun j => j % (n + 1) < a ∨ j % (n + 1) = n) k n = a ↔ k % (n + 1) ≤ a := by
  -- the window with the number after it is a whole cycle
  have hperiod := window_of_periodic (p := fun j => j % (n + 1) < a ∨ j % (n + 1) = n)
    (m := n + 1) (fun j => by simp) k
  rw [count_cyclic ha, window_succ_right] at hperiod
  have hlast : (k + n) % (n + 1) < a ∨ (k + n) % (n + 1) = n ↔ k % (n + 1) ≤ a := by
    have hr : k % (n + 1) < n + 1 := Nat.mod_lt _ n.succ_pos
    rw [add_mod_cycle]
    split_ifs with h
    · omega
    · omega
  rw [← hlast]
  split_ifs at hperiod with hm
  · simp only [hm, iff_true]
    omega
  · simp only [hm, iff_false]
    omega

end EFS
