import Mathlib.Tactic

/-!
# One request

A request is raised once, in step `m - 1` of a run, and is then pending until a step serves it.
Each step in which it waits brings it closer, by a measure that no step lets grow.

* `Request.served_once` : it is served by exactly one step, and not later than its measure says.
-/

namespace EFS

/-- A request along a run: whether it is pending before a step, and whether the step serves it. -/
structure Request (pending served : ℕ → Prop) (m : ℕ) (ahead : ℕ → ℕ) : Prop where
  zero : ¬ pending 0
  /-- A request that is not served stays. -/
  succ_iff : ∀ n, pending (n + 1) ↔ (pending n ∨ n + 1 = m) ∧ ¬ served n
  of_served : ∀ n, served n → pending n ∨ n + 1 = m
  ahead_le : ∀ n, ahead (n + 1) ≤ ahead n
  /-- A step that passes over the request serves another one. -/
  ahead_lt : ∀ n, pending n ∨ n + 1 = m → ¬ served n → ahead (n + 1) + 1 ≤ ahead n

namespace Request

variable {pending served : ℕ → Prop} {m : ℕ} {ahead : ℕ → ℕ}
  (h : Request pending served m ahead)

include h

theorem not_pending {n : ℕ} (hn : n < m) : ¬ pending n := by
  induction n with
  | zero => exact h.zero
  | succ n ih =>
    intro hpending
    rcases ((h.succ_iff n).1 hpending).1 with hpending | hm
    · exact ih (by omega) hpending
    · omega

theorem le_of_served {n : ℕ} (hn : served n) : m ≤ n + 1 := by
  by_contra hlt
  rcases h.of_served n hn with hpending | hm
  · exact h.not_pending (by omega) hpending
  · omega

theorem ahead_le_zero (n : ℕ) : ahead n ≤ ahead 0 := by
  induction n with
  | zero => exact le_rfl
  | succ n ih => exact (h.ahead_le n).trans ih

theorem waits (hm : 0 < m) {k : ℕ} (hnot : ∀ j < k, ¬ served (m - 1 + j)) :
    (pending (m - 1 + k) ∨ m - 1 + k + 1 = m) ∧ ahead (m - 1 + k) + k ≤ ahead (m - 1) := by
  induction k with
  | zero => exact ⟨.inr (by omega), le_rfl⟩
  | succ k ih =>
    obtain ⟨hraised, hahead⟩ := ih fun j hj => hnot j (hj.trans (Nat.lt_succ_self k))
    have hpassed := hnot k (Nat.lt_succ_self k)
    have hlt := h.ahead_lt _ hraised hpassed
    refine ⟨.inl ((h.succ_iff _).2 ⟨hraised, hpassed⟩), ?_⟩
    change ahead (m - 1 + k + 1) + (k + 1) ≤ ahead (m - 1)
    omega

/-- Once served, it does not come back. -/
theorem not_served_later {t n : ℕ} (ht : served t) (hn : t < n) : ¬ served n := by
  have hle := h.le_of_served ht
  have hgone : ∀ k, ¬ pending (t + 1 + k) := by
    intro k
    induction k with
    | zero => exact fun hpending => ((h.succ_iff t).1 hpending).2 ht
    | succ k ih =>
      intro hpending
      rcases ((h.succ_iff (t + 1 + k)).1 hpending).1 with hpending | hm
      · exact ih hpending
      · omega
  intro hserved
  obtain ⟨k, rfl⟩ := Nat.exists_eq_add_of_le (Nat.succ_le_of_lt hn)
  rcases h.of_served _ hserved with hpending | hm
  · exact hgone k hpending
  · omega

/-- **Service.**  The request is served once, after it has been raised, and by then not more steps
have passed over it than there were requests ahead. -/
theorem served_once (hm : 0 < m) :
    ∃ t, m ≤ t + 1 ∧ t + 1 ≤ m + ahead 0 ∧ ∀ n, served n ↔ n = t := by
  obtain ⟨j, hj, hserved⟩ : ∃ j ≤ ahead 0, served (m - 1 + j) := by
    by_contra hnone
    have hnot : ∀ j < ahead 0 + 1, ¬ served (m - 1 + j) :=
      fun j hj hserved => hnone ⟨j, Nat.le_of_lt_succ hj, hserved⟩
    have hfall := (h.waits hm hnot).2
    have hle := h.ahead_le_zero (m - 1)
    omega
  refine ⟨m - 1 + j, by omega, by omega, fun n => ⟨fun hn => ?_, fun hn => hn ▸ hserved⟩⟩
  rcases lt_trichotomy n (m - 1 + j) with hlt | heq | hgt
  · exact absurd hserved (h.not_served_later hn hlt)
  · exact heq
  · exact absurd hn (h.not_served_later hserved hgt)

end Request

end EFS
