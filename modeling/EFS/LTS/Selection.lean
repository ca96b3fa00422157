import Mathlib.Data.Finset.Card
import Mathlib.Data.Prod.Lex
import Mathlib.Tactic

/-!
# Loops that take the best of what is left

Two patterns of selection, over any type of candidates:

* `selectBest` : one pass over a list that keeps the candidate of the smallest rank seen so far.
  A later candidate replaces the best one only if its rank is strictly smaller, so that among
  equal ranks the first one wins (`selectBest_spec`);
* `Loop f s as t` : `while (f()) {}`, where a call of `f` either reports what it has taken or that
  nothing was left.  If every call takes the least of the work that is left, the loop ends and has
  taken the work in increasing order (`Loop.of_least`).
-/

namespace EFS

variable {K α : Type*} [LinearOrder α]

/-- The best candidate so far, after one more element `k` was looked at. -/
def keepBest (c : K → Prop) [DecidablePred c] (rank : K → α) (best : Option K) (k : K) :
    Option K :=
  if c k then
    match best with
    | none => some k
    | some b => if rank k < rank b then some k else some b
  else best

/-- The candidate (`c`) of smallest rank in a list, the first one among equals. -/
def selectBest (c : K → Prop) [DecidablePred c] (rank : K → α) (l : List K) : Option K :=
  l.foldl (keepBest c rank) none

section SelectBest

variable [LinearOrder K] {c : K → Prop} [DecidablePred c] {rank : K → α}

/-- What a pass over `l` has found: no candidate, or the least one by rank and position. -/
def IsBest (c : K → Prop) (rank : K → α) (l : List K) : Option K → Prop
  | none => ∀ k ∈ l, ¬ c k
  | some b => b ∈ l ∧ c b ∧ ∀ k ∈ l, c k → k ≠ b → toLex (rank b, b) < toLex (rank k, k)

/-- One more element of the list, larger than all before. -/
theorem IsBest.snoc {l : List K} {best : Option K} {k : K} (h : IsBest c rank l best)
    (hk : ∀ j ∈ l, j < k) :
    IsBest c rank (l ++ [k]) (keepBest c rank best k) := by
  unfold keepBest
  by_cases hc : c k
  · rw [if_pos hc]
    cases best with
    | none =>
      refine ⟨by simp, hc, ?_⟩
      intro j hj hcj hne
      rcases List.mem_append.1 hj with hj | hj
      · exact absurd hcj (h j hj)
      · exact absurd (List.mem_singleton.1 hj) hne
    | some b =>
      obtain ⟨hb, hcb, hmin⟩ := h
      simp only
      split_ifs with hlt
      · refine ⟨by simp, hc, ?_⟩
        intro j hj hcj hne
        rcases List.mem_append.1 hj with hj | hj
        · -- `k` beats the best one so far, which beats every other candidate
          have hkb : toLex (rank k, k) < toLex (rank b, b) := Prod.Lex.toLex_lt_toLex.2 (.inl hlt)
          rcases eq_or_ne j b with rfl | hjb
          · exact hkb
          · exact hkb.trans (hmin j hj hcj hjb)
        · exact absurd (List.mem_singleton.1 hj) hne
      · refine ⟨List.mem_append_left _ hb, hcb, ?_⟩
        intro j hj hcj hne
        rcases List.mem_append.1 hj with hj | hj
        · exact hmin j hj hcj hne
        · obtain rfl := List.mem_singleton.1 hj
          -- `k` has a worse rank, or the same one and a later position
          rcases (not_lt.1 hlt).lt_or_eq with h | h
          · exact Prod.Lex.toLex_lt_toLex.2 (.inl h)
          · exact Prod.Lex.toLex_lt_toLex.2 (.inr ⟨h, hk b hb⟩)
  · rw [if_neg hc]
    cases best with
    | none =>
      intro j hj
      rcases List.mem_append.1 hj with hj | hj
      · exact h j hj
      · rwa [List.mem_singleton.1 hj]
    | some b =>
      obtain ⟨hb, hcb, hmin⟩ := h
      refine ⟨List.mem_append_left _ hb, hcb, ?_⟩
      intro j hj hcj hne
      rcases List.mem_append.1 hj with hj | hj
      · exact hmin j hj hcj hne
      · rw [List.mem_singleton.1 hj] at hcj
        exact absurd hcj hc

/-- A pass over an increasing list finds the least candidate by rank and position. -/
theorem selectBest_spec {l : List K} (hl : l.Pairwise (· < ·)) (rank : K → α) :
    IsBest c rank l (selectBest c rank l) := by
  induction l using List.reverseRecOn with
  | nil => intro k hk; cases hk
  | append_singleton l k ih =>
    obtain ⟨hl, -, hlt⟩ := List.pairwise_append.1 hl
    have hk : ∀ j ∈ l, j < k := fun j hj => hlt j hj k (List.mem_singleton.2 rfl)
    have := (ih hl).snoc hk
    rwa [selectBest, List.foldl_concat]

end SelectBest

/-! ### Draining loops -/

variable {S A : Type*}

/-- `while (f()) {}` : the calls before the last one report `as`, the last one reports nothing. -/
inductive Loop (f : S → S × Option A) : S → List A → S → Prop
  | stop {s t : S} : f s = (t, none) → Loop f s [] t
  | again {s t u : S} {a : A} {as : List A} :
      f s = (t, some a) → Loop f t as u → Loop f s (a :: as) u

namespace Loop

variable {f : S → S × Option A}

/-- A loop has one outcome only. -/
theorem unique {s t t' : S} {as as' : List A} (h : Loop f s as t) (h' : Loop f s as' t') :
    as = as' ∧ t = t' := by
  induction h generalizing as' with
  | stop hf =>
    cases h' with
    | stop hf' => exact ⟨rfl, (Prod.mk.inj (hf.symm.trans hf')).1⟩
    | again hf' _ => cases (Prod.mk.inj (hf.symm.trans hf')).2
  | again hf _ ih =>
    cases h' with
    | stop hf' => cases (Prod.mk.inj (hf.symm.trans hf')).2
    | again hf' hl' =>
      obtain ⟨rfl, ha⟩ := Prod.mk.inj (hf.symm.trans hf')
      obtain ⟨rfl, rfl⟩ := ih hl'
      exact ⟨by rw [Option.some.inj ha], rfl⟩

/-- **Draining rule.**  If each call takes the least of the work that is left, under an invariant
`I`, then the loop ends, and it has taken the work in increasing order. -/
theorem of_least [DecidableEq K] {I : S → Prop} (work : S → Finset K) (key : K → α)
    (out : K → Option A) (hstop : ∀ s, I s → work s = ∅ → f s = (s, none))
    (htake : ∀ s, I s → (work s).Nonempty → ∃ k ∈ work s, ∃ t,
      (∀ j ∈ work s, j ≠ k → key k < key j) ∧ (out k).isSome ∧ f s = (t, out k) ∧ I t ∧
        work t = (work s).erase k)
    {s : S} (hs : I s) :
    ∃ (ks : List K) (as : List A) (t : S),
      ks.Pairwise (fun j k => key j < key k) ∧ (∀ k, k ∈ ks ↔ k ∈ work s) ∧
      as.map some = ks.map out ∧ Loop f s as t ∧ I t ∧ work t = ∅ := by
  -- induction on how much work is left
  induction hn : (work s).card generalizing s with
  | zero =>
    have hw := Finset.card_eq_zero.1 hn
    exact ⟨[], [], s, .nil, by simp [hw], rfl, .stop (hstop s hs hw), hs, hw⟩
  | succ n ih =>
    obtain ⟨k, hk, t, hmin, hout, hf, ht, hw⟩ := htake s hs (Finset.card_pos.1 (by omega))
    obtain ⟨a, ha⟩ := Option.isSome_iff_exists.1 hout
    have hcard : (work t).card = n := by rw [hw, Finset.card_erase_of_mem hk]; omega
    obtain ⟨ks, as, u, hsorted, hmem, has, hloop, hu, hempty⟩ := ih ht hcard
    refine ⟨k :: ks, a :: as, u, ?_, ?_, by simp [ha, has], ?_, hu, hempty⟩
    · refine List.pairwise_cons.2 ⟨?_, hsorted⟩
      intro j hj
      have hj := (hmem j).1 hj
      rw [hw] at hj
      exact hmin j (Finset.mem_of_mem_erase hj) (Finset.ne_of_mem_erase hj)
    · intro j
      rw [List.mem_cons, hmem, hw, Finset.mem_erase]
      constructor
      · rintro (rfl | h)
        · exact hk
        · exact h.2
      · intro h
        by_cases hjk : j = k
        · exact .inl hjk
        · exact .inr ⟨hjk, h⟩
    · exact .again (by rw [hf, ha]) hloop

end Loop

end EFS
