import Mathlib.Data.List.Perm.Basic
import Mathlib.Data.Set.Lattice
import Mathlib.Order.CompletePartialOrder

/-!
# Actions with disjoint footprints

Several agents act on a memory in rounds, one after the other.  An agent has a footprint: it writes
the addresses `W` only, and what it does to the addresses `P` depends on nothing else.  If no agent
writes to the addresses `P` of another one, each of them acts there as if it were alone, and the
order within the rounds does not matter.
-/

namespace EFS

variable {ι M A V : Type*}

/-- The memories hold the same at the addresses `P`. -/
def AgreeOn (read : M → A → V) (P : Set A) (m m' : M) : Prop := ∀ a ∈ P, read m a = read m' a

/-- The action writes to `W` only, and what it does to `P` depends on `P` only. -/
structure Footprint (read : M → A → V) (P W : Set A) (f : M → M) : Prop where
  keeps : ∀ m, ∀ a ∉ W, read (f m) a = read m a
  congr : ∀ m m', AgreeOn read P m m' → AgreeOn read P (f m) (f m')

/-- Each agent of the list acts once. -/
def round (f : ι → M → M) (l : List ι) (m : M) : M := l.foldl (fun m i => f i m) m

/-- Rounds, in the `k`-th of which the agent `i` does `f k i`. -/
def rounds (f : ℕ → ι → M → M) (l : List ι) (m : M) : ℕ → M
  | 0 => m
  | k + 1 => round (f k) l (rounds f l m k)

section

variable {read : M → A → V} {P W : ι → Set A} {l : List ι}

theorem AgreeOn.trans {Q : Set A} {m m' m'' : M} (h : AgreeOn read Q m m')
    (h' : AgreeOn read Q m' m'') : AgreeOn read Q m m'' :=
  fun a ha => (h a ha).trans (h' a ha)

theorem AgreeOn.symm {Q : Set A} {m m' : M} (h : AgreeOn read Q m m') : AgreeOn read Q m' m :=
  fun a ha => (h a ha).symm

theorem round_congr {f g : ι → M → M} (h : ∀ i ∈ l, f i = g i) (m : M) :
    round f l m = round g l m :=
  List.foldl_ext _ _ _ fun m i hi => congrFun (h i hi) m

theorem read_round {f : ι → M → M} (hf : ∀ i ∈ l, Footprint read (P i) (W i) (f i)) {a : A}
    (ha : ∀ i ∈ l, a ∉ W i) (m : M) : read (round f l m) a = read m a := by
  induction l generalizing m with
  | nil => rfl
  | cons i l ih =>
    have hi := (hf i List.mem_cons_self).keeps m a (ha i List.mem_cons_self)
    have hl := ih (fun j hj => hf j (List.mem_cons_of_mem _ hj))
      (fun j hj => ha j (List.mem_cons_of_mem _ hj)) (f i m)
    exact hl.trans hi

theorem agreeOn_round_of_notMem {f : ι → M → M} (hf : ∀ i ∈ l, Footprint read (P i) (W i) (f i))
    {d : ι} (hd : d ∉ l) (hdisjoint : ∀ i ∈ l, i ≠ d → Disjoint (W i) (P d)) (m : M) :
    AgreeOn read (P d) (round f l m) m := by
  intro a ha
  refine read_round hf ?_ m
  intro i hi haW
  have hne : i ≠ d := fun h => hd (h ▸ hi)
  exact Set.disjoint_left.1 (hdisjoint i hi hne) haW ha

/-- **Round lemma.**  At its own addresses an agent acts as if it were alone. -/
theorem agreeOn_round {f : ι → M → M} (hf : ∀ i ∈ l, Footprint read (P i) (W i) (f i))
    (hl : l.Nodup) {d : ι} (hd : d ∈ l) (hdisjoint : ∀ i ∈ l, i ≠ d → Disjoint (W i) (P d))
    (m : M) : AgreeOn read (P d) (round f l m) (f d m) := by
  induction l generalizing m with
  | nil => cases hd
  | cons i l ih =>
    have hf' : ∀ j ∈ l, Footprint read (P j) (W j) (f j) :=
      fun j hj => hf j (List.mem_cons_of_mem _ hj)
    have hdisjoint' : ∀ j ∈ l, j ≠ d → Disjoint (W j) (P d) :=
      fun j hj => hdisjoint j (List.mem_cons_of_mem _ hj)
    obtain ⟨hi, hl⟩ := List.nodup_cons.1 hl
    by_cases hid : i = d
    · subst hid
      exact agreeOn_round_of_notMem hf' hi hdisjoint' (f i m)
    · -- `i` acts before `d`, and not on its addresses
      have hdl : d ∈ l := (List.mem_cons.1 hd).resolve_left (Ne.symm hid)
      have hkeeps : AgreeOn read (P d) (f i m) m := by
        intro a ha
        refine (hf i List.mem_cons_self).keeps m a ?_
        intro haW
        exact Set.disjoint_left.1 (hdisjoint i List.mem_cons_self hid) haW ha
      exact (ih hf' hl hdl hdisjoint' (f i m)).trans
        ((hf d hd).congr _ _ hkeeps)

/-- **Run lemma.**  Two lists of agents leave the same at the addresses of an agent of both. -/
theorem agreeOn_rounds {f : ℕ → ι → M → M} {l' : List ι} {d : ι}
    (hf : ∀ k, ∀ i, i ∈ l ∨ i ∈ l' → Footprint read (P i) (W i) (f k i))
    (hl : l.Nodup) (hl' : l'.Nodup) (hd : d ∈ l) (hd' : d ∈ l')
    (hdisjoint : ∀ i, i ∈ l ∨ i ∈ l' → i ≠ d → Disjoint (W i) (P d)) (m : M) (k : ℕ) :
    AgreeOn read (P d) (rounds f l m k) (rounds f l' m k) := by
  induction k with
  | zero => exact fun _ _ => rfl
  | succ k ih =>
    have h := agreeOn_round (fun i hi => hf k i (.inl hi)) hl hd
      (fun i hi => hdisjoint i (.inl hi)) (rounds f l m k)
    have h' := agreeOn_round (fun i hi => hf k i (.inr hi)) hl' hd'
      (fun i hi => hdisjoint i (.inr hi)) (rounds f l' m k)
    exact (h.trans ((hf k d (.inl hd)).congr _ _ ih)).trans h'.symm

theorem read_rounds {f : ℕ → ι → M → M}
    (hf : ∀ k, ∀ i ∈ l, Footprint read (P i) (W i) (f k i)) {a : A} (ha : ∀ i ∈ l, a ∉ W i)
    (m : M) (k : ℕ) : read (rounds f l m k) a = read m a := by
  induction k with
  | zero => rfl
  | succ k ih => exact (read_round (hf k) ha _).trans ih

theorem read_rounds_perm {f : ℕ → ι → M → M} {l' : List ι} (h : l'.Perm l)
    (hf : ∀ k, ∀ i ∈ l, Footprint read (P i) (W i) (f k i)) (hl : l.Nodup)
    (hW : ∀ i ∈ l, W i ⊆ P i) (hdisjoint : ∀ i ∈ l, ∀ j ∈ l, i ≠ j → Disjoint (W i) (P j))
    (m : M) (k : ℕ) (a : A) : read (rounds f l' m k) a = read (rounds f l m k) a := by
  by_cases ha : ∃ d ∈ l, a ∈ W d
  · obtain ⟨d, hd, ha⟩ := ha
    have hmem : ∀ i, i ∈ l' ∨ i ∈ l → i ∈ l := fun i hi => hi.elim h.mem_iff.1 id
    exact agreeOn_rounds (fun k i hi => hf k i (hmem i hi)) (h.nodup_iff.2 hl) hl
      (h.mem_iff.2 hd) hd (fun i hi => hdisjoint i (hmem i hi) d hd) m k a (hW d hd ha)
  · have ha : ∀ d ∈ l, a ∉ W d := fun d hd haW => ha ⟨d, hd, haW⟩
    have hf' : ∀ k, ∀ i ∈ l', Footprint read (P i) (W i) (f k i) :=
      fun k i hi => hf k i (h.mem_iff.1 hi)
    rw [read_rounds hf ha, read_rounds hf' fun i hi => ha i (h.mem_iff.1 hi)]

end

end EFS
