import Mathlib.Tactic

/-!
# Forward copies of overlapping ranges

`forwardCopy src dst n l` copies `n` elements of a list one by one, in increasing order, from
position `src` on to position `dst` on.  When the destination begins inside the source, elements
that have been written are read again, and the first `dst - src` elements are repeated
(`getElem?_forwardCopy`).
-/

namespace EFS

variable {α : Type*}

/-- One element copied. -/
def copyOne (src dst : ℕ) (l : List α) : List α :=
  match l[src]? with
  | some v => l.set dst v
  | none => l

/-- The first `n` elements copied. -/
def forwardCopy (src dst : ℕ) : ℕ → List α → List α
  | 0, l => l
  | n + 1, l => copyOne (src + n) (dst + n) (forwardCopy src dst n l)

/-- Where the element copied to `dst + i` was at the beginning. -/
def copySource (src dst i : ℕ) : ℕ :=
  if dst ≤ src then src + i else src + i % (dst - src)

@[simp] theorem length_copyOne (src dst : ℕ) (l : List α) :
    (copyOne src dst l).length = l.length := by
  unfold copyOne
  split
  · exact List.length_set
  · rfl

@[simp] theorem length_forwardCopy (src dst n : ℕ) (l : List α) :
    (forwardCopy src dst n l).length = l.length := by
  induction n with
  | zero => rfl
  | succ n ih => rw [forwardCopy, length_copyOne, ih]

theorem getElem?_copyOne {src dst : ℕ} {l : List α} (hs : src < l.length) (hd : dst < l.length)
    (i : ℕ) : (copyOne src dst l)[i]? = if i = dst then l[src]? else l[i]? := by
  rw [copyOne, List.getElem?_eq_getElem hs]
  simp only [List.getElem?_set]
  split_ifs with h1 h2 h3 <;> grind

/-- An element that has been written is where an earlier one was. -/
theorem copySource_add {src dst n : ℕ} (h : src < dst) (hn : dst ≤ src + n) :
    copySource src dst (src + n - dst) = copySource src dst n := by
  have hmod : (n - (dst - src)) % (dst - src) = n % (dst - src) :=
    (Nat.mod_eq_sub_mod (by omega)).symm
  rw [copySource, copySource, if_neg (by omega), if_neg (by omega), ← hmod]
  congr 2
  omega

/-- **Forward copy.**  The closed form of the result, for ranges inside the list. -/
theorem getElem?_forwardCopy {src dst n : ℕ} {l : List α} (hs : src + n ≤ l.length)
    (hd : dst + n ≤ l.length) (i : ℕ) :
    (forwardCopy src dst n l)[i]? =
      if dst ≤ i ∧ i < dst + n then l[copySource src dst (i - dst)]? else l[i]? := by
  induction n generalizing i with
  | zero => rw [forwardCopy, if_neg (by omega)]
  | succ n ih =>
    have ih := ih (by omega) (by omega)
    rw [forwardCopy, getElem?_copyOne (by simp; omega) (by simp; omega), ih, ih]
    by_cases hi : i = dst + n
    · -- the new element, which may have been written before
      subst hi
      have hlast : dst ≤ dst + n ∧ dst + n < dst + (n + 1) := by omega
      rw [if_pos rfl, if_pos hlast, Nat.add_sub_cancel_left]
      by_cases hover : dst ≤ src + n ∧ src + n < dst + n
      · rw [if_pos hover, copySource_add (by omega) hover.1]
      · rw [if_neg hover]
        unfold copySource
        split_ifs with hle
        · rfl
        · rw [Nat.mod_eq_of_lt (by omega)]
    · rw [if_neg hi]
      by_cases hmem : dst ≤ i ∧ i < dst + n
      · rw [if_pos hmem, if_pos (by omega)]
      · rw [if_neg hmem, if_neg (by omega)]

end EFS
