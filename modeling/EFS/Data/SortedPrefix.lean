import Mathlib.Data.List.Sort
import Mathlib.Data.List.TakeWhile

/-!
# Prefixes of sorted lists

In a list that is sorted by `r`, the elements of a set that is closed downwards under `r` are a
prefix.  Sorting them is taking that prefix of the sorted list (`insertionSort_filter`).
-/

namespace EFS

variable {α : Type*} {r : α → α → Prop} {p : α → Bool} {l : List α}

theorem filter_eq_takeWhile (h : l.Pairwise r) (hp : ∀ a b, r a b → p b = true → p a = true) :
    l.filter p = l.takeWhile p ∧ l.filter (fun a => !p a) = l.dropWhile p := by
  induction h with
  | nil => exact ⟨rfl, rfl⟩
  | @cons a l hrel h ih =>
    cases ha : p a with
    | true => simp [ha, ih]
    | false =>
      -- nothing behind an element outside of the set belongs to it
      have hnone : ∀ b ∈ l, p b = false := by
        intro b hb
        by_contra hpb
        have := hp a b (hrel b hb) (by simpa using hpb)
        simp [ha] at this
      have hall : l.filter (fun a => !p a) = l :=
        List.filter_eq_self.2 fun b hb => by simp [hnone b hb]
      have hnil : l.filter p = [] := List.filter_eq_nil_iff.2 fun b hb => by simp [hnone b hb]
      simp [ha, hall, hnil]

variable [DecidableRel r]

/-- Sorting a part of a list gives that part of the sorted list, if the order is strict on it. -/
theorem insertionSort_filter [Std.Total r] [IsTrans α r]
    (hanti : ∀ a ∈ l, ∀ b ∈ l, r a b → r b a → a = b) :
    (l.filter p).insertionSort r = (l.insertionSort r).filter p := by
  have hperm : ((l.filter p).insertionSort r).Perm ((l.insertionSort r).filter p) :=
    (List.perm_insertionSort r _).trans ((List.perm_insertionSort r l).filter p).symm
  refine hperm.eq_of_pairwise ?_ (List.pairwise_insertionSort r _)
    ((List.pairwise_insertionSort r l).filter p)
  intro a b ha hb
  have ha : a ∈ l := List.mem_of_mem_filter ((List.perm_insertionSort r _).mem_iff.1 ha)
  have hb : b ∈ l := (List.perm_insertionSort r l).mem_iff.1 (List.mem_of_mem_filter hb)
  exact hanti a ha b hb

end EFS
