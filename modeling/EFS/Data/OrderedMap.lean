import Mathlib.Order.Defs.Unbundled
import Mathlib.Data.List.Pairwise
import Mathlib.Tactic

/-!
# Ordered maps

`OrderedMap κ ν lt` is a finite map whose entries are kept sorted by the comparison `lt` of
the keys, so that its iteration order is the list `entries`.  It is the model of the C++
container `std::map<K, V, Compare>`: `insert` overwrites, `erase` removes a key, and a loop
over the map visits `entries` from front to back.

The sortedness is a field, so an out-of-order map cannot be built.  All reasoning goes through
`find?`:

* `OrderedMap.find?_insert`, `OrderedMap.find?_erase` : the two updates, key by key;
* `OrderedMap.mem_entries_iff` : the entries visited by a loop are the pairs that `find?` sees.
-/

namespace EFS

/-- A finite map with entries sorted by the key comparison `lt`. -/
structure OrderedMap (κ ν : Type*) (lt : κ → κ → Prop) where
  /-- The entries, in iteration order. -/
  entries : List (κ × ν)
  /-- Keys increase strictly along the entries. -/
  sorted : entries.Pairwise fun a b => lt a.1 b.1

namespace OrderedMap

variable {κ ν : Type*} {lt : κ → κ → Prop}

/-- The empty map. -/
def empty : OrderedMap κ ν lt := ⟨[], .nil⟩

variable (lt) in
/-- Insertion into a sorted list of entries, overwriting an equal key. -/
def insertEntry [DecidableRel lt] (k : κ) (v : ν) : List (κ × ν) → List (κ × ν)
  | [] => [(k, v)]
  | e :: l =>
    if lt k e.1 then (k, v) :: e :: l
    else if lt e.1 k then e :: insertEntry k v l
    else (k, v) :: l

theorem mem_of_mem_insertEntry [DecidableRel lt] {k : κ} {v : ν} {l : List (κ × ν)} {e : κ × ν}
    (h : e ∈ insertEntry lt k v l) : e = (k, v) ∨ e ∈ l := by
  induction l with
  | nil => simpa [insertEntry] using h
  | cons a l ih =>
    simp only [insertEntry] at h
    split_ifs at h with h₁ h₂
    · simpa using h
    · rcases List.mem_cons.1 h with rfl | h
      · exact .inr List.mem_cons_self
      · exact (ih h).imp_right (List.mem_cons_of_mem _)
    · exact (List.mem_cons.1 h).imp_right (List.mem_cons_of_mem _)

theorem mem_insertEntry_self [DecidableRel lt] (k : κ) (v : ν) (l : List (κ × ν)) :
    (k, v) ∈ insertEntry lt k v l := by
  induction l with
  | nil => simp [insertEntry]
  | cons a l ih =>
    simp only [insertEntry]
    split_ifs
    · exact List.mem_cons_self
    · exact List.mem_cons_of_mem _ ih
    · exact List.mem_cons_self

section

variable [IsStrictTotalOrder κ lt]

theorem eq_of_not_lt {a b : κ} (h : ¬ lt a b) (h' : ¬ lt b a) : a = b :=
  (trichotomous_of lt a b).elim (fun hab => absurd hab h)
    fun o => o.elim id fun hba => absurd hba h'

theorem eq_of_mem_entries {m : OrderedMap κ ν lt} {k : κ} {v w : ν} (h : (k, v) ∈ m.entries)
    (h' : (k, w) ∈ m.entries) : v = w := by
  have hp : m.entries.Pairwise fun a b => a.1 ≠ b.1 :=
    m.sorted.imp fun {a b} hlt (he : a.1 = b.1) => irrefl_of lt a.1 (by rwa [← he] at hlt)
  have : Std.Symm fun a b : κ × ν => a.1 ≠ b.1 := ⟨fun _ _ => Ne.symm⟩
  by_contra hne
  exact hp.forall h h' (fun he => hne (congrArg Prod.snd he)) rfl

variable [DecidableRel lt]

theorem sorted_insertEntry {k : κ} {v : ν} {l : List (κ × ν)}
    (h : l.Pairwise fun a b => lt a.1 b.1) :
    (insertEntry lt k v l).Pairwise fun a b => lt a.1 b.1 := by
  induction l with
  | nil => simp [insertEntry]
  | cons a l ih =>
    obtain ⟨ha, hl⟩ := List.pairwise_cons.1 h
    simp only [insertEntry]
    split_ifs with h₁ h₂
    · refine List.pairwise_cons.2 ⟨?_, h⟩
      intro b hb
      rcases List.mem_cons.1 hb with rfl | hb
      · exact h₁
      · exact trans_of lt h₁ (ha b hb)
    · refine List.pairwise_cons.2 ⟨?_, ih hl⟩
      intro b hb
      rcases mem_of_mem_insertEntry hb with rfl | hb
      · exact h₂
      · exact ha b hb
    · have hk : k = a.1 := eq_of_not_lt h₁ h₂
      exact List.pairwise_cons.2 ⟨fun b hb => hk ▸ ha b hb, hl⟩

/-- `m[k] = v`. -/
def insert (m : OrderedMap κ ν lt) (k : κ) (v : ν) : OrderedMap κ ν lt :=
  ⟨insertEntry lt k v m.entries, sorted_insertEntry m.sorted⟩

theorem mem_insertEntry_of_ne {k k' : κ} {v w : ν} {l : List (κ × ν)} (hne : k' ≠ k)
    (h : (k', w) ∈ l) : (k', w) ∈ insertEntry lt k v l := by
  induction l with
  | nil => cases h
  | cons a l ih =>
    simp only [insertEntry]
    split_ifs with h₁ h₂
    · exact List.mem_cons_of_mem _ h
    · rcases List.mem_cons.1 h with rfl | h
      · exact List.mem_cons_self
      · exact List.mem_cons_of_mem _ (ih h)
    · rcases List.mem_cons.1 h with rfl | h
      · exact absurd (eq_of_not_lt h₂ h₁) hne
      · exact List.mem_cons_of_mem _ h

end

section

variable [DecidableEq κ]

/-- The value stored under `k`, if any. -/
def find? (m : OrderedMap κ ν lt) (k : κ) : Option ν :=
  (m.entries.find? fun e => e.1 = k).map Prod.snd

/-- Removes the key `k`. -/
def erase (m : OrderedMap κ ν lt) (k : κ) : OrderedMap κ ν lt :=
  ⟨m.entries.filter fun e => e.1 ≠ k, m.sorted.filter _⟩

@[simp] theorem find?_empty (k : κ) : (empty : OrderedMap κ ν lt).find? k = none := rfl

variable [IsStrictTotalOrder κ lt]

/-- The entries a loop visits are exactly the pairs seen by `find?`. -/
theorem mem_entries_iff {m : OrderedMap κ ν lt} {k : κ} {v : ν} :
    (k, v) ∈ m.entries ↔ m.find? k = some v := by
  constructor
  · intro h
    obtain ⟨e, he⟩ : ∃ e, m.entries.find? (fun e => e.1 = k) = some e :=
      Option.isSome_iff_exists.1 (List.find?_isSome.2 ⟨_, h, by simp⟩)
    have hk : e.1 = k := by simpa using List.find?_some he
    have hv : e.2 = v :=
      eq_of_mem_entries (k := k) (hk ▸ List.mem_of_find?_eq_some he) h
    simp [find?, he, hv]
  · intro h
    simp only [find?, Option.map_eq_some_iff] at h
    obtain ⟨⟨k', v'⟩, h, rfl⟩ := h
    have hk : k' = k := by simpa using List.find?_some h
    exact hk ▸ List.mem_of_find?_eq_some h

theorem find?_erase (m : OrderedMap κ ν lt) (k k' : κ) :
    (m.erase k).find? k' = if k' = k then none else m.find? k' := by
  ext v
  rw [← mem_entries_iff, erase]
  simp only [List.mem_filter, decide_eq_true_eq]
  split_ifs with h
  · simp [h]
  · simp [h, mem_entries_iff]

theorem find?_insert [DecidableRel lt] (m : OrderedMap κ ν lt) (k k' : κ) (v : ν) :
    (m.insert k v).find? k' = if k' = k then some v else m.find? k' := by
  split_ifs with h
  · exact mem_entries_iff.1 (h ▸ mem_insertEntry_self k v m.entries)
  · ext w
    rw [← mem_entries_iff, ← mem_entries_iff]
    refine ⟨?_, mem_insertEntry_of_ne h⟩
    intro hw
    rcases mem_of_mem_insertEntry hw with he | hw
    · exact absurd (congrArg Prod.fst he) h
    · exact hw

end

end OrderedMap

end EFS
