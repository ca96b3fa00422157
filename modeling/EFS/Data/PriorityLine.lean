import Mathlib.Data.List.Sort

/-!
# Lines

A line is a list of waiting elements, each with a rank: nobody stands in front of somebody of a
higher rank, and among equals the one that came first is in front.

* `IsLine rank l` : the list is in order.
* `joinLine rank a l` : `a` joins the line, behind everybody of its own or a higher rank.
* `IsLine.ext` : a line is determined by what it is at each rank.  The laws of the operations are
  therefore stated rank by rank (`IsLine.filter_joinLine`).
* `aheadOf rank a l` : how many of the rank of `a` stand in front of it.  It grows neither when
  somebody joins the line nor when somebody leaves it.
-/

namespace EFS

variable {α ρ : Type*} [LinearOrder ρ] {rank rank' : α → ρ} {a b : α} {l l' : List α}

/-- Nobody in the line stands behind a lower rank. -/
def IsLine (rank : α → ρ) (l : List α) : Prop := l.Pairwise fun a b => rank b ≤ rank a

/-- `a` joins the line behind everyone of its rank or a higher one. -/
def joinLine (rank : α → ρ) (a : α) (l : List α) : List α :=
  l.orderedInsert (fun a b => rank b < rank a) a

theorem joinLine_cons_of_lt (h : rank b < rank a) : joinLine rank a (b :: l) = a :: b :: l :=
  List.orderedInsert_cons_of_le _ l h

theorem joinLine_cons_of_le (h : rank a ≤ rank b) :
    joinLine rank a (b :: l) = b :: joinLine rank a l :=
  List.orderedInsert_of_not_le _ l (not_lt.2 h)

@[simp] theorem mem_joinLine : b ∈ joinLine rank a l ↔ b = a ∨ b ∈ l := List.mem_orderedInsert _

theorem joinLine_perm (rank : α → ρ) (a : α) (l : List α) : (joinLine rank a l).Perm (a :: l) :=
  List.perm_orderedInsert _ a l

theorem erase_joinLine [DecidableEq α] (h : a ∉ l) : (joinLine rank a l).erase a = l :=
  List.erase_orderedInsert_of_notMem h

namespace IsLine

theorem congr (h : IsLine rank l) (hl : ∀ a ∈ l, rank a = rank' a) : IsLine rank' l :=
  List.Pairwise.imp_of_mem (fun ha hb hle => by rwa [← hl _ ha, ← hl _ hb]) h

theorem head_le (h : IsLine rank (a :: l)) (hb : b ∈ a :: l) : rank b ≤ rank a := by
  rcases List.mem_cons.1 hb with rfl | hb
  · exact le_rfl
  · exact (List.pairwise_cons.1 h).1 b hb

theorem tail (h : IsLine rank (a :: l)) : IsLine rank l := (List.pairwise_cons.1 h).2

theorem joinLine (h : IsLine rank l) (a : α) : IsLine rank (joinLine rank a l) := by
  induction l with
  | nil => exact List.pairwise_singleton _ _
  | cons b l ih =>
    by_cases hlt : rank b < rank a
    · rw [joinLine_cons_of_lt hlt]
      exact List.pairwise_cons.2 ⟨fun c hc => (h.head_le hc).trans hlt.le, h⟩
    · rw [joinLine_cons_of_le (not_lt.1 hlt)]
      refine List.pairwise_cons.2 ⟨?_, ih h.tail⟩
      intro c hc
      rcases mem_joinLine.1 hc with rfl | hc
      · exact not_lt.1 hlt
      · exact h.head_le (List.mem_cons_of_mem _ hc)

theorem erase [DecidableEq α] (h : IsLine rank l) (a : α) : IsLine rank (l.erase a) :=
  List.Pairwise.sublist List.erase_sublist h

/-- Nobody in the line has the rank `r` if everybody has a lower one. -/
theorem filter_eq_nil {r : ρ} (h : ∀ b ∈ l, rank b < r) : l.filter (rank · = r) = [] :=
  List.filter_eq_nil_iff.2 fun b hb => by simpa using (h b hb).ne

/-- Whoever joins the line is the last one of its rank, and the other ranks stay as they are. -/
theorem filter_joinLine (h : IsLine rank l) (a : α) (r : ρ) :
    (EFS.joinLine rank a l).filter (rank · = r) =
      if r = rank a then l.filter (rank · = r) ++ [a] else l.filter (rank · = r) := by
  induction l with
  | nil => by_cases hr : r = rank a <;> simp [EFS.joinLine, hr, eq_comm]
  | cons b l ih =>
    by_cases hlt : rank b < rank a
    · rw [joinLine_cons_of_lt hlt, List.filter_cons]
      by_cases hr : r = rank a
      · -- everybody else has a lower rank
        have hnil : (b :: l).filter (rank · = rank a) = [] :=
          filter_eq_nil fun c hc => (h.head_le hc).trans_lt hlt
        simp [hr, hnil]
      · simp [hr, Ne.symm hr]
    · rw [joinLine_cons_of_le (not_lt.1 hlt), List.filter_cons, List.filter_cons, ih h.tail]
      split_ifs <;> rfl

theorem filter_cons_rank : (a :: l).filter (rank · = rank a) = a :: l.filter (rank · = rank a) :=
  List.filter_cons_of_pos (by simp)

/-- **Extensionality.**  A line is determined by what it is at each rank. -/
theorem ext (h : IsLine rank l) (h' : IsLine rank l')
    (hf : ∀ r, l.filter (rank · = r) = l'.filter (rank · = r)) : l = l' := by
  induction l generalizing l' with
  | nil =>
    cases l' with
    | nil => rfl
    | cons b l' =>
      have hb := hf (rank b)
      rw [filter_cons_rank] at hb
      cases hb
  | cons a l ih =>
    cases l' with
    | nil =>
      have ha := hf (rank a)
      rw [filter_cons_rank] at ha
      cases ha
    | cons b l' =>
      -- the first one of each is in the other, so that they have the same rank
      have ha : a ∈ b :: l' := List.mem_of_mem_filter (p := (rank · = rank a)) (by
        rw [← hf, filter_cons_rank]
        exact List.mem_cons_self)
      have hb : b ∈ a :: l := List.mem_of_mem_filter (p := (rank · = rank b)) (by
        rw [hf, filter_cons_rank]
        exact List.mem_cons_self)
      have hrank : rank a = rank b := le_antisymm (h'.head_le ha) (h.head_le hb)
      have hab := hf (rank a)
      rw [filter_cons_rank, hrank, filter_cons_rank] at hab
      obtain rfl : a = b := (List.cons.inj hab).1
      refine congrArg _ (ih h.tail h'.tail ?_)
      intro r
      have hr := hf r
      rw [List.filter_cons, List.filter_cons] at hr
      split_ifs at hr
      · exact (List.cons.inj hr).2
      · exact hr

/-- Groups of decreasing ranks, one after the other, are a line. -/
theorem flatMap {κ : Type*} {gs : List (κ × List α)} (key : κ → ρ)
    (hsorted : gs.Pairwise fun g g' => key g'.1 ≤ key g.1)
    (hkey : ∀ g ∈ gs, ∀ a ∈ g.2, rank a = key g.1) : IsLine rank (gs.flatMap Prod.snd) := by
  refine List.pairwise_flatMap.2 ⟨?_, ?_⟩
  · intro g hg
    refine List.pairwise_of_forall_mem_list ?_
    intro a ha b hb
    rw [hkey g hg a ha, hkey g hg b hb]
  · refine hsorted.imp_of_mem ?_
    intro g g' hg hg' hle a ha b hb
    rw [hkey g hg a ha, hkey g' hg' b hb]
    exact hle

/-- The front of a line is the front of its highest rank. -/
theorem eq_cons_of_filter {r : ρ} {rest : List α} (h : IsLine rank l) (htop : ∀ b ∈ l, rank b ≤ r)
    (hf : l.filter (rank · = r) = a :: rest) : ∃ tl, l = a :: tl := by
  have ha : a ∈ l.filter (rank · = r) := by rw [hf]; exact List.mem_cons_self
  obtain ⟨hal, har⟩ := List.mem_filter.1 ha
  have har : rank a = r := by simpa using har
  cases l with
  | nil => cases hal
  | cons b l =>
    have hb : rank b = r := le_antisymm (htop b List.mem_cons_self) (har ▸ h.head_le hal)
    rw [← hb, filter_cons_rank] at hf
    exact ⟨l, by rw [(List.cons.inj hf).1]⟩

end IsLine

/-! ### The place in a line -/

theorem mem_filter_rank (h : a ∈ l) : a ∈ l.filter (rank · = rank a) :=
  List.mem_filter.2 ⟨h, by simp⟩

section

variable [DecidableEq α]

/-- How many of the same rank stand before `a`. -/
def aheadOf (rank : α → ρ) (a : α) (l : List α) : ℕ := (l.filter (rank · = rank a)).idxOf a

theorem aheadOf_congr (ha : rank a = rank' a) (h : ∀ b ∈ l, rank b = rank' b) :
    aheadOf rank a l = aheadOf rank' a l := by
  rw [aheadOf, aheadOf, List.filter_congr fun b hb => by rw [h b hb, ha]]

/-- Whoever joins the line stands behind its equals. -/
theorem IsLine.aheadOf_joinLine (h : IsLine rank l) (ha : a ∈ l) (b : α) :
    aheadOf rank a (EFS.joinLine rank b l) = aheadOf rank a l := by
  rw [aheadOf, h.filter_joinLine]
  split_ifs
  · exact List.idxOf_append_of_mem (mem_filter_rank ha)
  · rfl

theorem idxOf_erase_le (hb : b ≠ a) (l : List α) : (l.erase b).idxOf a ≤ l.idxOf a := by
  induction l with
  | nil => exact le_rfl
  | cons c l ih =>
    by_cases hc : c = b
    · subst hc
      rw [List.erase_cons_head, List.idxOf_cons_ne l hb]
      exact Nat.le_succ _
    · rw [List.erase_cons_tail (by simpa using hc)]
      by_cases hca : c = a
      · simp [hca]
      · rw [List.idxOf_cons_ne _ hca, List.idxOf_cons_ne _ hca]
        exact Nat.succ_le_succ ih

theorem aheadOf_erase_le (hb : b ≠ a) : aheadOf rank a (l.erase b) ≤ aheadOf rank a l := by
  rw [aheadOf, ← List.erase_filter]
  exact idxOf_erase_le hb _

theorem aheadOf_cons (hb : b ≠ a) : aheadOf rank a (b :: l) =
    aheadOf rank a l + if rank b = rank a then 1 else 0 := by
  rw [aheadOf, List.filter_cons]
  by_cases hr : rank b = rank a
  · rw [if_pos (by simpa using hr), if_pos hr, List.idxOf_cons_ne _ hb]
    rfl
  · rw [if_neg (by simpa using hr), if_neg hr]
    rfl

end

/-- The group of the key `k`, among groups of different keys. -/
theorem flatMap_key {κ : Type*} [DecidableEq κ] {gs : List (κ × List α)}
    (h : gs.Pairwise fun g g' => g.1 ≠ g'.1) (k : κ) :
    (gs.flatMap fun g => if g.1 = k then g.2 else []) =
      ((gs.find? fun g => g.1 = k).map Prod.snd).getD [] := by
  induction gs with
  | nil => rfl
  | cons g gs ih =>
    obtain ⟨hg, hgs⟩ := List.pairwise_cons.1 h
    rw [List.flatMap_cons, ih hgs]
    by_cases hk : g.1 = k
    · have hnone : (gs.find? fun g' => g'.1 = k) = none :=
        List.find?_eq_none.2 fun g' hg' => by simpa [hk] using Ne.symm (hg g' hg')
      simp [hk, hnone]
    · simp [hk]

end EFS
