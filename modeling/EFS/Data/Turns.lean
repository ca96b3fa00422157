import EFS.Data.PriorityLine
import Mathlib.Data.Prod.Lex
import Mathlib.Data.List.Infix
import Mathlib.Tactic

/-!
# Nested turns

Everybody stands in a line.  The first one gets a turn, in which it makes calls, and joins the line
again.  Each call gives a turn to the next one before it is over, so that turns are nested: the
calls that are still to be made in all turns are one list, and `turn` says what it is when the next
turn is given.

* `ends_of_settles` : a condition on the line under which finitely many turns are given.
* `not_ends_of_not_settles` : it is exact if only the first call of a turn can make somebody leave.
-/

namespace EFS

/-- What a call does before it gives the next turn. -/
inductive Handover
  | pass
  /-- Whoever has the turn leaves the line and joins it again. -/
  | rejoin
  /-- Whoever has the turn leaves the line for good. -/
  | leave
  deriving DecidableEq

/-- Who makes which calls in a turn.  In the turn of `idle` only `pass` does anything. -/
structure Turns (α ρ : Type*) where
  rank : α → ρ
  calls : α → List Handover
  idle : α
  calls_idle : calls idle = []

namespace Turns

variable {α ρ : Type*} [DecidableEq α] [LinearOrder ρ] (t : Turns α ρ)

/-- The calls that are left when those that do nothing have been made. -/
def effective (x : α) (ks : List Handover) : List Handover :=
  if x = t.idle then ks.dropWhile fun k => k ≠ .pass else ks

/-- The line and the calls that are left when the next turn is given, after the turn of `x`. -/
def handOver (x : α) (rest : List α) : List Handover → Option (List α × List Handover)
  | [] => none
  | .leave :: ks => some (rest, ks)
  | .pass :: ks | .rejoin :: ks => some (joinLine t.rank x rest, ks)

/-- From the line in which a turn is given, and the calls that are then still to be made in the
other turns, to those at the next turn. -/
def turn : List α × List Handover → Option (List α × List Handover)
  | ([], _) => none
  | (x :: rest, ks) => t.handOver x rest (t.effective x (t.calls x ++ ks))

/-- After finitely many turns no further one is given. -/
inductive Ends : List α × List Handover → Prop
  | intro {c : List α × List Handover} (h : ∀ d, t.turn c = some d → Ends d) : Ends c

/-! ### When turns end -/

/-- The turn of `x` begins with leaving the line. -/
def Leaves (x : α) : Prop := (t.calls x).head? = some .leave

instance : DecidablePred t.Leaves := fun _ => inferInstanceAs (Decidable (_ = _))

/-- How many calls those in the list make. -/
def total (l : List α) : ℕ := (l.map fun x => (t.calls x).length).sum

/-- Those of rank `r` or above whose turns do not begin with leaving. -/
def stayers (r : ρ) (l : List α) : List α := l.filter fun x => r ≤ t.rank x ∧ ¬ t.Leaves x

/-- How often somebody leaves after the first call of a turn of rank `r` or above. -/
def later (r : ρ) (l : List α) : ℕ :=
  ((l.filter fun x => r ≤ t.rank x).map fun x => (t.calls x).tail.count .leave).sum

/-- Some of the first ones make fewer calls than they are; those above the last of them leave. -/
def FewFirst (l : List α) : Prop :=
  ∃ pre ∈ l.inits, t.total pre < pre.length ∧
    ∀ x ∈ pre, t.Leaves x ∨ ∀ y ∈ pre, t.rank x ≤ t.rank y

/-- Those of rank `r` or above that stay make fewer calls than they are, and nobody whose turn gives
further turns is above `r`.  Each of the calls in `ks` and after a first call may make one of them
leave. -/
structure FewStay (r : ρ) (l : List α) (ks : List Handover) : Prop where
  above : ∀ x ∈ l, r < t.rank x → t.calls x = [] ∨ t.Leaves x
  level : ∀ x ∈ l, t.rank x = r → t.Leaves x ∨ .leave ∉ t.calls x
  few : t.total (t.stayers r l) + t.later r l + ks.count .leave < (t.stayers r l).length

/-- Every turn does nothing, or begins with leaving. -/
def AllGiveUp (l : List α) : Prop := ∀ x ∈ l, t.calls x = [] ∨ t.Leaves x

/-- The condition under which turns end. -/
def Settles (l : List α) : Prop :=
  t.FewFirst l ∨ (∃ z ∈ l, t.FewStay (t.rank z) l []) ∨ t.AllGiveUp l

instance (r : ρ) (l : List α) (ks : List Handover) : Decidable (t.FewStay r l ks) :=
  decidable_of_iff
    ((∀ x ∈ l, r < t.rank x → t.calls x = [] ∨ t.Leaves x) ∧
      (∀ x ∈ l, t.rank x = r → t.Leaves x ∨ .leave ∉ t.calls x) ∧
      t.total (t.stayers r l) + t.later r l + ks.count .leave < (t.stayers r l).length)
    ⟨fun h => ⟨h.1, h.2.1, h.2.2⟩, fun h => ⟨h.above, h.level, h.few⟩⟩

instance : DecidablePred t.Settles := fun l =>
  inferInstanceAs (Decidable ((∃ pre ∈ l.inits, _) ∨ (∃ z ∈ l, _) ∨ ∀ x ∈ l, _))

/-! ### One turn -/

variable {t} {r : ρ} {x : α} {l l' rest : List α} {ks ks' : List Handover}

omit [LinearOrder ρ] in
theorem effective_suffix (x : α) (ks : List Handover) : t.effective x ks <:+ ks := by
  rw [effective]
  split_ifs
  · exact List.dropWhile_suffix _
  · exact List.suffix_rfl

/-- **Inversion lemma.**  A call `k` ends the turn: the first one, if there is one. -/
theorem turn_cases (h : t.turn (x :: rest, ks) = some (l', ks')) :
    ∃ k, k :: ks' <:+ t.calls x ++ ks ∧ (t.calls x ≠ [] → t.calls x ++ ks = k :: ks') ∧
      l' = if k = .leave then rest else joinLine t.rank x rest := by
  obtain ⟨k, hk, hl'⟩ : ∃ k, t.effective x (t.calls x ++ ks) = k :: ks' ∧
      l' = if k = .leave then rest else joinLine t.rank x rest := by
    rw [turn] at h
    cases heff : t.effective x (t.calls x ++ ks) with
    | nil =>
      rw [heff] at h
      cases h
    | cons k ms =>
      rw [heff] at h
      cases k <;> cases h <;> exact ⟨_, rfl, rfl⟩
  refine ⟨k, hk ▸ effective_suffix x _, fun hne => ?_, hl'⟩
  have hidle : x ≠ t.idle := by
    rintro rfl
    exact hne t.calls_idle
  rwa [effective, if_neg hidle] at hk

omit [DecidableEq α] [LinearOrder ρ] in
theorem leaves_iff : t.Leaves x ↔ ∃ ks, t.calls x = .leave :: ks := List.head?_eq_some_iff

theorem Leaves.turn (hx : t.Leaves x) (h : t.turn (x :: rest, ks) = some (l', ks')) :
    l' = rest ∧ ks' = (t.calls x).tail ++ ks := by
  obtain ⟨ms, hms⟩ := leaves_iff.1 hx
  obtain ⟨k, -, hfirst, hl'⟩ := turn_cases h
  have hcalls := hfirst (by simp [hms])
  rw [hms, List.cons_append] at hcalls
  obtain ⟨rfl, rfl⟩ := List.cons.inj hcalls
  exact ⟨hl', by rw [hms]; rfl⟩

theorem length_lt_of_turn (h : t.turn (x :: rest, ks) = some (l', ks')) :
    ks'.length + 1 ≤ (t.calls x).length + ks.length := by
  obtain ⟨k, hsuffix, -⟩ := turn_cases h
  simpa using hsuffix.length_le

theorem line_of_turn (h : t.turn (x :: rest, ks) = some (l', ks')) :
    l' = rest ∨ l' = joinLine t.rank x rest := by
  obtain ⟨k, -, -, rfl⟩ := turn_cases h
  split_ifs
  · exact .inl rfl
  · exact .inr rfl

theorem isLine_of_turn (hl : IsLine t.rank (x :: rest))
    (h : t.turn (x :: rest, ks) = some (l', ks')) : IsLine t.rank l' := by
  rcases line_of_turn h with rfl | rfl
  · exact hl.tail
  · exact hl.tail.joinLine x

/-! ### Few calls at the front -/

omit [DecidableEq α] in
theorem joinLine_append (h : ∀ y ∈ l, t.rank x ≤ t.rank y) :
    joinLine t.rank x (l ++ rest) = l ++ joinLine t.rank x rest := by
  induction l with
  | nil => rfl
  | cons y l ih =>
    rw [List.cons_append, joinLine_cons_of_le (h y List.mem_cons_self),
      ih fun z hz => h z (List.mem_cons_of_mem _ hz), List.cons_append]

/-- By induction on those who still have their first turn to come: each turn makes a call. -/
theorem ends_of_fewFirst {pre suf : List α}
    (hfew : t.total pre + ks.length < pre.length)
    (hstay : ∀ x ∈ pre, t.Leaves x ∨ ∀ y ∈ pre, t.rank x ≤ t.rank y) : t.Ends (pre ++ suf, ks) := by
  induction pre generalizing suf ks with
  | nil => simp at hfew
  | cons x pre ih =>
    refine .intro fun ⟨l', ks'⟩ hturn => ?_
    have hlen := length_lt_of_turn hturn
    have hfew' : t.total pre + ks'.length < pre.length := by
      simp only [total, List.map_cons, List.sum_cons, List.length_cons] at hfew ⊢
      omega
    have hstay' : ∀ y ∈ pre, t.Leaves y ∨ ∀ z ∈ pre, t.rank y ≤ t.rank z := fun y hy =>
      (hstay y (List.mem_cons_of_mem _ hy)).imp_right fun h z hz => h z (List.mem_cons_of_mem _ hz)
    rcases hstay x List.mem_cons_self with hx | hx
    · obtain ⟨rfl, -⟩ := hx.turn hturn
      exact ih hfew' hstay'
    · rcases line_of_turn hturn with rfl | rfl
      · exact ih hfew' hstay'
      · change t.Ends (joinLine t.rank x (pre ++ suf), ks')
        rw [joinLine_append fun y hy => hx y (List.mem_cons_of_mem _ hy)]
        exact ih hfew' hstay'

/-! ### A measure -/

variable (t) in
/-- How many are to leave, and then how many calls are to be made. -/
def measure (c : List α × List Handover) : ℕ ×ₗ ℕ :=
  toLex (c.1.countP fun x => t.Leaves x, c.2.length)

theorem countP_le_of_turn (h : t.turn (x :: rest, ks) = some (l', ks')) :
    l'.countP (fun x => t.Leaves x) ≤ (x :: rest).countP fun x => t.Leaves x := by
  rcases line_of_turn h with rfl | rfl
  · exact List.Sublist.countP_le (List.sublist_cons_self x _)
  · exact ((joinLine_perm t.rank x rest).countP_eq _).le

omit [DecidableEq α] [LinearOrder ρ] in
theorem measure_lt_of_le {c d : List α × List Handover}
    (hcount : d.1.countP (fun x => t.Leaves x) ≤ c.1.countP fun x => t.Leaves x)
    (hlen : d.2.length < c.2.length) : t.measure d < t.measure c :=
  Prod.Lex.toLex_lt_toLex.2 (hcount.lt_or_eq.imp_right fun heq => ⟨heq, hlen⟩)

omit [DecidableEq α] [LinearOrder ρ] in
theorem Leaves.measure_lt (hx : t.Leaves x) {m : List α × List Handover}
    (hm : (x :: rest).countP (fun x => t.Leaves x) ≤ m.1.countP fun x => t.Leaves x) :
    t.measure (rest, ks') < t.measure m := by
  refine Prod.Lex.toLex_lt_toLex.2 (.inl (lt_of_lt_of_le ?_ hm))
  rw [List.countP_cons_of_pos (by simpa using hx)]
  exact Nat.lt_succ_self _

/-- A turn that does nothing, or begins with leaving, makes the measure smaller. -/
theorem measure_lt_of_turn (hx : t.calls x = [] ∨ t.Leaves x)
    (h : t.turn (x :: rest, ks) = some (l', ks')) :
    t.measure (l', ks') < t.measure (x :: rest, ks) := by
  rcases hx with hx | hx
  · refine measure_lt_of_le (countP_le_of_turn h) ?_
    have hlen := length_lt_of_turn h
    rw [hx] at hlen
    simpa using hlen
  · obtain ⟨rfl, -⟩ := hx.turn h
    exact hx.measure_lt le_rfl

theorem AllGiveUp.ends (h : t.AllGiveUp l) : t.Ends (l, ks) := by
  induction hm : t.measure (l, ks) using WellFoundedLT.induction generalizing l ks with
  | ind m ih =>
    subst hm
    refine .intro fun ⟨l', ks'⟩ hturn => ?_
    cases l with
    | nil => cases hturn
    | cons x rest =>
      refine ih _ (measure_lt_of_turn (h x List.mem_cons_self) hturn) (fun y hy => h y ?_) rfl
      rcases line_of_turn hturn with rfl | rfl
      · exact List.mem_cons_of_mem _ hy
      · simpa using hy

/-! ### Few calls of those that stay -/

omit [DecidableEq α] in
theorem stayers_cons (x : α) (l : List α) : t.stayers r (x :: l) =
    if r ≤ t.rank x ∧ ¬ t.Leaves x then x :: t.stayers r l else t.stayers r l := by
  simp [stayers, List.filter_cons]

omit [DecidableEq α] in
theorem later_cons (x : α) (l : List α) : t.later r (x :: l) =
    (if r ≤ t.rank x then (t.calls x).tail.count .leave else 0) + t.later r l := by
  by_cases h : r ≤ t.rank x <;> simp [later, h]

omit [DecidableEq α] [LinearOrder ρ] in
theorem total_cons (x : α) (l : List α) : t.total (x :: l) = (t.calls x).length + t.total l := rfl

omit [DecidableEq α] in
theorem FewStay.perm (h : t.FewStay r l ks) (hperm : l.Perm l') : t.FewStay r l' ks := by
  have hstayers : (t.stayers r l).Perm (t.stayers r l') := hperm.filter _
  have htotal : t.total (t.stayers r l) = t.total (t.stayers r l') := (hstayers.map _).sum_eq
  have hlater : t.later r l = t.later r l' := ((hperm.filter _).map _).sum_eq
  refine ⟨fun x hx => h.above x (hperm.mem_iff.2 hx),
    fun x hx => h.level x (hperm.mem_iff.2 hx), ?_⟩
  rw [← htotal, ← hlater, ← hstayers.length_eq]
  exact h.few

omit [DecidableEq α] in
theorem FewStay.le_rank (h : t.FewStay r (x :: rest) ks) (hl : IsLine t.rank (x :: rest)) :
    r ≤ t.rank x := by
  have hpos : 0 < (t.stayers r (x :: rest)).length := Nat.zero_lt_of_lt h.few
  obtain ⟨y, hy⟩ := List.exists_mem_of_length_pos hpos
  obtain ⟨hmem, hr⟩ := List.mem_filter.1 hy
  exact (of_decide_eq_true hr).1.trans (hl.head_le hmem)

/-- **Step lemma.**  A turn leaves few calls of those that stay. -/
theorem FewStay.turn (h : t.FewStay r (x :: rest) ks) (hl : IsLine t.rank (x :: rest))
    (hturn : t.turn (x :: rest, ks) = some (l', ks')) : t.FewStay r l' ks' := by
  have hr := h.le_rank hl
  have hfew := h.few
  rw [stayers_cons, later_cons, if_pos hr] at hfew
  have habove : ∀ y ∈ rest, r < t.rank y → t.calls y = [] ∨ t.Leaves y :=
    fun y hy => h.above y (List.mem_cons_of_mem _ hy)
  have hlevel : ∀ y ∈ rest, t.rank y = r → t.Leaves y ∨ .leave ∉ t.calls y :=
    fun y hy => h.level y (List.mem_cons_of_mem _ hy)
  by_cases hx : t.Leaves x
  · obtain ⟨rfl, rfl⟩ := hx.turn hturn
    rw [if_neg fun hstay => hstay.2 hx] at hfew
    refine ⟨habove, hlevel, ?_⟩
    rw [List.count_append]
    omega
  · rw [if_pos ⟨hr, hx⟩, total_cons, List.length_cons] at hfew
    -- in the turn of somebody that stays, only calls that were still to be made can be to leave
    have hnone : .leave ∉ t.calls x := by
      rcases hr.lt_or_eq with hlt | heq
      · rw [(h.above x List.mem_cons_self hlt).resolve_right hx]
        exact List.not_mem_nil
      · exact (h.level x List.mem_cons_self heq.symm).resolve_left hx
    obtain ⟨k, hsuffix, hfirst, rfl⟩ := turn_cases hturn
    have hcount : (k :: ks').count .leave ≤ ks.count .leave := by
      have hle := hsuffix.sublist.count_le .leave
      rwa [List.count_append, List.count_eq_zero_of_not_mem hnone, Nat.zero_add] at hle
    by_cases hk : k = .leave
    · -- somebody that does nothing in its turn leaves
      subst hk
      have hnil : t.calls x = [] := by
        by_contra hne
        have hcalls := hfirst hne
        obtain ⟨k', ms, hms⟩ := List.exists_cons_of_ne_nil hne
        rw [hms, List.cons_append] at hcalls
        obtain ⟨rfl, -⟩ := List.cons.inj hcalls
        exact hnone (by simp [hms])
      rw [List.count_cons_self] at hcount
      rw [if_pos rfl]
      refine ⟨habove, hlevel, ?_⟩
      rw [hnil, List.length_nil] at hfew
      omega
    · rw [if_neg hk]
      rw [List.count_cons_of_ne hk] at hcount
      have hsame : t.FewStay r (x :: rest) ks' :=
        ⟨h.above, h.level, (Nat.add_le_add_left hcount _).trans_lt h.few⟩
      exact hsame.perm (joinLine_perm t.rank x rest).symm

omit [DecidableEq α] in
/-- A line whose highest rank is `r` begins with those of that rank. -/
theorem exists_top (hl : IsLine t.rank l) (htop : ∀ x ∈ l, t.rank x ≤ r) : ∃ w v, l = w ++ v ∧
    (∀ x ∈ w, t.rank x = r) ∧ ∀ x ∈ v, t.rank x < r := by
  induction l with
  | nil => exact ⟨[], [], rfl, by simp, by simp⟩
  | cons x l ih =>
    rcases (htop x List.mem_cons_self).lt_or_eq with hlt | heq
    · exact ⟨[], x :: l, rfl, by simp, fun y hy => (hl.head_le hy).trans_lt hlt⟩
    · obtain ⟨w, v, rfl, hw, hv⟩ := ih hl.tail fun y hy => htop y (List.mem_cons_of_mem _ hy)
      refine ⟨x :: w, v, rfl, ?_, hv⟩
      rintro y hy
      rcases List.mem_cons.1 hy with rfl | hy
      · exact heq
      · exact hw y hy

omit [DecidableEq α] in
/-- If those of the highest rank all stay, they make fewer calls than they are. -/
theorem FewStay.total_lt {w v : List α} (h : t.FewStay r (w ++ v) ks)
    (hw : ∀ x ∈ w, t.rank x = r ∧ ¬ t.Leaves x) (hv : ∀ x ∈ v, t.rank x < r) :
    t.total w < w.length := by
  have hstayers : t.stayers r (w ++ v) = w := by
    have hself : t.stayers r w = w :=
      List.filter_eq_self.2 fun x hx => by simpa [(hw x hx).1] using (hw x hx).2
    have hnil : t.stayers r v = [] :=
      List.filter_eq_nil_iff.2 fun x hx => by simp [(hv x hx).not_ge]
    rw [stayers, List.filter_append]
    exact (congrArg₂ _ hself hnil).trans (List.append_nil w)
  have hfew := h.few
  rw [hstayers] at hfew
  omega

/-- By induction on the measure.  Above the rank `r` every turn makes it smaller; when the highest
rank is `r`, it is smaller when all of that rank have had a turn. -/
theorem FewStay.ends (h : t.FewStay r l ks) (hl : IsLine t.rank l) : t.Ends (l, ks) := by
  induction hm : t.measure (l, ks) using WellFoundedLT.induction generalizing l ks with
  | ind m ih =>
    subst hm
    by_cases htop : ∀ x ∈ l, t.rank x ≤ r
    · -- the rest of a round, in which somebody is still to leave, or the calls get fewer
      have round (w v : List α) (ks' : List Handover) (hw : ∀ x ∈ w, t.rank x = r)
          (hwv : IsLine t.rank (w ++ v)) (hfew : t.FewStay r (w ++ v) ks')
          (hcount : (w ++ v).countP (fun x => t.Leaves x) ≤ l.countP fun x => t.Leaves x)
          (hgoal : (∃ x ∈ w, t.Leaves x) ∨ ks'.length + t.total w < ks.length + w.length) :
          t.Ends (w ++ v, ks') := by
        -- over those of the round that have not had their turn
        induction w generalizing v ks' with
        | nil =>
          have hlen : ks'.length < ks.length := by simpa [total] using hgoal
          exact ih _ (measure_lt_of_le (c := (l, ks)) hcount hlen) hfew hwv rfl
        | cons x w ihw =>
          refine .intro fun ⟨l', ms⟩ hturn => ?_
          have hfew' := hfew.turn hwv hturn
          have hline := isLine_of_turn hwv hturn
          have hcount' := (countP_le_of_turn hturn).trans hcount
          by_cases hx : t.Leaves x
          · -- somebody leaves, which makes the measure smaller whatever follows
            obtain ⟨rfl, -⟩ := hx.turn hturn
            exact ih _ (hx.measure_lt (m := (l, ks)) hcount) hfew' hline rfl
          · have hlen := length_lt_of_turn hturn
            have hgoal' : (∃ y ∈ w, t.Leaves y) ∨ ms.length + t.total w < ks.length + w.length := by
              rcases hgoal with ⟨y, hy, hleaves⟩ | hlt
              · rcases List.mem_cons.1 hy with rfl | hy
                · exact absurd hleaves hx
                · exact .inl ⟨y, hy, hleaves⟩
              · rw [total_cons, List.length_cons] at hlt
                exact .inr (by omega)
            have hw' : ∀ y ∈ w, t.rank y = r := fun y hy => hw y (List.mem_cons_of_mem _ hy)
            -- `x` is gone, or joins again behind the rest of the round
            rcases line_of_turn hturn with rfl | hl'
            · exact ihw v ms hw' hline hfew' hcount' hgoal'
            · have hsame : l' = w ++ joinLine t.rank x v := by
                refine hl'.trans (joinLine_append fun y hy => ?_)
                rw [hw x List.mem_cons_self, hw' y hy]
              subst hsame
              exact ihw _ ms hw' hline hfew' hcount' hgoal'
      obtain ⟨w, v, rfl, hw, hv⟩ := exists_top hl htop
      refine round w v ks hw hl h le_rfl ?_
      by_cases hleaves : ∃ x ∈ w, t.Leaves x
      · exact .inl hleaves
      · have htotal := h.total_lt (fun x hx => ⟨hw x hx, fun hx' => hleaves ⟨x, hx, hx'⟩⟩) hv
        exact .inr (by omega)
    · refine .intro fun ⟨l', ks'⟩ hturn => ?_
      cases l with
      | nil => cases hturn
      | cons x rest =>
        push Not at htop
        obtain ⟨y, hy, hlt⟩ := htop
        -- the first one of the line is above the rank `r`, so it leaves or does nothing
        have hdone := h.above x List.mem_cons_self (hlt.trans_le (hl.head_le hy))
        exact ih _ (measure_lt_of_turn hdone hturn) (h.turn hl hturn) (isLine_of_turn hl hturn) rfl

/-- **Turns that end.** -/
theorem ends_of_settles (hl : IsLine t.rank l) (h : t.Settles l) : t.Ends (l, []) := by
  rcases h with ⟨pre, hpre, hfew, hstay⟩ | ⟨z, -, hfew⟩ | hall
  · obtain ⟨suf, rfl⟩ := (List.mem_inits _ _).1 hpre
    exact ends_of_fewFirst hfew hstay
  · exact hfew.ends hl
  · exact hall.ends

/-! ### Turns that do not end -/

/-- There are at least as many calls as turns: those above the rank `p` leave, and those of that
rank that stay make at least as many calls as they are, also up to any place in the line. -/
structure Endless (t : Turns α ρ) (p : ρ) (l : List α) (ks : List Handover) : Prop where
  line : IsLine t.rank l
  passes : ∀ k ∈ ks, k = .pass
  tails : ∀ x ∈ l, ∀ k ∈ (t.calls x).tail, k = .pass
  above : ∀ x ∈ l, p < t.rank x → t.Leaves x
  stay : t.stayers p l ≠ []
  many : (t.stayers p l).length ≤ t.total (t.stayers p l)
  front : ∀ w, w <+: l → (∀ x ∈ w, p ≤ t.rank x) → w.length ≤ t.total w + ks.length

section

variable {p : ρ}

omit [DecidableEq α] [LinearOrder ρ] in
theorem Leaves.length_pos (h : t.Leaves x) : 0 < (t.calls x).length := by
  obtain ⟨ks, hks⟩ := leaves_iff.1 h
  rw [hks]
  exact Nat.succ_pos _

omit [DecidableEq α] in
/-- Those that leave make at least one call each. -/
theorem length_add_le {w : List α} (hw : ∀ x ∈ w, p ≤ t.rank x) :
    w.length + t.total (t.stayers p w) ≤ t.total w + (t.stayers p w).length := by
  induction w with
  | nil => exact le_rfl
  | cons x w ih =>
    have ih := ih fun y hy => hw y (List.mem_cons_of_mem _ hy)
    rw [stayers_cons, total_cons, List.length_cons]
    by_cases hx : t.Leaves x
    · have hpos := hx.length_pos
      rw [if_neg fun hstay => hstay.2 hx]
      omega
    · rw [if_pos ⟨hw x List.mem_cons_self, hx⟩, total_cons, List.length_cons]
      omega

theorem turn_of_calls {k : Handover} {ms : List Handover} (h : t.calls x = k :: ms) :
    t.turn (x :: rest, ks) =
      some (if k = .leave then rest else joinLine t.rank x rest, ms ++ ks) := by
  have hidle : x ≠ t.idle := by
    rintro rfl
    rw [t.calls_idle] at h
    cases h
  rw [turn, effective, if_neg hidle, h]
  cases k <;> rfl

/-- The turn of somebody that makes no call ends with the next one that is still to be made. -/
theorem turn_of_nil (h : t.calls x = []) :
    t.turn (x :: rest, .pass :: ks) = some (joinLine t.rank x rest, ks) := by
  rw [turn, effective, h]
  split_ifs <;> rfl

omit [DecidableEq α] in
theorem Endless.le_rank (h : t.Endless p (x :: rest) ks) : p ≤ t.rank x := by
  obtain ⟨y, hy⟩ := List.exists_mem_of_ne_nil _ h.stay
  obtain ⟨hmem, hr⟩ := List.mem_filter.1 hy
  exact (of_decide_eq_true hr).1.trans (h.line.head_le hmem)

omit [DecidableEq α] in
/-- The line after the turn of one that stays. -/
theorem Endless.joinLine (h : t.Endless p (x :: rest) ks) (hx : ¬ t.Leaves x)
    (hpasses : ∀ k ∈ ks', k = .pass)
    (hlen : ks'.length + 1 = (t.calls x).length + ks.length) :
    t.Endless p (EFS.joinLine t.rank x rest) ks' := by
  have hperm := joinLine_perm t.rank x rest
  have hstayers : (t.stayers p (EFS.joinLine t.rank x rest)).Perm (t.stayers p (x :: rest)) :=
    hperm.filter _
  have hrank : t.rank x = p := by
    refine le_antisymm ?_ h.le_rank
    exact not_lt.1 fun hlt => hx (h.above x List.mem_cons_self hlt)
  -- the others of that rank, and those below
  obtain ⟨w, v, rfl, hw, hv⟩ := exists_top (r := p) h.line.tail fun y hy =>
    hrank ▸ h.line.head_le (List.mem_cons_of_mem _ hy)
  have hjoin : EFS.joinLine t.rank x (w ++ v) = w ++ [x] ++ v := by
    rw [joinLine_append fun y hy => (hrank.trans (hw y hy).symm).le, List.append_assoc]
    cases v with
    | nil => rfl
    | cons y v => rw [joinLine_cons_of_lt (hrank ▸ hv y List.mem_cons_self)]; rfl
  refine ⟨h.line.tail.joinLine x, hpasses, fun y hy => h.tails y (hperm.mem_iff.1 hy),
    fun y hy => h.above y (hperm.mem_iff.1 hy), fun hnil => ?_, ?_, fun u hu hur => ?_⟩
  · rw [hnil] at hstayers
    exact h.stay hstayers.symm.eq_nil
  · rw [hstayers.length_eq, show t.total _ = t.total _ from (hstayers.map _).sum_eq]
    exact h.many
  · rw [hjoin] at hu
    have hprefix : u = w ++ [x] ∨ u <+: w := by
      rcases List.prefix_or_prefix_of_prefix hu (List.prefix_append _ v) with hle | ⟨u', rfl⟩
      · exact List.prefix_concat_iff.1 hle
      · -- nobody further down is of that rank
        cases u' with
        | nil => exact .inl (List.append_nil _)
        | cons y u' =>
          have hy : y ∈ v := ((List.prefix_append_right_inj _).1 hu).subset List.mem_cons_self
          exact absurd (hur y (by simp)) (hv y hy).not_ge
    rcases hprefix with rfl | hle
    · have hxw : ∀ y ∈ x :: w, p ≤ t.rank y := by
        intro y hy
        rcases List.mem_cons.1 hy with rfl | hy
        · exact hrank.ge
        · exact (hw y hy).ge
      have hall : t.stayers p (x :: (w ++ v)) = t.stayers p (x :: w) := by
        have hnil : t.stayers p v = [] :=
          List.filter_eq_nil_iff.2 fun y hy => by simp [(hv y hy).not_ge]
        rw [← List.cons_append, stayers, List.filter_append]
        exact (congrArg _ hnil).trans (List.append_nil _)
      have hmany := h.many
      rw [hall] at hmany
      have hle := length_add_le hxw
      have htotal : t.total (w ++ [x]) = t.total (x :: w) :=
        ((List.perm_append_singleton x w).map _).sum_eq
      rw [htotal, List.length_append, List.length_singleton]
      rw [List.length_cons] at hle
      omega
    · have hpre : x :: u <+: x :: (w ++ v) :=
        List.cons_prefix_cons.2 ⟨rfl, hle.trans (List.prefix_append w v)⟩
      have hfront := h.front (x :: u) hpre fun y hy => ?_
      · rw [total_cons, List.length_cons] at hfront
        omega
      · rcases List.mem_cons.1 hy with rfl | hy
        · exact hrank.ge
        · exact hur y hy

omit [DecidableEq α] in
/-- The line when the first one of it has left. -/
theorem Endless.tail (h : t.Endless p (x :: rest) ks) (hx : t.Leaves x)
    (hpasses : ∀ k ∈ ks', k = .pass)
    (hlen : ks'.length + 1 = (t.calls x).length + ks.length) : t.Endless p rest ks' := by
  have hstayers : t.stayers p (x :: rest) = t.stayers p rest := by
    rw [stayers_cons, if_neg fun hstay => hstay.2 hx]
  refine ⟨h.line.tail, hpasses, fun y hy => h.tails y (List.mem_cons_of_mem _ hy),
    fun y hy => h.above y (List.mem_cons_of_mem _ hy), hstayers ▸ h.stay, hstayers ▸ h.many,
    fun w hw hwr => ?_⟩
  have hfront := h.front (x :: w) (List.cons_prefix_cons.2 ⟨rfl, hw⟩) fun y hy => ?_
  · rw [total_cons, List.length_cons] at hfront
    omega
  · rcases List.mem_cons.1 hy with rfl | hy
    · exact h.le_rank
    · exact hwr y hy

/-- **Step lemma.**  A further turn is given, and there are still at least as many calls. -/
theorem Endless.turn (h : t.Endless p l ks) : ∃ l' ks', t.turn (l, ks) = some (l', ks') ∧
    t.Endless p l' ks' := by
  cases l with
  | nil => exact absurd rfl h.stay
  | cons x rest =>
    cases hcalls : t.calls x with
    | nil =>
      -- a call is still to be made in another turn
      have hx : ¬ t.Leaves x := by simp [Leaves, hcalls]
      have hfront := h.front [x] (List.prefix_append [x] rest) (by simpa using h.le_rank)
      rw [total_cons, hcalls] at hfront
      cases ks with
      | nil => simp [total] at hfront
      | cons k ks =>
        obtain rfl := h.passes k List.mem_cons_self
        exact ⟨_, ks, turn_of_nil hcalls,
          h.joinLine hx (fun k hk => h.passes k (List.mem_cons_of_mem _ hk)) (by simp [hcalls])⟩
    | cons k ms =>
      have hpasses : ∀ k ∈ ms ++ ks, k = .pass := by
        intro k' hk'
        rcases List.mem_append.1 hk' with hk' | hk'
        · exact h.tails x List.mem_cons_self k' (by rwa [hcalls])
        · exact h.passes k' hk'
      have hlen : (ms ++ ks).length + 1 = (t.calls x).length + ks.length := by
        rw [hcalls, List.length_append, List.length_cons]
        omega
      refine ⟨_, _, turn_of_calls hcalls, ?_⟩
      by_cases hk : k = .leave
      · subst hk
        exact h.tail (leaves_iff.2 ⟨ms, hcalls⟩) hpasses hlen
      · rw [if_neg hk]
        exact h.joinLine (fun hx => hk (by simpa [Leaves, hcalls] using hx)) hpasses hlen

theorem Endless.not_ends (h : t.Endless p l ks) : ¬ t.Ends (l, ks) := by
  intro hends
  generalize hc : (l, ks) = c at hends
  induction hends generalizing l ks with
  | intro _ ih =>
    subst hc
    obtain ⟨l', ks', hturn, h'⟩ := h.turn
    exact ih _ hturn h' rfl

omit [DecidableEq α] in
/-- Where the condition fails, those of the highest rank at which somebody stays go on for ever. -/
theorem exists_endless (hl : IsLine t.rank l) (htails : ∀ x ∈ l, ∀ k ∈ (t.calls x).tail, k = .pass)
    (h : ¬ t.Settles l) : ∃ p, t.Endless p l [] := by
  rw [Settles, not_or, not_or] at h
  obtain ⟨hfirst, hstay, hall⟩ := h
  -- the first one that does not leave has the highest rank of all that do not
  obtain ⟨z, hz⟩ : ∃ z, l.find? (fun x => ¬ t.Leaves x) = some z := by
    refine Option.ne_none_iff_exists'.1 fun hnone => hall fun x hx => .inr ?_
    simpa using List.find?_eq_none.1 hnone x hx
  obtain ⟨hzl, as, bs, rfl, has⟩ := List.find?_eq_some_iff_append.1 hz
  have hzl : ¬ t.Leaves z := of_decide_eq_true hzl
  have hmem : z ∈ as ++ z :: bs := by simp
  have habove : ∀ x ∈ as ++ z :: bs, t.rank z < t.rank x → t.Leaves x := by
    intro x hx hlt
    rcases List.mem_append.1 hx with hx | hx
    · simpa using has x hx
    · have hline : IsLine t.rank (z :: bs) := (List.pairwise_append.1 hl).2.1
      exact absurd hlt (hline.head_le hx).not_gt
  refine ⟨t.rank z, hl, by simp, htails, habove, ?_, ?_, ?_⟩
  · refine List.ne_nil_of_mem (a := z) (List.mem_filter.2 ⟨hmem, ?_⟩)
    simpa using hzl
  · by_contra hfew
    refine hstay ⟨z, hmem, fun x hx hlt => .inr (habove x hx hlt), fun x hx _ => ?_, ?_⟩
    · refine or_iff_not_imp_left.2 fun hx' hleave => ?_
      cases hcalls : t.calls x with
      | nil =>
        rw [hcalls] at hleave
        cases hleave
      | cons k ms =>
        rw [hcalls] at hleave
        rcases List.mem_cons.1 hleave with rfl | hleave
        · exact hx' (leaves_iff.2 ⟨ms, hcalls⟩)
        · cases htails x hx .leave (by rwa [hcalls])
    · have hlater : t.later (t.rank z) (as ++ z :: bs) = 0 := by
        refine List.sum_eq_zero fun n hn => ?_
        obtain ⟨x, hx, rfl⟩ := List.mem_map.1 hn
        refine List.count_eq_zero_of_not_mem fun hleave => ?_
        cases htails x (List.mem_of_mem_filter hx) _ hleave
      rw [hlater]
      exact not_le.1 hfew
  · intro w hw hwr
    by_contra hfew
    refine hfirst ⟨w, (List.mem_inits _ _).2 hw, by simpa using hfew, fun x hx => ?_⟩
    refine or_iff_not_imp_left.2 fun hx' y hy => ?_
    have hle : t.rank x ≤ t.rank z := not_lt.1 fun hlt => hx' (habove x (hw.subset hx) hlt)
    exact hle.trans (hwr y hy)

/-- **Turns that do not end.** -/
theorem not_ends_of_not_settles (hl : IsLine t.rank l)
    (htails : ∀ x ∈ l, ∀ k ∈ (t.calls x).tail, k = .pass) (h : ¬ t.Settles l) :
    ¬ t.Ends (l, []) := by
  obtain ⟨p, hp⟩ := exists_endless hl htails h
  exact hp.not_ends

end

end Turns

end EFS
