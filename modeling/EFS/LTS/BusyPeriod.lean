import Mathlib.Data.Finset.Card
import Mathlib.Tactic

/-!
# Busy periods

A server serves one request in each step in which there is one.  Each client has at most one request
that waits, and knows in how many steps it raises the next one.

While requests wait, each step serves one of them: a busy period takes as many steps as requests are
raised in it.  If the clients announce their requests as many steps ahead as there are clients, none
of them raises two requests in a busy period, so that the period is over before the requests that
are announced in it are raised.

* `Agenda.Busy` : what has happened since the server was idle last.
* `Agenda.Busy.step`, `Agenda.Busy.announce` : it is kept by steps and by announcements.
* `Agenda.Busy.disjoint_raised` : no client raises a request while its last one waits.
* `Agenda.Busy.balance` : so no request is lost.
* `Agenda.Busy.lt_card` : no busy period is longer than there are clients.
-/

namespace EFS

/-- The clients whose requests wait, and in how many steps each client raises its next one. -/
structure Agenda (ι : Type*) where
  waiting : Finset ι
  due : ι → Option ℕ

namespace Agenda

variable {ι : Type*} (clients : Finset ι)

/-- The clients that raise their requests in the next step. -/
def raised (a : Agenda ι) : Finset ι := clients.filter fun i => a.due i = some 1

/-- A step, in which the request of `served` is served. -/
structure Step [DecidableEq ι] (a : Agenda ι) (served : Option ι) (a' : Agenda ι) : Prop where
  waiting : ∀ i, i ∈ a'.waiting ↔ i ∈ a.waiting ∪ a.raised clients ∧ i ∉ served
  exists_request : ∀ i ∈ served, i ∈ a.waiting ∪ a.raised clients
  /-- The server is idle only if there is no request. -/
  idle : served = none → a.waiting ∪ a.raised clients = ∅
  due : ∀ i k, a'.due i = some k → 0 < k ∧ a.due i = some (k + 1)

/-- Between two steps clients withdraw their next requests, or announce others early enough. -/
structure Announce (a a' : Agenda ι) : Prop where
  waiting : a'.waiting = a.waiting
  due : ∀ i k, a'.due i = some k → a.due i = some k ∨ clients.card ≤ k

/-- The server has been busy for `n` steps, in which the clients in `asked` have raised their
requests. -/
structure Busy (a : Agenda ι) (asked : Finset ι) (n : ℕ) : Prop where
  waiting_subset : a.waiting ⊆ asked
  asked_subset : asked ⊆ clients
  /-- Each of the steps has served a request. -/
  card : a.waiting.card + n = asked.card
  started : n = 0 → asked = ∅
  /-- Their next requests come when the period is over. -/
  due : ∀ i ∈ asked, ∀ k, a.due i = some k → clients.card < n + k

variable {clients} {a a' : Agenda ι} {served : Option ι} {asked : Finset ι} {n : ℕ} {i : ι}

theorem busy_of_idle (h : a.waiting = ∅) : a.Busy clients ∅ 0 where
  waiting_subset := h.le
  asked_subset := Finset.empty_subset clients
  card := by rw [h, Nat.add_zero]
  started _ := rfl
  due i hi := absurd hi (Finset.notMem_empty i)

namespace Busy

/-- As long as a request waits, the busy period is shorter than there are clients. -/
theorem lt_card (h : a.Busy clients asked n) (hi : i ∈ a.waiting) : 0 < n ∧ n < clients.card := by
  have hpos : 0 < a.waiting.card := Finset.card_pos.2 ⟨i, hi⟩
  have hle : asked.card ≤ clients.card := Finset.card_le_card h.asked_subset
  have hcard := h.card
  refine ⟨Nat.pos_of_ne_zero fun hn => ?_, by omega⟩
  have hasked : i ∈ asked := h.waiting_subset hi
  rw [h.started hn] at hasked
  exact Finset.notMem_empty i hasked

theorem announce (h : a.Busy clients asked n) (ha : a.Announce clients a') :
    a'.Busy clients asked n := by
  refine ⟨ha.waiting ▸ h.waiting_subset, h.asked_subset, ha.waiting ▸ h.card, h.started, ?_⟩
  intro i hi k hk
  rcases ha.due i k hk with hk | hle
  · exact h.due i hi k hk
  · have hn : n ≠ 0 := fun hn => Finset.notMem_empty i (h.started hn ▸ hi)
    omega

theorem disjoint_asked (h : a.Busy clients asked n) (hi : i ∈ a.waiting) :
    Disjoint asked (a.raised clients) := by
  refine Finset.disjoint_left.2 fun j hj hraised => ?_
  have hdue := h.due j hj 1 (Finset.mem_filter.1 hraised).2
  have hlt := (h.lt_card hi).2
  omega

theorem disjoint_raised (h : a.Busy clients asked n) :
    Disjoint a.waiting (a.raised clients) := by
  refine Finset.disjoint_left.2 fun i hi hraised => ?_
  exact Finset.disjoint_left.1 (h.disjoint_asked hi) (h.waiting_subset hi) hraised

variable [DecidableEq ι]

/-- A step in which the server is busy. -/
theorem step_of_served (h : a.Busy clients asked n) (hs : a.Step clients (some i) a')
    (hdisjoint : Disjoint asked (a.raised clients)) :
    a'.Busy clients (asked ∪ a.raised clients) (n + 1) where
  waiting_subset j hj := Finset.union_subset_union h.waiting_subset (Finset.Subset.refl _)
    ((hs.waiting j).1 hj).1
  asked_subset := Finset.union_subset h.asked_subset (Finset.filter_subset _ clients)
  card := by
    have herase : a'.waiting = (a.waiting ∪ a.raised clients).erase i := by
      ext j
      rw [hs.waiting, Finset.mem_erase, and_comm, Option.mem_some_iff, eq_comm (a := i)]
    have hi := hs.exists_request i rfl
    have hpos : 0 < (a.waiting ∪ a.raised clients).card := Finset.card_pos.2 ⟨i, hi⟩
    have hunion := Finset.card_union_of_disjoint h.disjoint_raised
    have hasked := Finset.card_union_of_disjoint hdisjoint
    have hcard := h.card
    rw [herase, Finset.card_erase_of_mem hi]
    omega
  started hn := absurd hn (Nat.succ_ne_zero n)
  due j hj k hk := by
    obtain ⟨hpos, hbefore⟩ := hs.due j k hk
    rcases Finset.mem_union.1 hj with hasked | hraised
    · have hdue := h.due j hasked (k + 1) hbefore
      omega
    · -- it has just raised its request, and has no other one yet
      have hone : some 1 = some (k + 1) := (Finset.mem_filter.1 hraised).2.symm.trans hbefore
      have hk : 1 = k + 1 := Option.some.inj hone
      omega

theorem step_of_waiting (h : a.Busy clients asked n) (hs : a.Step clients served a')
    (hi : i ∈ a.waiting) : ∃ asked', a'.Busy clients asked' (n + 1) := by
  cases served with
  | none => exact absurd (Finset.mem_union_left _ hi) (hs.idle rfl ▸ Finset.notMem_empty i)
  | some j => exact ⟨_, h.step_of_served hs (h.disjoint_asked hi)⟩

/-- **Step lemma.** -/
theorem step (h : a.Busy clients asked n) (hs : a.Step clients served a') :
    ∃ asked' n', a'.Busy clients asked' n' := by
  rcases a.waiting.eq_empty_or_nonempty with hidle | ⟨i, hi⟩
  · cases served with
    | none =>
      refine ⟨∅, 0, busy_of_idle (Finset.eq_empty_of_forall_notMem fun j hj => ?_)⟩
      exact Finset.notMem_empty j (hs.idle rfl ▸ ((hs.waiting j).1 hj).1)
    | some j =>
      exact ⟨_, _, (busy_of_idle hidle).step_of_served hs (Finset.disjoint_empty_left _)⟩
  · obtain ⟨asked', h'⟩ := h.step_of_waiting hs hi
    exact ⟨asked', n + 1, h'⟩

/-- The requests that come in are served, or wait. -/
theorem balance (h : a.Busy clients asked n) (hs : a.Step clients served a') (i : ι) :
    (if i ∈ a.waiting then 1 else 0) + (if i ∈ a.raised clients then 1 else 0) =
      (if i ∈ served then 1 else 0) + if i ∈ a'.waiting then 1 else 0 := by
  have hdisjoint : i ∈ a.waiting → i ∉ a.raised clients := fun hw =>
    Finset.disjoint_left.1 h.disjoint_raised hw
  have hexists := hs.exists_request i
  simp only [hs.waiting i, Finset.mem_union] at hexists ⊢
  by_cases hserved : i ∈ served
  · -- the one request there is has been served
    rcases hexists hserved with hw | hr
    · simp [hw, hdisjoint hw, hserved]
    · have hw : i ∉ a.waiting := fun hw => hdisjoint hw hr
      simp [hw, hr, hserved]
  · by_cases hw : i ∈ a.waiting
    · simp [hw, hdisjoint hw, hserved]
    · simp [hw, hserved]

end Busy

end Agenda

end EFS
