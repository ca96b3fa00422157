import EFS.LTS.Basic
import Mathlib.Data.List.Induction

/-!
# Histories and guards

A history is the list of the events that have happened, the oldest first.

* `Permitted P es` : each event of `es` was permitted (`P`) by the events before it.
* `Since e Q es` : `e` has happened, and since then no event of `Q`.
* `LTS.Throughout P s ls`, `LTS.Allowed G s ls` : each state of the runs `ls` from `s` satisfies
  `P`; each label of `ls` is performed where the guard `G` allows it.  If an invariant is kept
  exactly by what `G` allows, and anything else breaks `P`, the two are the same
  (`throughout_iff_allowed`).
-/

namespace EFS

section History

variable {E : Type*} {P : List E → E → Prop} {Q : E → Prop} {es : List E} {e x : E}

/-- Every event happens after a history that `P` permits it to follow. -/
def Permitted (P : List E → E → Prop) (es : List E) : Prop :=
  ∀ pre e post, es = pre ++ e :: post → P pre e

/-- The event `e` has happened, and since then nothing of the kind `Q`. -/
def Since (e : E) (Q : E → Prop) (es : List E) : Prop :=
  ∃ pre post, es = pre ++ e :: post ∧ ∀ x ∈ post, ¬ Q x

theorem snoc_eq_append_cons {pre post : List E} (h : es ++ [x] = pre ++ e :: post) :
    (post = [] ∧ pre = es ∧ e = x) ∨ ∃ rest, post = rest ++ [x] ∧ es = pre ++ e :: rest := by
  rcases List.eq_nil_or_concat post with rfl | ⟨rest, last, rfl⟩
  · obtain ⟨rfl, he⟩ := List.append_inj' h rfl
    exact .inl ⟨rfl, rfl, (List.singleton_inj.1 he).symm⟩
  · rw [List.concat_eq_append, ← List.cons_append, ← List.append_assoc] at h
    obtain ⟨hes, hlast⟩ := List.append_inj' h rfl
    exact .inr ⟨rest, by rw [List.concat_eq_append, ← hlast], hes⟩

theorem permitted_nil : Permitted P [] := fun pre e post h => by simp at h

theorem permitted_snoc : Permitted P (es ++ [e]) ↔ Permitted P es ∧ P es e := by
  constructor
  · intro h
    exact ⟨fun pre x post he => h pre x (post ++ [e]) (by simp [he]), h es e [] rfl⟩
  · rintro ⟨h, hp⟩ pre x post he
    rcases snoc_eq_append_cons he with ⟨-, rfl, rfl⟩ | ⟨rest, -, hes⟩
    · exact hp
    · exact h pre x rest hes

theorem not_since_nil : ¬ Since e Q [] := fun ⟨pre, post, h, _⟩ => by simp at h

theorem Since.append {post : List E} (h : Since e Q es) (hpost : ∀ x ∈ post, ¬ Q x) :
    Since e Q (es ++ post) := by
  obtain ⟨pre, rest, rfl, hrest⟩ := h
  refine ⟨pre, rest ++ post, by simp, ?_⟩
  intro x hx
  rcases List.mem_append.1 hx with hx | hx
  · exact hrest x hx
  · exact hpost x hx

theorem since_snoc : Since e Q (es ++ [x]) ↔ x = e ∨ (Since e Q es ∧ ¬ Q x) := by
  constructor
  · rintro ⟨pre, post, he, hpost⟩
    rcases snoc_eq_append_cons he with ⟨-, -, hx⟩ | ⟨rest, rfl, hes⟩
    · exact .inl hx.symm
    · exact .inr ⟨⟨pre, rest, hes, fun y hy => hpost y (List.mem_append_left _ hy)⟩,
        hpost x (by simp)⟩
  · rintro (rfl | ⟨h, hx⟩)
    · exact ⟨es, [], rfl, fun y hy => absurd hy List.not_mem_nil⟩
    · exact h.append fun y hy => List.mem_singleton.1 hy ▸ hx

theorem Since.unique {e' : E} (h : Since e Q es) (h' : Since e' Q es) (he : Q e) (he' : Q e') :
    e = e' := by
  induction es using List.reverseRecOn with
  | nil => exact absurd h not_since_nil
  | append_singleton es x ih =>
    rcases since_snoc.1 h with rfl | ⟨h, hx⟩
    · rcases since_snoc.1 h' with rfl | ⟨-, hx'⟩
      · rfl
      · exact absurd he hx'
    · rcases since_snoc.1 h' with rfl | ⟨h', -⟩
      · exact absurd he' hx
      · exact ih h h'

/-- A queue between two streams: what a step takes out and puts in goes on with the streams. -/
theorem append_passes {out taken into put queue queue' : List E} (h : out ++ queue = into)
    (hstep : taken ++ queue' = queue ++ put) : (out ++ taken) ++ queue' = into ++ put := by
  rw [List.append_assoc, hstep, ← List.append_assoc, h]

end History

namespace LTS

variable {S L : Type*} (A : LTS S L)

/-- `P` holds in every state on the way. -/
def Throughout (P : S → Prop) (s : S) (ls : List L) : Prop :=
  ∀ pre t, pre <+: ls → A.Run s pre t → P t

/-- Every step of the way is allowed by `G` in the state it is taken in. -/
def Allowed (G : S → L → Prop) (s : S) (ls : List L) : Prop :=
  ∀ pre l t, pre ++ [l] <+: ls → A.Run s pre t → G t l

variable {A} {I P : S → Prop} {G : S → L → Prop} {s t : S} {ls pre : List L}

/-- An invariant that each step of the runs `ls` keeps. -/
theorem invariant_along (hI : I s)
    (hkept : ∀ ks t l u, ks ++ [l] <+: ls → A.Run s ks t → I t → A.step t l u → I u)
    (hpre : pre <+: ls) (hrun : A.Run s pre t) : I t := by
  have hkeep := hrun.history (I := fun ks t => ks <+: ls → A.Run s ks t ∧ I t)
    (fun _ => ⟨.nil s, hI⟩) ?_
  · exact (hkeep hpre).2
  · intro ks t l u ih hstep hks
    obtain ⟨hrun, ht⟩ := ih ((List.prefix_append ks [l]).trans hks)
    exact ⟨hrun.snoc hstep, hkept ks t l u hks hrun ht hstep⟩

theorem Allowed.nil : A.Allowed G s [] := fun pre l t h _ => by simp at h

theorem Allowed.cons {l : L} (h : G s l) (hls : ∀ t, A.step s l t → A.Allowed G t ls) :
    A.Allowed G s (l :: ls) := by
  intro pre l' t hpre hrun
  cases pre with
  | nil =>
    obtain ⟨rfl, -⟩ := List.cons_prefix_cons.1 hpre
    cases hrun
    exact h
  | cons k pre =>
    obtain ⟨rfl, hrest⟩ := List.cons_prefix_cons.1 hpre
    cases hrun with
    | cons hstep hrun => exact hls _ hstep pre l' t hrest hrun

/-- Two predicates that agree as long as one of them holds, hold throughout the same runs. -/
theorem throughout_congr {Q : S → Prop} (hI : I s) (hiff : ∀ s, I s → (P s ↔ Q s))
    (hkept : ∀ s l t, I s → P s → A.step s l t → I t) :
    A.Throughout P s ls ↔ A.Throughout Q s ls := by
  constructor
  · intro h pre t hpre hrun
    have ht : I t := invariant_along hI (fun ks t l u hks hrun ht hstep =>
      hkept t l u ht (h ks t ((List.prefix_append ks [l]).trans hks) hrun) hstep) hpre hrun
    exact (hiff t ht).1 (h pre t hpre hrun)
  · intro h pre t hpre hrun
    have ht : I t := invariant_along hI (fun ks t l u hks hrun ht hstep =>
      hkept t l u ht ((hiff t ht).2 (h ks t ((List.prefix_append ks [l]).trans hks) hrun)) hstep)
      hpre hrun
    exact (hiff t ht).2 (h pre t hpre hrun)

/-- **Guard rule.**  What `G` allows keeps an invariant that implies `P`, and anything else breaks
`P`: then the labels of a run are allowed iff `P` holds throughout. -/
theorem throughout_iff_allowed (htotal : ∀ s l, ∃ t, A.step s l t) (hI : I s)
    (hP : ∀ s, I s → P s) (hkept : ∀ s l t, I s → A.step s l t → G s l → I t)
    (hbroken : ∀ s l t, I s → A.step s l t → ¬ G s l → ¬ P t) :
    A.Throughout P s ls ↔ A.Allowed G s ls := by
  constructor
  · intro h
    -- the first label that is not allowed would break `P`
    have hallowed (ks : List L) (t : S) (l : L) (u : S) (hks : ks ++ [l] <+: ls)
        (hrun : A.Run s ks t) (ht : I t) (hstep : A.step t l u) : G t l := by
      by_contra hG
      exact hbroken t l u ht hstep hG (h _ u hks (hrun.snoc hstep))
    intro ks l t hks hrun
    obtain ⟨u, hstep⟩ := htotal t l
    refine hallowed ks t l u hks hrun ?_ hstep
    exact invariant_along hI
      (fun ks t l u hks hrun ht hstep => hkept t l u ht hstep (hallowed ks t l u hks hrun ht hstep))
      ((List.prefix_append ks [l]).trans hks) hrun
  · intro h pre t hpre hrun
    refine hP t (invariant_along hI ?_ hpre hrun)
    intro ks t l u hks hrun ht hstep
    exact hkept t l u ht hstep (h ks l t hks hrun)

end LTS

end EFS
