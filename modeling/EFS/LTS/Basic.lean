import Mathlib.Logic.Basic

/-!
# Labelled transition systems and their runs

The components of the simulator are driven from outside, in any order, for any number of
calls.  Each of them is given a meaning as a *labelled transition system*, and a claim about
"every run" is a claim about the runs defined here.

## Main definitions

* `LTS S L` : a transition relation `S → L → S → Prop`.
* `LTS.Run s ls t` : performing the labels `ls`, in order, leads from `s` to `t`.
* `LTS.Reachable s t` : some run leads from `s` to `t`.
* `LTS.restrict G` : the same system, where a step is taken only if the guard `G` allows it.

## Main rules

* `LTS.Run.invariant` : a predicate kept by every step is kept by every run.
* `LTS.Run.history` : the same for a predicate that also speaks about the labels performed
  since the start of the run.
-/

namespace EFS

/-- A labelled transition system with states `S` and labels `L`. -/
structure LTS (S L : Type*) where
  /-- `step s l t` : performing `l` in state `s` can lead to `t`. -/
  step : S → L → S → Prop

namespace LTS

variable {S L : Type*} (A : LTS S L)

/-- Finite runs: `Run s ls t` performs the labels `ls` from `s` and ends in `t`. -/
inductive Run : S → List L → S → Prop
  | nil (s : S) : Run s [] s
  | cons {s t u : S} {l : L} {ls : List L} : A.step s l t → Run t ls u → Run s (l :: ls) u

/-- Some run leads from `s` to `t`. -/
def Reachable (s t : S) : Prop := ∃ ls, A.Run s ls t

/-- The system in which only the steps allowed by the guard `G` are taken. -/
def restrict (G : S → L → Prop) : LTS S L where
  step s l t := G s l ∧ A.step s l t

variable {A}

namespace Run

theorem single {s t : S} {l : L} (h : A.step s l t) : A.Run s [l] t := .cons h (.nil t)

theorem append {s t u : S} {ls ms : List L} (h : A.Run s ls t) (h' : A.Run t ms u) :
    A.Run s (ls ++ ms) u := by
  induction h with
  | nil => exact h'
  | cons hst _ ih => exact .cons hst (ih h')

theorem of_append {s u : S} {ls ms : List L} (h : A.Run s (ls ++ ms) u) :
    ∃ t, A.Run s ls t ∧ A.Run t ms u := by
  induction ls generalizing s with
  | nil => exact ⟨s, .nil s, h⟩
  | cons l ls ih =>
    cases h with
    | cons hst hrun =>
      obtain ⟨t, hfirst, hrest⟩ := ih hrun
      exact ⟨t, .cons hst hfirst, hrest⟩

theorem snoc {s t u : S} {ls : List L} {l : L} (h : A.Run s ls t) (h' : A.step t l u) :
    A.Run s (ls ++ [l]) u :=
  h.append (single h')

/-- **History rule.**  A predicate on the labels performed so far and the current state that
holds at the start and is kept by every step holds at the end of every run. -/
theorem history {I : List L → S → Prop} {s t : S} {ls : List L} (h : A.Run s ls t)
    (h₀ : I [] s) (hstep : ∀ ks s l t, I ks s → A.step s l t → I (ks ++ [l]) t) : I ls t := by
  suffices H : ∀ ks, I ks s → I (ks ++ ls) t by simpa using H [] h₀
  clear h₀
  induction h with
  | nil => intro ks hk; simpa using hk
  | cons hst _ ih =>
    intro ks hk
    simpa using ih _ (hstep ks _ _ _ hk hst)

/-- **Invariant rule.**  A predicate on states kept by every step is kept by every run. -/
theorem invariant {I : S → Prop} {s t : S} {ls : List L} (h : A.Run s ls t) (h₀ : I s)
    (hstep : ∀ s l t, I s → A.step s l t → I t) : I t :=
  h.history (I := fun _ s => I s) h₀ fun _ s l t hs hst => hstep s l t hs hst

theorem of_restrict {G : S → L → Prop} {s t : S} {ls : List L}
    (h : (A.restrict G).Run s ls t) : A.Run s ls t := by
  induction h with
  | nil => exact .nil _
  | cons hst _ ih => exact .cons hst.2 ih

theorem restrict {G : S → L → Prop} {s t : S} {ls : List L} (h : A.Run s ls t)
    (hG : ∀ s, ∀ l ∈ ls, G s l) : (A.restrict G).Run s ls t := by
  induction h with
  | nil => exact .nil _
  | cons hst _ ih =>
    exact .cons ⟨hG _ _ List.mem_cons_self, hst⟩
      (ih fun s l hl => hG s l (List.mem_cons_of_mem _ hl))

end Run

namespace Reachable

@[refl] theorem refl (s : S) : A.Reachable s s := ⟨[], .nil s⟩

theorem tail {s t u : S} {l : L} (h : A.Reachable s t) (h' : A.step t l u) :
    A.Reachable s u := by
  obtain ⟨ls, hr⟩ := h
  exact ⟨ls ++ [l], hr.snoc h'⟩

theorem invariant {I : S → Prop} {s t : S} (h : A.Reachable s t) (h₀ : I s)
    (hstep : ∀ s l t, I s → A.step s l t → I t) : I t := by
  obtain ⟨ls, hr⟩ := h
  exact hr.invariant h₀ hstep

end Reachable

end LTS

end EFS
