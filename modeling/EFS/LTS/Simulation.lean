import EFS.LTS.Reentrant

/-!
# Two levels of one system

`LTS.FunBisim A B f I` : on the states of the invariant `I`, the function `f` forgets what the
coarser system `B` does not need to know about a state of `A`, and nothing else: `B` can do in `f s`
exactly what `A` can do in `s`.  The runs of `B` are then those of `A`, seen through `f`
(`LTS.FunBisim.run_iff`).

`Reentrant.Refines` is what has to be checked for components that call back: operation by
operation, both leave the same frame.
-/

namespace EFS

variable {S T L O F : Type*}

/-- `f` is a functional bisimulation from `A` to `B`, on the states that satisfy `I`. -/
structure LTS.FunBisim (A : LTS S L) (B : LTS T L) (f : S → T) (I : S → Prop) : Prop where
  kept : ∀ s l t, I s → A.step s l t → I t
  forth : ∀ s l t, I s → A.step s l t → B.step (f s) l (f t)
  back : ∀ s l u, I s → B.step (f s) l u → ∃ t, A.step s l t ∧ f t = u

namespace LTS.FunBisim

variable {A : LTS S L} {B : LTS T L} {f : S → T} {I : S → Prop} {s t : S} {ls : List L}

theorem run_map (h : FunBisim A B f I) (hs : I s) (hr : A.Run s ls t) :
    B.Run (f s) ls (f t) := by
  induction hr with
  | nil => exact .nil _
  | cons hst _ ih => exact .cons (h.forth _ _ _ hs hst) (ih (h.kept _ _ _ hs hst))

theorem run_lift {u : T} (h : FunBisim A B f I) (hs : I s) (hr : B.Run (f s) ls u) :
    ∃ t, A.Run s ls t ∧ f t = u := by
  induction ls generalizing s with
  | nil =>
    cases hr
    exact ⟨s, .nil s, rfl⟩
  | cons l ls ih =>
    cases hr with
    | cons hst hr =>
      obtain ⟨t, hstep, rfl⟩ := h.back _ _ _ hs hst
      obtain ⟨u, hrun, hu⟩ := ih (h.kept _ _ _ hs hstep) hr
      exact ⟨u, .cons hstep hrun, hu⟩

/-- **The runs of the coarser system are those of the finer one.** -/
theorem run_iff {u : T} (h : FunBisim A B f I) (hs : I s) :
    B.Run (f s) ls u ↔ ∃ t, A.Run s ls t ∧ f t = u := by
  refine ⟨h.run_lift hs, ?_⟩
  rintro ⟨t, hr, rfl⟩
  exact h.run_map hs hr

end LTS.FunBisim

/-- Operation by operation, the components `R` and `R'` leave the same frame, and `f` relates the
states that they leave. -/
structure Reentrant.Refines (R : Reentrant S O F) (R' : Reentrant T O F) (f : S → T)
    (I : S → Prop) (G : S → O → Prop) (G' : T → O → Prop) : Prop where
  guard : ∀ s o, I s → (G s o ↔ G' (f s) o)
  kept_call : ∀ s o, I s → G s o → I (R.call s o).state
  kept_resume : ∀ s x, I s → I (R.resume s x).state
  kept_unwind : ∀ s x, I s → I (R.unwind s x)
  call : ∀ s o, I s → G s o → (R.call s o).map f = R'.call (f s) o
  resume : ∀ s x, I s → (R.resume s x).map f = R'.resume (f s) x
  unwind : ∀ s x, I s → f (R.unwind s x) = R'.unwind (f s) x

namespace Reentrant.Refines

variable {R : Reentrant S O F} {R' : Reentrant T O F} {f : S → T} {I : S → Prop}
  {G : S → O → Prop} {G' : T → O → Prop}

/-- A component and its refinement, with arbitrary code around them. -/
theorem funBisim (h : Refines R R' f I G G') :
    LTS.FunBisim (R.lts G) (R'.lts G') (fun c => (f c.1, c.2)) (fun c => I c.1) := by
  refine ⟨?_, ?_, ?_⟩
  · rintro _ _ _ hI ⟨hst, hG⟩
    cases hst with
    | call s fs o => exact h.kept_call s o hI (hG o _ rfl)
    | ret s x fs => exact h.kept_resume s x hI
    | throw s x fs => exact h.kept_unwind s x hI
  · rintro _ _ _ hI ⟨hst, hG⟩
    cases hst with
    | call s fs o =>
      have hcall := h.call s o hI (hG o _ rfl)
      have hst := lts_call (R := R') (k := fs) ((h.guard s o hI).1 (hG o _ rfl))
      rwa [← hcall, Outcome.frame?_map, Outcome.state_map] at hst
    | ret s x fs =>
      have hst := lts_ret (R := R') (G := G') (s := f s) (f := x) (k := fs)
      rwa [← h.resume s x hI, Outcome.frame?_map, Outcome.state_map] at hst
    | throw s x fs =>
      have hst := lts_throw (R := R') (G := G') (s := f s) (f := x) (k := fs)
      rwa [← h.unwind s x hI] at hst
  · rintro ⟨s, fs⟩ l u hI ⟨hst, hG⟩
    simp only at hst hG
    -- a step of the image is the image of a step
    generalize hc : (f s, fs) = c at hst
    cases hst with
    | call s' fs' o =>
      obtain ⟨rfl, rfl⟩ := Prod.mk.inj hc
      have hGo := (h.guard s o hI).2 (hG o _ rfl)
      refine ⟨((R.call s o).state, (R.call s o).frame?.toList ++ fs), ?_, ?_⟩
      · rw [← h.call s o hI hGo, Outcome.frame?_map]
        exact lts_call hGo
      · rw [← h.call s o hI hGo, Outcome.state_map, Outcome.frame?_map]
    | ret s' x fs' =>
      obtain ⟨rfl, rfl⟩ := Prod.mk.inj hc
      refine ⟨((R.resume s x).state, (R.resume s x).frame?.toList ++ fs'), ?_, ?_⟩
      · rw [← h.resume s x hI, Outcome.frame?_map]
        exact lts_ret
      · rw [← h.resume s x hI, Outcome.state_map, Outcome.frame?_map]
    | throw s' x fs' =>
      obtain ⟨rfl, rfl⟩ := Prod.mk.inj hc
      exact ⟨_, lts_throw, by rw [h.unwind s x hI]⟩

end Reentrant.Refines

end EFS
