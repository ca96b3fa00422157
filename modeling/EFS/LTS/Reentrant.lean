import EFS.LTS.Basic
import Mathlib.Logic.Relation
import Mathlib.Tactic

/-!
# Re-entrant components

Several components of the simulator call back: an operation hands control to code of the
caller (a task function, an event callback) before it returns, and that code may call the
component again.  A `Reentrant S O F` says what such a component does between two points at
which control is outside of it:

* an operation either returns, enters a callback, or throws (`Outcome`); a callback that is
  entered leaves a frame `F` on the call stack, with what the operation still has to do;
* when the callback returns, `resume` continues with that frame;
* when the callback throws, `unwind` is what the exception does to the component.

`Reentrant.lts` is its meaning for *arbitrary* surrounding code: a state is the state of the
component together with the stack of frames, and at every such state (an *operation boundary*,
at top level or inside a callback) any operation may be called, and the innermost callback may
return or throw.

`Reentrant.progLts` is its meaning for callbacks that are given: each performs a finite sequence
of operations.  `Reentrant.Returns` says that an operation comes back after finitely many steps.
-/

namespace EFS

/-- How an operation of a re-entrant component leaves it. -/
inductive Outcome (S F : Type*)
  /-- The operation has returned. -/
  | returned (s : S)
  /-- The operation has entered a callback and still has the frame `f` on the stack. -/
  | entered (s : S) (f : F)
  /-- The operation has thrown. -/
  | threw (s : S)

namespace Outcome

variable {S T F : Type*}

/-- The state of the component when control leaves it. -/
def state : Outcome S F → S
  | returned s => s
  | entered s _ => s
  | threw s => s

/-- The frame of the callback that was entered, if any. -/
def frame? : Outcome S F → Option F
  | returned _ => none
  | entered _ f => some f
  | threw _ => none

/-- The same outcome, seen in a larger state. -/
def map (g : S → T) : Outcome S F → Outcome T F
  | returned s => returned (g s)
  | entered s f => entered (g s) f
  | threw s => threw (g s)

@[simp] theorem state_returned (s : S) : (returned s : Outcome S F).state = s := rfl
@[simp] theorem state_entered (s : S) (f : F) : (entered s f).state = s := rfl
@[simp] theorem state_threw (s : S) : (threw s : Outcome S F).state = s := rfl
@[simp] theorem frame?_returned (s : S) : (returned s : Outcome S F).frame? = none := rfl
@[simp] theorem frame?_entered (s : S) (f : F) : (entered s f).frame? = some f := rfl
@[simp] theorem frame?_threw (s : S) : (threw s : Outcome S F).frame? = none := rfl

@[simp] theorem state_map (g : S → T) (o : Outcome S F) : (o.map g).state = g o.state := by
  cases o <;> rfl

@[simp] theorem frame?_map (g : S → T) (o : Outcome S F) : (o.map g).frame? = o.frame? := by
  cases o <;> rfl

end Outcome

/-- A component with operations `O` that may call back, leaving frames `F` on the stack. -/
structure Reentrant (S O F : Type*) where
  /-- What an operation does up to the point where control leaves the component. -/
  call : S → O → Outcome S F
  /-- What the component does when the callback of a frame returns. -/
  resume : S → F → Outcome S F
  /-- What the component does when the callback of a frame throws. -/
  unwind : S → F → S

namespace Reentrant

variable {S O F : Type*} (R : Reentrant S O F)

/-- What happens at an operation boundary. -/
inductive Label (O F : Type*)
  /-- Operation `o` is called; `entered` is the callback it enters. -/
  | call (o : O) (entered : Option F)
  /-- The innermost callback returns; `entered` is the callback entered next. -/
  | ret (entered : Option F)
  /-- The innermost callback throws. -/
  | throw

/-- The callback entered by a step. -/
def Label.entered : Label O F → Option F
  | .call _ e => e
  | .ret e => e
  | .throw => none

/-- One step between two operation boundaries. -/
inductive Step : S × List F → Label O F → S × List F → Prop
  | call (s : S) (fs : List F) (o : O) :
      Step (s, fs) (.call o (R.call s o).frame?)
        ((R.call s o).state, (R.call s o).frame?.toList ++ fs)
  | ret (s : S) (f : F) (fs : List F) :
      Step (s, f :: fs) (.ret (R.resume s f).frame?)
        ((R.resume s f).state, (R.resume s f).frame?.toList ++ fs)
  | throw (s : S) (f : F) (fs : List F) : Step (s, f :: fs) .throw (R.unwind s f, fs)

/-- The component with arbitrary code around it; `G s o` says whether operation `o` may be
called in state `s`. -/
def lts (G : S → O → Prop) : LTS (S × List F) (Label O F) where
  step c l d := R.Step c l d ∧ ∀ o e, l = .call o e → G c.1 o

variable {R} {G : S → O → Prop}

theorem lts_call {s : S} {k : List F} {o : O} (h : G s o) :
    (R.lts G).step (s, k) (.call o (R.call s o).frame?)
      ((R.call s o).state, (R.call s o).frame?.toList ++ k) :=
  ⟨.call s k o, by rintro o' e he; cases he; exact h⟩

theorem lts_call_of_frame?_eq_none {s : S} {k : List F} {o : O} (h : G s o)
    (hframe : (R.call s o).frame? = none) :
    (R.lts G).step (s, k) (.call o none) ((R.call s o).state, k) := by
  have hcall := lts_call (R := R) (k := k) h
  rw [hframe] at hcall
  exact hcall

theorem lts_ret {s : S} {f : F} {k : List F} :
    (R.lts G).step (s, f :: k) (.ret (R.resume s f).frame?)
      ((R.resume s f).state, (R.resume s f).frame?.toList ++ k) :=
  ⟨.ret s f k, by rintro o e ⟨⟩⟩

theorem lts_throw {s : S} {f : F} {k : List F} :
    (R.lts G).step (s, f :: k) .throw (R.unwind s f, k) :=
  ⟨.throw s f k, by rintro o e ⟨⟩⟩

/-- **Re-entrancy rule.**  A predicate on the state of the component that every allowed
operation, every return into the component and every exception passing through it keeps, holds
at every operation boundary of every run. -/
theorem invariant {I : S → Prop} {c d : S × List F} (h : (R.lts G).Reachable c d) (h₀ : I c.1)
    (hcall : ∀ s o, G s o → I s → I (R.call s o).state)
    (hresume : ∀ s f, I s → I (R.resume s f).state) (hunwind : ∀ s f, I s → I (R.unwind s f)) :
    I d.1 := by
  refine h.invariant (I := fun c => I c.1) h₀ ?_
  rintro _ _ _ hI ⟨hst, hG⟩
  cases hst with
  | call s fs o => exact hcall s o (hG _ _ rfl) hI
  | ret s f fs => exact hresume s f hI
  | throw s f fs => exact hunwind s f hI

/-! ### Sequences of calls -/

variable (R)

/-- The operations `os` are called one after the other, each where the last one left off: inside
the callback it entered, if it entered one. -/
def after (c : S × List F) : List O → S × List F
  | [] => c
  | o :: os => after ((R.call c.1 o).state, (R.call c.1 o).frame?.toList ++ c.2) os

/-- Each of the operations may be called when its turn comes. -/
def Allowed (G : S → O → Prop) (c : S × List F) : List O → Prop
  | [] => True
  | o :: os => G c.1 o ∧ Allowed G ((R.call c.1 o).state, (R.call c.1 o).frame?.toList ++ c.2) os

instance decidableAllowed [∀ s o, Decidable (G s o)] :
    (c : S × List F) → (os : List O) → Decidable (R.Allowed G c os)
  | _, [] => isTrue trivial
  | c, o :: os =>
    have := decidableAllowed ((R.call c.1 o).state, (R.call c.1 o).frame?.toList ++ c.2) os
    inferInstanceAs (Decidable (_ ∧ _))

/-- The labels of these calls. -/
def labels (c : S × List F) : List O → List (Label O F)
  | [] => []
  | o :: os => .call o (R.call c.1 o).frame? ::
      labels ((R.call c.1 o).state, (R.call c.1 o).frame?.toList ++ c.2) os

variable {R}

theorem run_after {c : S × List F} (os : List O) (h : R.Allowed G c os) :
    (R.lts G).Run c (R.labels c os) (R.after c os) := by
  induction os generalizing c with
  | nil => exact .nil c
  | cons o os ih => exact .cons (lts_call h.1) (ih h.2)

theorem reachable_after {c : S × List F} {os : List O} (h : R.Allowed G c os) :
    (R.lts G).Reachable c (R.after c os) :=
  ⟨_, run_after os h⟩

theorem throw_notMem_labels {c : S × List F} {os : List O} : .throw ∉ R.labels c os := by
  induction os generalizing c with
  | nil => exact List.not_mem_nil
  | cons o os ih =>
    intro h
    rcases List.mem_cons.1 h with h | h
    · cases h
    · exact ih h

theorem mem_of_mem_labels {c : S × List F} {os : List O} {o : O} {x : Option F}
    (h : .call o x ∈ R.labels c os) : o ∈ os := by
  induction os generalizing c with
  | nil => cases h
  | cons o' os ih =>
    rcases List.mem_cons.1 h with h | h
    · cases h
      exact List.mem_cons_self
    · exact List.mem_cons_of_mem _ (ih h)

/-! ### Given callbacks -/

variable (R)

/-- Where control is after an outcome: a callback that was entered is put on the stack with the
operations it performs; an exception nobody catches unwinds the whole stack. -/
def land (body : F → List O) (gs : List (F × List O)) : Outcome S F → S × List (F × List O)
  | .returned s => (s, gs)
  | .entered s f => (s, (f, body f) :: gs)
  | .threw s => (gs.foldl (fun s g => R.unwind s g.1) s, [])

/-- The next step of the innermost callback, where the callback of a frame `f` performs the
operations `body f` in order and then returns.  A stack entry holds the frame and the operations
still to be performed. -/
def next (body : F → List O) : S × List (F × List O) → Option (S × List (F × List O))
  | (_, []) => none
  | (s, (f, []) :: gs) => some (R.land body gs (R.resume s f))
  | (s, (f, o :: os) :: gs) => some (R.land body ((f, os) :: gs) (R.call s o))

/-- One step with given callbacks: at top level (empty stack) an operation `o` is called (label
`some o`); otherwise the innermost callback goes on (label `none`). -/
def progNext (body : F → List O) (c : S × List (F × List O)) :
    Option O → Option (S × List (F × List O))
  | some o => if c.2.isEmpty then some (R.land body [] (R.call c.1 o)) else none
  | none => R.next body c

/-- The operation that a step calls, if it calls one. -/
def calls (c : S × List (F × List O)) : Option O → Option O
  | some o => some o
  | none => match c.2 with
    | (_, o :: _) :: _ => some o
    | _ => none

/-- The component with given callbacks; `G c l` says whether the step `l` may be taken. -/
def progLts (body : F → List O) (G : S × List (F × List O) → Option O → Prop) :
    LTS (S × List (F × List O)) (Option O) where
  step c l d := G c l ∧ R.progNext body c l = some d

/-- The steps `ls` are taken one after the other, as long as they may be. -/
def progAfter (body : F → List O) (G : S × List (F × List O) → Option O → Prop)
    [∀ c l, Decidable (G c l)] (c : S × List (F × List O)) :
    List (Option O) → Option (S × List (F × List O))
  | [] => some c
  | l :: ls => if G c l then (R.progNext body c l).bind fun d => progAfter body G d ls else none

theorem run_of_progAfter {body : F → List O} {G : S × List (F × List O) → Option O → Prop}
    [∀ c l, Decidable (G c l)] {c d : S × List (F × List O)} {ls : List (Option O)}
    (h : R.progAfter body G c ls = some d) : (R.progLts body G).Run c ls d := by
  induction ls generalizing c with
  | nil =>
    obtain rfl := Option.some.inj h
    exact .nil c
  | cons l ls ih =>
    simp only [progAfter, Option.ite_none_right_eq_some, Option.bind_eq_some_iff] at h
    obtain ⟨hG, e, he, h⟩ := h
    exact .cons ⟨hG, he⟩ (ih h)

variable {R} {body : F → List O}

/-- The operation `o`, called in state `s`, returns in state `t`, whatever is below on the stack. -/
def ReturnsTo (R : Reentrant S O F) (body : F → List O) (s : S) (o : O) (t : S) : Prop :=
  ∀ gs, Relation.ReflTransGen (fun c d => R.next body c = some d)
    (R.land body gs (R.call s o)) (t, gs)

/-- The operation `o`, called at top level in state `s`, returns: only finitely many steps are
taken before the stack is empty again. -/
def Returns (R : Reentrant S O F) (body : F → List O) (s : S) (o : O) : Prop :=
  ∃ t, Relation.ReflTransGen (fun c d => R.next body c = some d)
    (R.land body [] (R.call s o)) (t, [])

/-- There is only one way on, so that no step can be put off for ever if the stack gets empty. -/
theorem acc_next {c : S × List (F × List O)} {t : S}
    (h : Relation.ReflTransGen (fun c d => R.next body c = some d) c (t, [])) :
    Acc (fun d c => R.next body c = some d) c := by
  induction h using Relation.ReflTransGen.head_induction_on with
  | refl => exact ⟨_, fun d hd => by cases hd⟩
  | head hst _ ih =>
    refine ⟨_, fun d hd => ?_⟩
    obtain rfl := Option.some.inj (hst.symm.trans hd)
    exact ih

end Reentrant

end EFS
