import Mathlib.Logic.Basic

/-!
# Methods that may throw

A method changes its object statement by statement.  An exception leaves the object as the
statements before it have made it, so a method that throws has changed nothing only if it throws
before its first change.

* `Method.call` : the result of a call, and the object after it.
* `Method.Observes`, `Method.Completes` : a statement that changes nothing; one that never throws.
* `Method.Atomic` : whenever the method throws, the object is unchanged.  The rules follow the
  statements: first those that only look (`Atomic.after_check`), then those that never throw
  (`Atomic.of_completes`).
* `Method.Keeps` : a call leaves a part of the object alone, whether it throws or not.
* `Method.Triple` : from a state with the precondition the method returns, and the result and the
  state that it leaves satisfy the postcondition.
-/

namespace EFS

/-- A method of the objects `σ`: what it has changed before an exception stays changed. -/
abbrev Method (σ α : Type) := ExceptT String (StateM σ) α

namespace Method

variable {σ α β : Type}

/-- The result of a call, and the object after it. -/
def call (m : Method σ α) (s : σ) : Except String α × σ := (ExceptT.run m).run s

/-- `if (p) throw e;` -/
def throwIf (p : σ → Bool) (e : String) : Method σ Unit := do
  if p (← get) then throw e

/-- A value, or the exception that its computation throws. -/
def ofExcept : Except String α → Method σ α
  | .ok a => pure a
  | .error e => throw e

section

variable (x : Method σ α) (f : α → Method σ β) (a : α) (e : String) (g : σ → σ) (h : σ → α)
  (p : σ → Bool) (s : σ)

@[simp] theorem call_pure : (pure a : Method σ α).call s = (.ok a, s) := rfl

@[simp] theorem call_throw : (throw e : Method σ α).call s = (.error e, s) := rfl

@[simp] theorem call_modify : (modify g : Method σ PUnit).call s = (.ok ⟨⟩, g s) := rfl

@[simp] theorem call_get : (get : Method σ σ).call s = (.ok s, s) := rfl

@[simp] theorem call_bind : (x >>= f).call s =
    match x.call s with
    | (.ok a, s') => (f a).call s'
    | (.error e, s') => (.error e, s') := by
  simp only [call, ExceptT.run_bind, StateT.run_bind]
  cases hx : (ExceptT.run x).run s with
  | mk r s' => cases r <;> rfl

@[simp] theorem call_map (k : α → β) :
    (k <$> x).call s = ((x.call s).1.map k, (x.call s).2) := by
  rw [← bind_pure_comp, call_bind]
  rcases x.call s with ⟨_ | a, s'⟩ <;> rfl

theorem call_bind_ok {s' : σ} (hx : x.call s = (.ok a, s')) : (x >>= f).call s = (f a).call s' := by
  rw [call_bind, hx]

theorem call_bind_error {s' : σ} (hx : x.call s = (.error e, s')) :
    (x >>= f).call s = (.error e, s') := by
  rw [call_bind, hx]

@[simp] theorem call_throwIf :
    (throwIf p e).call s = (if p s then .error e else .ok ⟨⟩, s) := by
  rw [throwIf, call_bind_ok _ _ _ _ (call_get s)]
  cases p s <;> rfl

end

/-- The method leaves the state as it is, whatever it returns. -/
def Observes (m : Method σ α) : Prop := ∀ s, (m.call s).2 = s

/-- The method never throws. -/
def Completes (m : Method σ α) : Prop := ∀ s, ∃ a s', m.call s = (.ok a, s')

/-- An exception leaves the object unchanged. -/
def Atomic (m : Method σ α) : Prop := ∀ s e s', m.call s = (.error e, s') → s' = s

variable {x : Method σ α} {f : α → Method σ β} {p : σ → Bool} {e : String}

theorem observes_throwIf : (throwIf p e).Observes := fun s => by rw [call_throwIf]

namespace Atomic

theorem of_completes (hx : x.Completes) : x.Atomic := by
  intro s e s' h
  obtain ⟨a, t, ht⟩ := hx s
  cases ht.symm.trans h

theorem of_observes (hx : x.Observes) : x.Atomic := by
  intro s e s' h
  rw [← hx s, h]

/-- A check before the rest of the method. -/
theorem after_check (hx : x.Observes) (hf : ∀ a, (f a).Atomic) : (x >>= f).Atomic := by
  intro s e s' h
  have hs := hx s
  cases hcall : x.call s with
  | mk r t =>
    rw [hcall] at hs
    obtain rfl : t = s := hs
    cases r with
    | error e' =>
      rw [call_bind_error x f e' t hcall] at h
      exact (congrArg Prod.snd h).symm
    | ok a =>
      rw [call_bind_ok x f a t hcall] at h
      exact hf a t e s' h

end Atomic

/-- A call leaves this part of the object alone. -/
def Keeps (part : σ → β) (m : Method σ α) : Prop := ∀ s, part (m.call s).2 = part s

namespace Keeps

variable {γ : Type} {part : σ → γ}

theorem pure (a : α) : Keeps part (Pure.pure a : Method σ α) := fun _ => rfl

theorem throw (e : String) : Keeps part (MonadExcept.throw e : Method σ α) := fun _ => rfl

theorem modifying {g : σ → σ} (h : ∀ s, part (g s) = part s) :
    Keeps part (modify g : Method σ PUnit) :=
  h

theorem ofExcept (r : Except String α) : Keeps part (Method.ofExcept r : Method σ α) := by
  cases r with
  | ok a => exact pure a
  | error e => exact throw e

theorem bind (hx : Keeps part x) (hf : ∀ a, Keeps part (f a)) : Keeps part (x >>= f) := by
  intro s
  rw [call_bind]
  have hs := hx s
  cases hcall : x.call s with
  | mk r s' =>
    rw [hcall] at hs
    cases r with
    | ok a => exact (hf a s').trans hs
    | error e => exact hs

theorem get_bind {k : σ → Method σ β} (h : ∀ s, Keeps part (k s)) : Keeps part (get >>= k) :=
  bind (fun _ => rfl) h

theorem ite {c : Prop} [Decidable c] {y : Method σ α} (hx : Keeps part x) (hy : Keeps part y) :
    Keeps part (if c then x else y) := by
  split
  · exact hx
  · exact hy

theorem forM {l : List α} {k : α → Method σ PUnit} (h : ∀ a, Keeps part (k a)) :
    Keeps part (l.forM k) := by
  induction l with
  | nil => exact pure _
  | cons a l ih => exact bind (h a) fun _ => ih

end Keeps

/-- From a state with `P` the method returns, with `Q` for its result and the state. -/
def Triple (P : σ → Prop) (m : Method σ α) (Q : α → σ → Prop) : Prop :=
  ∀ s, P s → ∃ a s', m.call s = (.ok a, s') ∧ Q a s'

namespace Triple

variable {P P' : σ → Prop} {Q Q' : α → σ → Prop} {R : β → σ → Prop}

theorem pure {a : α} (h : ∀ s, P s → Q a s) : Triple P (Pure.pure a) Q :=
  fun s hs => ⟨a, s, rfl, h s hs⟩

theorem modifying {g : σ → σ} {Q : PUnit → σ → Prop} (h : ∀ s, P s → Q ⟨⟩ (g s)) :
    Triple P (modify g) Q :=
  fun s hs => ⟨⟨⟩, g s, rfl, h s hs⟩

theorem bind (hx : Triple P x Q) (hf : ∀ a, Triple (Q a) (f a) R) : Triple P (x >>= f) R := by
  intro s hs
  obtain ⟨a, s', hcall, hq⟩ := hx s hs
  obtain ⟨b, t, hcall', hr⟩ := hf a s' hq
  exact ⟨b, t, (call_bind_ok x f a s hcall).trans hcall', hr⟩

theorem conseq (h : Triple P x Q) (hp : ∀ s, P' s → P s) (hq : ∀ a s, Q a s → Q' a s) :
    Triple P' x Q' := by
  intro s hs
  obtain ⟨a, s', hcall, hpost⟩ := h s (hp s hs)
  exact ⟨a, s', hcall, hq a s' hpost⟩

theorem of_fact {φ : Prop} (h : φ → Triple P x Q) : Triple (fun s => φ ∧ P s) x Q :=
  fun s hs => h hs.1 s hs.2

theorem throwIf (h : ∀ s, P s → p s = false) : Triple P (Method.throwIf p e) fun _ s => P s := by
  intro s hs
  refine ⟨⟨⟩, s, ?_, hs⟩
  rw [call_throwIf, h s hs]
  rfl

theorem get_bind {k : σ → Method σ β} (h : ∀ s, P s → Triple (· = s) (k s) R) :
    Triple P (get >>= k) R := by
  intro s hs
  obtain ⟨b, t, hcall, hr⟩ := h s hs s rfl
  exact ⟨b, t, (call_bind_ok get k s s rfl).trans hcall, hr⟩

end Triple

end Method

end EFS
