import Mathlib.Logic.Relation
import Mathlib.Tactic.SplitIfs

/-! # Transition systems

States reached from an initial one by labelled steps, and runs between two
states. A system simulates another when each step of it is a run of the other. A
guard keeps the steps that satisfy a condition on the state before them.
-/

namespace Transition

/-- Initial states, and steps labelled by events. -/
structure System (σ ε : Type*) where
  init : σ → Prop
  step : σ → ε → σ → Prop

namespace System

variable {σ ε : Type*} {S : System σ ε} {s s' : σ}

/-- Some run from an initial state ends here. -/
inductive Reachable (S : System σ ε) : σ → Prop
  | init {s : σ} : S.init s → Reachable S s
  | step {s : σ} {e : ε} {s' : σ} : Reachable S s → S.step s e s' → Reachable S s'

theorem Reachable.invariant {I : σ → Prop} (hi : ∀ s, S.init s → I s)
    (hs : ∀ s e s', I s → S.step s e s' → I s') (h : S.Reachable s) : I s := by
  induction h with
  | init h => exact hi _ h
  | step _ h ih => exact hs _ _ _ ih h

/-- Some steps lead from one state to the other. -/
def Run (S : System σ ε) : σ → σ → Prop :=
  Relation.ReflTransGen fun s s' => ∃ e, S.step s e s'

theorem Run.single {e : ε} (h : S.step s e s') : S.Run s s' :=
  Relation.ReflTransGen.single ⟨e, h⟩

theorem Reachable.run (h : S.Reachable s) (hr : S.Run s s') : S.Reachable s' := by
  induction hr with
  | refl => exact h
  | tail _ he ih =>
    obtain ⟨e, he⟩ := he
    exact ih.step he

theorem Reachable.simulate {τ δ : Type*} {A : System τ δ} {abs : σ → τ}
    (hi : ∀ s, S.init s → A.init (abs s))
    (hs : ∀ s e s', S.step s e s' → A.Run (abs s) (abs s'))
    (h : S.Reachable s) : A.Reachable (abs s) := by
  induction h with
  | init h => exact .init (hi _ h)
  | step _ h ih => exact ih.run (hs _ _ _ h)

/-- The steps taken where the guard holds. -/
def restrict (S : System σ ε) (guard : σ → ε → Prop) : System σ ε where
  init := S.init
  step s e s' := guard s e ∧ S.step s e s'

theorem Reachable.of_restrict {guard : σ → ε → Prop} (h : (S.restrict guard).Reachable s) :
    S.Reachable s := by
  induction h with
  | init h => exact .init h
  | step _ h ih => exact ih.step h.2

/-- The system of a partial function. -/
def ofNext (init : σ) (next : σ → ε → Option σ) : System σ ε where
  init s := s = init
  step s e s' := next s e = some s'

/-- The state after some events. -/
def runNext (next : σ → ε → Option σ) : σ → List ε → Option σ
  | s, [] => some s
  | s, e :: es => (next s e).bind fun s' => runNext next s' es

theorem reachable_of_runNext {init : σ} {next : σ → ε → Option σ} {es : List ε}
    (hs : (ofNext init next).Reachable s) (hr : runNext next s es = some s') :
    (ofNext init next).Reachable s' := by
  induction es generalizing s with
  | nil =>
    obtain rfl := Option.some.inj hr
    exact hs
  | cons e es ih =>
    obtain ⟨t, ht, hr⟩ := Option.bind_eq_some_iff.mp hr
    exact ih (hs.step ht) hr

theorem reachable_restrict_of_runNext {init : σ} {next : σ → ε → Option σ}
    {guard : σ → ε → Prop} [∀ s e, Decidable (guard s e)] {es : List ε}
    (hs : ((ofNext init next).restrict guard).Reachable s)
    (hr : runNext (fun s e => if guard s e then next s e else none) s es = some s') :
    ((ofNext init next).restrict guard).Reachable s' := by
  induction es generalizing s with
  | nil =>
    obtain rfl := Option.some.inj hr
    exact hs
  | cons e es ih =>
    obtain ⟨t, ht, hr⟩ := Option.bind_eq_some_iff.mp hr
    simp only at ht
    split_ifs at ht with hg
    exact ih (hs.step ⟨hg, ht⟩) hr

end System

end Transition
