import Mathlib.Tactic.Common

/-! # Machines that refuse calls

A machine takes one call after another, and may refuse a call with an error. A
refusal is terminal if it leaves the machine dead, where every later call is
refused as too late.
-/

namespace Aitp

/-- What a call leaves of the state, and the error it returns if it is refused. -/
structure Machine (σ ι ε : Type) where
  next : σ → ι → σ
  error : σ → ι → Option ε

namespace Machine

variable {σ ι ε : Type} (m : Machine σ ι ε)

def run (s : σ) (calls : List ι) : σ :=
  calls.foldl m.next s

/-- Every call of a run that is refused while the machine waits leaves it dead, and whatever is
called after it is refused as too late. -/
def FailureTerminal (waiting : σ → Prop) (dead : σ) (late : ι → ε) (s₀ : σ)
    (calls : List ι) : Prop :=
  ∀ before c after, calls = before ++ c :: after → waiting (m.run s₀ before) →
    (m.error (m.run s₀ before) c).isSome →
    m.run s₀ (before ++ [c]) = dead ∧
      ∀ more c', m.error (m.run s₀ (before ++ c :: more)) c' = some (late c')

variable {m} {waiting : σ → Prop} {dead : σ} {late : ι → ε} {closed : σ → ι → Prop}

theorem run_append (s : σ) (before after : List ι) :
    m.run s (before ++ after) = m.run (m.run s before) after :=
  List.foldl_append

theorem run_of_dead (hdead : ∀ c, m.next dead c = dead) (calls : List ι) :
    m.run dead calls = dead := by
  induction calls with
  | nil => rfl
  | cons c calls ih =>
    change m.run (m.next dead c) calls = dead
    rw [hdead c]
    exact ih

/-- Earlier and later states of a run are related exactly when each call's are, if the relation is
reflexive and transitive. -/
theorem related_iff {R : σ → σ → Prop} (hrefl : ∀ s, R s s)
    (htrans : ∀ s t u, R s t → R t u → R s u) (s₀ : σ) (calls : List ι) :
    (∀ before middle after, calls = before ++ middle ++ after →
        R (m.run s₀ before) (m.run s₀ (before ++ middle))) ↔
      ∀ before c after, calls = before ++ c :: after →
        R (m.run s₀ before) (m.next (m.run s₀ before) c) := by
  constructor
  · intro h before c after hcalls
    have hc := h before [c] after (by rw [hcalls, List.append_assoc, List.singleton_append])
    rwa [run_append] at hc
  · intro h before middle after hcalls
    induction middle generalizing before with
    | nil =>
      rw [List.append_nil]
      exact hrefl _
    | cons c middle ih =>
      have hstep := h before c (middle ++ after) (by rw [hcalls, List.append_assoc]; rfl)
      have hrest := ih (before ++ [c]) (by simp [hcalls])
      rw [List.append_assoc, List.singleton_append] at hrest
      refine htrans _ _ _ hstep ?_
      rwa [run_append] at hrest

/-- Failure is terminal along a run exactly when every call of it meets the condition under which
one refused call leaves the machine dead. -/
theorem failureTerminal_iff (hdead : ∀ c, m.next dead c = dead ∧ m.error dead c = some (late c))
    (hclosed : ∀ s c, closed s c ↔ (waiting s → (m.error s c).isSome → m.next s c = dead))
    (s₀ : σ) (calls : List ι) : m.FailureTerminal waiting dead late s₀ calls ↔
      ∀ before c after, calls = before ++ c :: after → closed (m.run s₀ before) c := by
  constructor
  · intro h before c after hcalls
    apply (hclosed _ _).mpr
    intro hw he
    have hd := (h before c after hcalls hw he).1
    rwa [run_append] at hd
  · intro h before c after hcalls hw he
    have hd : m.next (m.run s₀ before) c = dead :=
      (hclosed _ _).mp (h before c after hcalls) hw he
    constructor
    · rw [run_append]
      exact hd
    · intro more c'
      rw [run_append]
      change m.error (m.run (m.next (m.run s₀ before) c) more) c' = _
      rw [hd, run_of_dead fun c => (hdead c).1]
      exact (hdead c').2

end Machine

end Aitp
