import Aitp.Foundation.Result
import Mathlib.Control.Monad.Writer

/-! # Computations with a trace

A computation that may fail, together with the trace of what it did on the way to its result.
-/

namespace Aitp

/-- A computation with a trace. -/
def Traced (τ ε α : Type) : Type :=
  WriterT (List τ) (Except ε) α

namespace Traced

variable {τ ε ε' α β : Type}

instance : Monad (Traced τ ε) :=
  inferInstanceAs (Monad (WriterT (List τ) (Except ε)))

/-- The result and the trace. -/
def run (x : Traced τ ε α) : Except ε (α × List τ) :=
  WriterT.run x

/-- A computation that does nothing worth a trace. -/
def lift (x : Except ε α) : Traced τ ε α :=
  WriterT.mk (x.map (·, []))

/-- One thing that is done. -/
def tell (event : τ) : Traced τ ε Unit :=
  WriterT.mk (.ok ((), [event]))

def mapErr (f : ε → ε') (x : Traced τ ε α) : Traced τ ε' α :=
  WriterT.mk (Aitp.mapErr f x.run)

/-- What is decided, without the trace. -/
def decision (x : Traced τ ε α) : Except ε α :=
  x.run.map Prod.fst

variable {x : Traced τ ε α} {f : α → Traced τ ε β} {a : α} {b : β} {t : List τ}

theorem run_bind (x : Traced τ ε α) (f : α → Traced τ ε β) :
    (x >>= f).run = x.run >>= fun p => (f p.1).run.map fun q => (q.1, p.2 ++ q.2) :=
  rfl

/-! ## Decisions -/

@[simp] theorem decision_pure (a : α) : (pure a : Traced τ ε α).decision = pure a :=
  rfl

@[simp] theorem decision_lift (y : Except ε α) : (lift y : Traced τ ε α).decision = y := by
  cases y <;> rfl

@[simp] theorem decision_tell (event : τ) : (tell event : Traced τ ε Unit).decision = pure () :=
  rfl

@[simp] theorem decision_mapErr (g : ε → ε') (x : Traced τ ε α) :
    (mapErr g x).decision = Aitp.mapErr g x.decision := by
  show (Aitp.mapErr g x.run).map Prod.fst = Aitp.mapErr g (x.run.map Prod.fst)
  cases x.run <;> rfl

@[simp] theorem decision_bind (x : Traced τ ε α) (f : α → Traced τ ε β) :
    (x >>= f).decision = x.decision >>= fun a => (f a).decision := by
  unfold decision
  rw [run_bind]
  cases x.run with
  | error e => rfl
  | ok p =>
    show ((f p.1).run.map fun q => (q.1, p.2 ++ q.2)).map Prod.fst = (f p.1).run.map Prod.fst
    cases (f p.1).run <;> rfl

theorem exists_trace (h : x.decision = .ok a) : ∃ t, x.run = .ok (a, t) := by
  unfold decision at h
  cases hx : x.run with
  | error e => simp [hx, Except.map] at h
  | ok p =>
    obtain rfl : p.1 = a := by simpa [hx, Except.map] using h
    exact ⟨p.2, rfl⟩

theorem decision_of_run (h : x.run = .ok (a, t)) : x.decision = .ok a := by
  unfold decision
  rw [h]
  rfl

/-! ## Traces -/

@[simp] theorem run_pure_eq_ok {a' : α} :
    (pure a : Traced τ ε α).run = .ok (a', t) ↔ a = a' ∧ t = [] := by
  show Except.ok (a, []) = Except.ok (a', t) ↔ _
  simp [eq_comm]

@[simp] theorem run_lift_eq_ok {y : Except ε α} :
    (lift y : Traced τ ε α).run = .ok (a, t) ↔ y = .ok a ∧ t = [] := by
  cases y with
  | error e => exact ⟨nofun, nofun⟩
  | ok a' =>
    show Except.ok (a', []) = Except.ok (a, t) ↔ _
    simp [eq_comm]

@[simp] theorem run_tell_eq_ok {event : τ} {u : Unit} :
    (tell event : Traced τ ε Unit).run = .ok (u, t) ↔ t = [event] := by
  show Except.ok ((), [event]) = Except.ok (u, t) ↔ _
  simp [eq_comm]

@[simp] theorem run_mapErr_eq_ok {g : ε → ε'} {x : Traced τ ε α} :
    (mapErr g x).run = .ok (a, t) ↔ x.run = .ok (a, t) :=
  mapErr_eq_ok

theorem run_bind_eq_ok : (x >>= f).run = .ok (b, t) ↔
    ∃ a t₁ t₂, x.run = .ok (a, t₁) ∧ (f a).run = .ok (b, t₂) ∧ t = t₁ ++ t₂ := by
  rw [run_bind]
  simp only [bind_eq_ok, Prod.exists]
  refine exists₂_congr fun a t₁ => ?_
  constructor
  · rintro ⟨hx, hf⟩
    cases hr : (f a).run with
    | error e => simp [hr, Except.map] at hf
    | ok q =>
      obtain ⟨rfl, rfl⟩ : q.1 = b ∧ t₁ ++ q.2 = t := by simpa [hr, Except.map] using hf
      exact ⟨q.2, hx, rfl, rfl⟩
  · rintro ⟨t₂, hx, hf, rfl⟩
    refine ⟨hx, ?_⟩
    rw [hf]
    rfl

end Traced

end Aitp
