import Mathlib.Tactic.Common

/-! # Fallible steps

Rust's `?` over `Result`: a chain of checks succeeds exactly when each of them
does. `ensure` is a check, `okOr` turns a missing value into an error, and
`mapErr` relabels one.
-/

namespace Aitp

variable {α β ε ε' : Type}

/-- Fail with `e` unless the condition holds. -/
def ensure (c : Bool) (e : ε) : Except ε Unit :=
  if c then .ok () else .error e

def okOr (o : Option α) (e : ε) : Except ε α :=
  match o with
  | some a => .ok a
  | none => .error e

def mapErr (f : ε → ε') (r : Except ε α) : Except ε' α :=
  match r with
  | .ok a => .ok a
  | .error e => .error (f e)

@[simp] theorem ensure_eq_ok {c : Bool} {e : ε} {u : Unit} : ensure c e = .ok u ↔ c = true := by
  cases c <;> simp [ensure]

@[simp] theorem okOr_eq_ok {o : Option α} {e : ε} {a : α} : okOr o e = .ok a ↔ o = some a := by
  cases o <;> simp [okOr]

@[simp] theorem mapErr_eq_ok {f : ε → ε'} {r : Except ε α} {a : α} :
    mapErr f r = .ok a ↔ r = .ok a := by
  cases r <;> simp [mapErr]

@[simp] theorem toOption_eq_some {r : Except ε α} {a : α} : r.toOption = some a ↔ r = .ok a := by
  cases r <;> simp [Except.toOption]

@[simp] theorem bind_eq_ok {x : Except ε α} {f : α → Except ε β} {b : β} :
    (x >>= f) = .ok b ↔ ∃ a, x = .ok a ∧ f a = .ok b := by
  cases x <;> simp [bind, Except.bind]

@[simp] theorem throw_eq_ok {e : ε} {a : α} : (throw e : Except ε α) = .ok a ↔ False := by
  simp [throw, throwThe, MonadExceptOf.throw]

@[simp] theorem pure_eq_ok {a b : α} : (pure a : Except ε α) = .ok b ↔ a = b := by
  simp [pure, Except.pure]

/-- A check made only of a value that is there. -/
def ifPresent (o : Option α) (f : α → Except ε Unit) : Except ε Unit :=
  match o with
  | some a => f a
  | none => .ok ()

@[simp] theorem ifPresent_eq_ok {o : Option α} {f : α → Except ε Unit} {u : Unit} :
    ifPresent o f = .ok u ↔ ∀ a, o = some a → f a = .ok u := by
  cases o <;> simp [ifPresent]

@[simp] theorem ok_bind (a : α) (f : α → Except ε β) : (Except.ok a >>= f) = f a :=
  rfl

@[simp] theorem error_bind (e : ε) (f : α → Except ε β) : (Except.error e >>= f) = .error e :=
  rfl

@[simp] theorem okOr_some (a : α) (e : ε) : okOr (some a) e = .ok a :=
  rfl

@[simp] theorem okOr_none (e : ε) : okOr (none : Option α) e = .error e :=
  rfl

@[simp] theorem ifPresent_some (a : α) (f : α → Except ε Unit) : ifPresent (some a) f = f a :=
  rfl

@[simp] theorem ifPresent_none (f : α → Except ε Unit) : ifPresent none f = .ok () :=
  rfl

@[simp] theorem mapErr_ok (f : ε → ε') (a : α) : mapErr f (.ok a : Except ε α) = .ok a :=
  rfl

@[simp] theorem mapErr_error (f : ε → ε') (e : ε) :
    mapErr f (.error e : Except ε α) = .error (f e) :=
  rfl

/-- A check made of every item. -/
def forEach (l : List α) (f : α → Except ε Unit) : Except ε Unit :=
  match l with
  | [] => .ok ()
  | a :: l => do
    f a
    forEach l f

@[simp] theorem forEach_eq_ok {l : List α} {f : α → Except ε Unit} {u : Unit} :
    forEach l f = .ok u ↔ ∀ a ∈ l, f a = .ok u := by
  induction l with
  | nil => simp [forEach]
  | cons a l ih =>
    have hu : (∃ u' : Unit, f a = .ok u') ↔ f a = .ok u := ⟨fun ⟨_, h⟩ => h, fun h => ⟨u, h⟩⟩
    simp only [forEach, bind_eq_ok, ih, exists_and_right, hu, List.forall_mem_cons]

@[simp] theorem mapErr_bind {f : ε → ε'} (x : Except ε α) (g : α → Except ε β) :
    mapErr f (x >>= g) = mapErr f x >>= fun a => mapErr f (g a) := by
  cases x <;> rfl

@[simp] theorem mapErr_mapErr {δ : Type} {g : ε → ε'} {f : ε' → δ} (r : Except ε α) :
    mapErr f (mapErr g r) = mapErr (fun e => f (g e)) r := by
  cases r <;> rfl

@[simp] theorem mapErr_ensure (f : ε → ε') (c : Bool) (e : ε) :
    mapErr f (ensure c e) = ensure c (f e) := by
  cases c <;> rfl

@[simp] theorem mapErr_okOr (f : ε → ε') (o : Option α) (e : ε) :
    mapErr f (okOr o e) = okOr o (f e) := by
  cases o <;> rfl

@[simp] theorem mapErr_pure (f : ε → ε') (a : α) : mapErr f (pure a) = pure a :=
  rfl

@[simp] theorem mapErr_ifPresent (f : ε → ε') (o : Option α) (g : α → Except ε Unit) :
    mapErr f (ifPresent o g) = ifPresent o fun a => mapErr f (g a) := by
  cases o <;> rfl

@[simp] theorem mapErr_forEach (f : ε → ε') (l : List α) (g : α → Except ε Unit) :
    mapErr f (forEach l g) = forEach l fun a => mapErr f (g a) := by
  induction l with
  | nil => rfl
  | cons a l ih => simp only [forEach, mapErr_bind, ih]

theorem map_eq_bind (f : α → β) (r : Except ε α) : r.map f = r >>= fun a => .ok (f a) := by
  cases r <;> rfl

/-! ## What a chain of checks can report -/

/-- Every error is among those in `p`. -/
def FailsIn (p : ε → Prop) (x : Except ε α) : Prop :=
  ∀ e, x = .error e → p e

namespace FailsIn

variable {p : ε → Prop}

theorem bind {x : Except ε α} {f : α → Except ε β} (hx : FailsIn p x)
    (hf : ∀ a, x = .ok a → FailsIn p (f a)) : FailsIn p (x >>= f) := by
  cases x with
  | error e => exact fun e' h => hx e' (by simpa [Bind.bind, Except.bind] using h)
  | ok a => exact hf a rfl

theorem ok (a : α) : FailsIn p (.ok a) :=
  fun _ h => nomatch h

theorem pure (a : α) : FailsIn p (Pure.pure a) :=
  ok a

theorem ensure {c : Bool} {e : ε} (he : p e) : FailsIn p (ensure c e) := by
  cases c with
  | true => exact ok ()
  | false => exact fun e' h => by cases h; exact he

theorem okOr {o : Option α} {e : ε} (he : p e) : FailsIn p (okOr o e) := by
  cases o with
  | some a => exact ok a
  | none => exact fun e' h => by cases h; exact he

theorem mapErr {f : ε' → ε} {x : Except ε' α} (hf : ∀ e, p (f e)) : FailsIn p (mapErr f x) := by
  cases x with
  | ok a => exact ok a
  | error e => exact fun e' h => by cases h; exact hf e

theorem mapErr_of {q : ε' → Prop} {f : ε' → ε} {x : Except ε' α} (hx : FailsIn q x)
    (hf : ∀ e, q e → p (f e)) : FailsIn p (Aitp.mapErr f x) := by
  cases x with
  | ok a => exact ok a
  | error e =>
    rintro _ ⟨⟩
    exact hf e (hx e rfl)

theorem ifPresent {o : Option α} {f : α → Except ε Unit} (hf : ∀ a, o = some a → FailsIn p (f a)) :
    FailsIn p (ifPresent o f) := by
  cases o with
  | none => exact ok ()
  | some a => exact hf a rfl

theorem forEach {l : List α} {f : α → Except ε Unit} (hf : ∀ a ∈ l, FailsIn p (f a)) :
    FailsIn p (forEach l f) := by
  induction l with
  | nil => exact ok ()
  | cons a l ih =>
    exact (hf a (by simp)).bind fun _ _ => ih fun b hb => hf b (List.mem_cons_of_mem _ hb)

end FailsIn

theorem exists_ok_of_isOk {r : Except ε α} (h : r.isOk = true) : ∃ a, r = .ok a := by
  cases r with
  | ok a => exact ⟨a, rfl⟩
  | error e => simp [Except.isOk, Except.toBool] at h

end Aitp
