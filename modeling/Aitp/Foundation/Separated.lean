import Mathlib.Data.List.Basic

/-! # Separated fields

Fields written one after the other, a separator after each of them, and a last part that may
hold anything. As long as no field holds the separator, the fields and the last part can be told
from the text; two texts with first fields that differ are different, whatever follows.
-/

namespace Separated

variable {α : Type*} {sep : α}

/-- The fields, each followed by the separator, and the last part. -/
def join (sep : α) : List (List α) → List α → List α
  | [], last => last
  | f :: fs, last => f ++ sep :: join sep fs last

@[simp] theorem join_nil (last : List α) : join sep [] last = last := rfl

@[simp] theorem join_cons (f : List α) (fs : List (List α)) (last : List α) :
    join sep (f :: fs) last = f ++ sep :: join sep fs last := rfl

theorem field_inj {x y rest rest' : List α} (hx : sep ∉ x) (hy : sep ∉ y)
    (h : x ++ sep :: rest = y ++ sep :: rest') : x = y ∧ rest = rest' := by
  induction x generalizing y with
  | nil =>
    cases y with
    | nil => simpa using h
    | cons b y =>
      obtain ⟨rfl, -⟩ := List.cons.inj h
      exact absurd List.mem_cons_self hy
  | cons a x ih =>
    cases y with
    | nil =>
      obtain ⟨rfl, -⟩ := List.cons.inj h
      exact absurd List.mem_cons_self hx
    | cons b y =>
      obtain ⟨rfl, ht⟩ := List.cons.inj h
      obtain ⟨rfl, hr⟩ := ih (fun hm => hx (List.mem_cons_of_mem _ hm))
        (fun hm => hy (List.mem_cons_of_mem _ hm)) ht
      exact ⟨rfl, hr⟩

theorem join_inj {fs gs : List (List α)} {last last' : List α} (hl : fs.length = gs.length)
    (hf : ∀ f ∈ fs, sep ∉ f) (hg : ∀ g ∈ gs, sep ∉ g)
    (h : join sep fs last = join sep gs last') : fs = gs ∧ last = last' := by
  induction fs generalizing gs with
  | nil =>
    obtain rfl := List.length_eq_zero_iff.mp hl.symm
    exact ⟨rfl, h⟩
  | cons f fs ih =>
    cases gs with
    | nil => simp at hl
    | cons g gs =>
      rw [List.forall_mem_cons] at hf hg
      obtain ⟨rfl, hr⟩ := field_inj hf.1 hg.1 h
      obtain ⟨rfl, rfl⟩ := ih (Nat.succ.inj hl) hf.2 hg.2 hr
      exact ⟨rfl, rfl⟩

theorem head_eq {f g : List α} {fs gs : List (List α)} {last last' : List α} (hf : sep ∉ f)
    (hg : sep ∉ g) (h : join sep (f :: fs) last = join sep (g :: gs) last') : f = g :=
  (field_inj hf hg h).1

end Separated
