import Aitp.Foundation.Transition
import Mathlib.Data.List.Nodup
import Mathlib.Logic.Function.Basic

/-! # Single-use tickets

Tickets are issued under keys, redeemed, or lapse. A key may be reused once it
is vacant. Whatever the order, no ticket is redeemed twice.
-/

namespace Tickets

open Transition

/-- The ticket under each key, the next serial number, and the tickets redeemed, newest first. -/
structure State (κ ρ : Type*) where
  held : κ → Option ρ
  next : ℕ
  redeemed : List ρ

inductive Action (κ ρ : Type*) where
  | issue (k : κ) (r : ρ)
  | redeem (k : κ) (r : ρ)
  | lapse (held : κ → Option ρ)

variable {κ : Type*} {ρ : Type*} [DecidableEq κ] (serial : ρ → ℕ)

/-- A ticket is issued under a vacant key and redeemed from its key; any others may lapse. -/
def tickets : System (State κ ρ) (Action κ ρ) where
  init s := s = ⟨fun _ => none, 0, []⟩
  step s a s' :=
    match a with
    | .issue k r => s.held k = none ∧ serial r = s.next ∧
        s' = ⟨Function.update s.held k (some r), s.next + 1, s.redeemed⟩
    | .redeem k r => s.held k = some r ∧
        s' = ⟨Function.update s.held k none, s.next, r :: s.redeemed⟩
    | .lapse held => (∀ k r, held k = some r → s.held k = some r) ∧ s' = { s with held := held }

/-- Serial numbers tell the tickets held apart, from each other and from those redeemed. -/
structure Numbered (s : State κ ρ) : Prop where
  injective : ∀ k k' r r', s.held k = some r → s.held k' = some r' → serial r = serial r' → k = k'
  held_lt : ∀ k r, s.held k = some r → serial r < s.next
  redeemed_lt : ∀ r ∈ s.redeemed, serial r < s.next
  disjoint : ∀ k r, s.held k = some r → serial r ∉ s.redeemed.map serial
  nodup : (s.redeemed.map serial).Nodup

variable {serial}

theorem Numbered.issue {s : State κ ρ} (h : Numbered serial s) {k : κ} {r : ρ}
    (hr : serial r = s.next) :
    Numbered serial ⟨Function.update s.held k (some r), s.next + 1, s.redeemed⟩ := by
  have hc : ∀ k' r', Function.update s.held k (some r) k' = some r' →
      (k' = k ∧ r' = r) ∨ s.held k' = some r' := by
    intro k' r' hk
    by_cases hkk : k' = k
    · subst hkk
      rw [Function.update_self] at hk
      exact .inl ⟨rfl, (Option.some.inj hk).symm⟩
    · rw [Function.update_of_ne hkk] at hk
      exact .inr hk
  constructor
  · intro k₁ k₂ r₁ r₂ h₁ h₂ he
    rcases hc _ _ h₁ with ⟨rfl, rfl⟩ | g₁ <;> rcases hc _ _ h₂ with ⟨rfl, rfl⟩ | g₂
    · rfl
    · have hl := h.held_lt _ _ g₂
      omega
    · have hl := h.held_lt _ _ g₁
      omega
    · exact h.injective _ _ _ _ g₁ g₂ he
  · intro k₁ r₁ h₁
    rcases hc _ _ h₁ with ⟨rfl, rfl⟩ | h₁
    · exact hr ▸ Nat.lt_succ_self _
    · exact Nat.lt_succ_of_lt (h.held_lt _ _ h₁)
  · exact fun r' hm => Nat.lt_succ_of_lt (h.redeemed_lt r' hm)
  · intro k₁ r₁ h₁
    rcases hc _ _ h₁ with ⟨rfl, rfl⟩ | h₁
    · intro hm
      obtain ⟨r', hm', he⟩ := List.mem_map.mp hm
      have hl := h.redeemed_lt r' hm'
      omega
    · exact h.disjoint _ _ h₁
  · exact h.nodup

omit [DecidableEq κ] in
theorem Numbered.lapse {s : State κ ρ} (h : Numbered serial s) {held : κ → Option ρ}
    (hk : ∀ k r, held k = some r → s.held k = some r) : Numbered serial { s with held := held } where
  injective := fun k k' r r' h₁ h₂ he => h.injective k k' r r' (hk _ _ h₁) (hk _ _ h₂) he
  held_lt := fun k r h₁ => h.held_lt k r (hk _ _ h₁)
  redeemed_lt := h.redeemed_lt
  disjoint := fun k r h₁ => h.disjoint k r (hk _ _ h₁)
  nodup := h.nodup

theorem Numbered.redeem {s : State κ ρ} (h : Numbered serial s) {k : κ} {r : ρ}
    (hr : s.held k = some r) :
    Numbered serial ⟨Function.update s.held k none, s.next, r :: s.redeemed⟩ := by
  have hc : ∀ k' r', Function.update s.held k none k' = some r' → k' ≠ k ∧ s.held k' = some r' := by
    intro k' r' hk
    by_cases hkk : k' = k
    · subst hkk
      simp at hk
    · rw [Function.update_of_ne hkk] at hk
      exact ⟨hkk, hk⟩
  have hl := h.lapse fun k' r' hk => (hc k' r' hk).2
  refine ⟨hl.injective, hl.held_lt, ?_, ?_, ?_⟩
  · rintro r' (- | ⟨-, hm⟩)
    · exact h.held_lt _ _ hr
    · exact h.redeemed_lt r' hm
  · intro k' r' hk
    obtain ⟨hne, hk⟩ := hc _ _ hk
    rw [List.map_cons, List.mem_cons, not_or]
    exact ⟨fun he => hne (h.injective _ _ _ _ hk hr he), h.disjoint _ _ hk⟩
  · rw [List.map_cons, List.nodup_cons]
    exact ⟨h.disjoint _ _ hr, h.nodup⟩

theorem numbered_of_reachable {s : State κ ρ} (h : (tickets serial).Reachable s) :
    Numbered serial s := by
  induction h with
  | init hi =>
    obtain rfl := hi
    exact ⟨nofun, nofun, nofun, nofun, .nil⟩
  | @step s a s' _ hs ih =>
    cases a with
    | issue k r =>
      obtain ⟨-, hr, rfl⟩ := hs
      exact ih.issue hr
    | redeem k r =>
      obtain ⟨hr, rfl⟩ := hs
      exact ih.redeem hr
    | lapse held =>
      obtain ⟨hk, rfl⟩ := hs
      exact ih.lapse hk

theorem redeemed_nodup {s : State κ ρ} (h : (tickets serial).Reachable s) :
    (s.redeemed.map serial).Nodup :=
  (numbered_of_reachable h).nodup

end Tickets
