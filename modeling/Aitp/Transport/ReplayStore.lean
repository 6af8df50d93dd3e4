import Mathlib.Algebra.Group.Nat.Defs
import Mathlib.Logic.Function.Basic
import Mathlib.Data.Nat.Notation
import Mathlib.Tactic.Common

/-! # The replay guard

`transport/replay_store.rs`: the default guard remembers a key for a window
counted from the instant it was first seen. Instants count nanoseconds.
-/

namespace Aitp

def nanosPerSec : ℕ := 1000000000

/-- The last instant the clock can represent. -/
def instantMax : ℕ := 2 ^ 63 * nanosPerSec - 1

/-- When a key recorded now is forgotten; a window past the last instant is cut to nothing. -/
def expiryAt (now ttl : ℕ) : ℕ :=
  if now + ttl ≤ instantMax then now + ttl else now

/-- The `seen` map of `InMemoryReplayGuard`: when each key is forgotten. -/
abbrev Seen := String → Option ℕ

namespace Seen

/-- The entries kept at an instant. -/
def retain (seen : Seen) (now : ℕ) : Seen := fun key =>
  (seen key).filter fun exp => decide (now < exp)

def checkAndRecord (seen : Seen) (key : String) (now ttl : ℕ) : Bool × Seen :=
  if ((seen.retain now) key).isSome then (false, seen.retain now)
  else (true, Function.update (seen.retain now) key (some (expiryAt now ttl)))

variable {seen : Seen} {key : String} {now ttl exp : ℕ}

theorem retain_eq_some {k : String} :
    seen.retain now k = some exp ↔ seen k = some exp ∧ now < exp := by
  simp [retain, Option.filter_eq_some_iff]

theorem checkAndRecord_fresh :
    (seen.checkAndRecord key now ttl).1 = true ↔ ∀ exp, seen key = some exp → exp ≤ now := by
  unfold checkAndRecord
  split_ifs with h
  · obtain ⟨exp, he⟩ := Option.isSome_iff_exists.mp h
    obtain ⟨hs, hlt⟩ := retain_eq_some.mp he
    refine ⟨nofun, fun hk => ?_⟩
    exact absurd (hk exp hs) (Nat.not_le.mpr hlt)
  · refine ⟨fun _ exp hs => ?_, fun _ => rfl⟩
    by_contra hlt
    exact h (Option.isSome_iff_exists.mpr ⟨exp, retain_eq_some.mpr ⟨hs, Nat.not_le.mp hlt⟩⟩)

theorem checkAndRecord_self (h : (seen.checkAndRecord key now ttl).1 = true) :
    (seen.checkAndRecord key now ttl).2 key = some (expiryAt now ttl) := by
  unfold checkAndRecord at h ⊢
  split_ifs at h ⊢
  exact Function.update_self ..

theorem checkAndRecord_kept {k : String} (hs : seen k = some exp) (hlt : now < exp) :
    (seen.checkAndRecord key now ttl).2 k = some exp := by
  have hr := retain_eq_some.mpr ⟨hs, hlt⟩
  unfold checkAndRecord
  split_ifs with h
  · exact hr
  · have hk : k ≠ key := by
      rintro rfl
      exact h (by rw [hr]; rfl)
    exact (Function.update_of_ne hk ..).trans hr

end Seen

end Aitp
