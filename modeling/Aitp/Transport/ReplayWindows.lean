import Aitp.Foundation.Transition
import Aitp.Transport.ReplayStore

/-! # Windows of the replay guard

Calls of `check_and_record` with any keys and windows, on a clock that does not go back.
A window whose end the clock can represent is kept to the nanosecond. One whose end it
cannot is no window at all.
-/

namespace Aitp

open Transition

namespace Seen

variable {seen : Seen} {key k : String} {now ttl : ℕ}

theorem checkAndRecord_replay (h : (seen.checkAndRecord key now ttl).1 = false) :
    (seen.checkAndRecord key now ttl).2 = seen.retain now := by
  unfold checkAndRecord at h ⊢
  split_ifs at h ⊢
  rfl

theorem checkAndRecord_of_ne (h : k ≠ key) :
    (seen.checkAndRecord key now ttl).2 k = seen.retain now k := by
  unfold checkAndRecord
  split_ifs
  · rfl
  · exact Function.update_of_ne h _ _

end Seen

/-- A call of `check_and_record` and its reading of the clock. -/
structure GuardCall where
  key : String
  ttl : ℕ
  now : ℕ

/-- A guard, its clock, and the calls that answered true. -/
structure GuardWorld where
  seen : Seen
  clock : ℕ
  passed : List GuardCall

namespace GuardWorld

variable (w : GuardWorld) (c : GuardCall)

/-- What the guard answers next. -/
def answer : Bool :=
  (w.seen.checkAndRecord c.key c.now c.ttl).1

def after : GuardWorld where
  seen := (w.seen.checkAndRecord c.key c.now c.ttl).2
  clock := c.now
  passed := if w.answer c then c :: w.passed else w.passed

/-- Calls to a new guard, each at an instant that is not before the last. -/
def runs : System GuardWorld GuardCall where
  init w := (∀ key, w.seen key = none) ∧ w.passed = []
  step w c w' := w.clock ≤ c.now ∧ c.now ≤ instantMax ∧ w' = w.after c

/-- The answer is true unless an earlier call that answered true for the key covers this one. -/
def Agrees : Prop :=
  w.answer c = true ↔ ¬ ∃ p ∈ w.passed, p.key = c.key ∧ c.now < p.now + p.ttl

variable {w c} {key : String} {t : ℕ}

theorem mem_passed_after {p : GuardCall} :
    p ∈ (w.after c).passed ↔ p ∈ w.passed ∨ w.answer c = true ∧ p = c := by
  unfold after
  simp only
  split_ifs with h
  · rw [List.mem_cons, or_comm, and_iff_right h]
  · exact (or_iff_left fun hc => h hc.1).symm

theorem remembered_iff (h : runs.Reachable w) (ht : w.clock ≤ t) :
    (∃ exp, w.seen key = some exp ∧ t < exp) ↔
      ∃ p ∈ w.passed, p.key = key ∧ t < expiryAt p.now p.ttl := by
  induction h generalizing key t with
  | init hi => simp [hi.1, hi.2]
  | @step w c _ _ hs ih =>
    obtain ⟨hc, -, rfl⟩ := hs
    have hct : c.now ≤ t := ht
    have hold := @ih key t (Nat.le_trans hc hct)
    simp only [mem_passed_after]
    cases ha : w.answer c with
    | false =>
      have hseen : (w.after c).seen = w.seen.retain c.now := Seen.checkAndRecord_replay ha
      simp only [Bool.false_eq_true, false_and, or_false, ← hold, hseen, Seen.retain_eq_some]
      constructor
      · rintro ⟨exp, ⟨hs, -⟩, hlt⟩
        exact ⟨exp, hs, hlt⟩
      · rintro ⟨exp, hs, hlt⟩
        exact ⟨exp, ⟨hs, Nat.lt_of_le_of_lt hct hlt⟩, hlt⟩
    | true =>
      by_cases hk : key = c.key
      · subst hk
        have hself : (w.after c).seen c.key = some (expiryAt c.now c.ttl) :=
          Seen.checkAndRecord_self ha
        rw [hself]
        constructor
        · rintro ⟨exp, hexp, hlt⟩
          obtain rfl := Option.some.inj hexp
          exact ⟨c, .inr ⟨rfl, rfl⟩, rfl, hlt⟩
        · rintro ⟨p, hp | ⟨-, rfl⟩, hpk, hlt⟩
          · obtain ⟨exp, hs, hexp⟩ := hold.mpr ⟨p, hp, hpk, hlt⟩
            have hgone := Seen.checkAndRecord_fresh.mp ha exp hs
            omega
          · exact ⟨_, rfl, hlt⟩
      · have hother : (w.after c).seen key = w.seen.retain c.now key :=
          Seen.checkAndRecord_of_ne hk
        rw [hother]
        simp only [Seen.retain_eq_some]
        constructor
        · rintro ⟨exp, ⟨hs, -⟩, hlt⟩
          obtain ⟨p, hp, hpk, hlt⟩ := hold.mp ⟨exp, hs, hlt⟩
          exact ⟨p, .inl hp, hpk, hlt⟩
        · rintro ⟨p, hp | ⟨-, rfl⟩, hpk, hlt⟩
          · obtain ⟨exp, hs, hexp⟩ := hold.mpr ⟨p, hp, hpk, hlt⟩
            exact ⟨exp, ⟨hs, Nat.lt_of_le_of_lt hct hexp⟩, hexp⟩
          · exact absurd hpk.symm hk

theorem answer_iff (h : runs.Reachable w) (hc : w.clock ≤ c.now) :
    w.answer c = true ↔ ¬ ∃ p ∈ w.passed, p.key = c.key ∧ c.now < expiryAt p.now p.ttl := by
  rw [← remembered_iff h hc, answer, Seen.checkAndRecord_fresh]
  constructor
  · rintro hle ⟨exp, hs, hlt⟩
    exact absurd (hle exp hs) (Nat.not_le.mpr hlt)
  · intro hno exp hs
    by_contra hlt
    exact hno ⟨exp, hs, Nat.not_le.mp hlt⟩

theorem passed_le (h : runs.Reachable w) :
    ∀ p ∈ w.passed, p.now ≤ w.clock ∧ w.clock ≤ instantMax := by
  induction h with
  | init hi =>
    rw [hi.2]
    rintro p ⟨⟩
  | @step w c _ _ hs ih =>
    obtain ⟨hc, hmax, rfl⟩ := hs
    intro p hp
    rcases mem_passed_after.mp hp with hold | ⟨-, rfl⟩
    · exact ⟨Nat.le_trans (ih p hold).1 hc, hmax⟩
    · exact ⟨Nat.le_refl _, hmax⟩

end GuardWorld

theorem expiryAt_eq {now ttl : ℕ} (h : now + ttl ≤ instantMax) : expiryAt now ttl = now + ttl :=
  if_pos h

theorem expiryAt_le {now : ℕ} (h : now ≤ instantMax) (ttl : ℕ) : expiryAt now ttl ≤ instantMax := by
  unfold expiryAt
  split_ifs with hsum
  · exact hsum
  · exact h

open GuardWorld in
/-- The guard answers by the windows of the calls that answered true exactly as long as it could
represent the end of each of them. -/
theorem replayGuard_exact_iff {w : GuardWorld} (h : runs.Reachable w) :
    (∀ c : GuardCall, w.clock ≤ c.now → c.now ≤ instantMax → w.Agrees c) ↔
      ∀ p ∈ w.passed, p.now + p.ttl ≤ instantMax := by
  constructor
  · intro hagrees p hp
    by_contra hlt
    obtain ⟨hnow, hmax⟩ := passed_le h p hp
    -- At the last instant nothing is remembered, though the window is not over.
    have hlast := hagrees ⟨p.key, 0, instantMax⟩ hmax (Nat.le_refl _)
    refine hlast.mp ?_ ⟨p, hp, rfl, Nat.not_le.mp hlt⟩
    rw [answer_iff h hmax]
    rintro ⟨p', hp', -, hlt'⟩
    obtain ⟨hnow', -⟩ := passed_le h p' hp'
    exact absurd (expiryAt_le (Nat.le_trans hnow' hmax) p'.ttl) (Nat.not_le.mpr hlt')
  · intro hp c hc _
    rw [Agrees, answer_iff h hc]
    refine not_congr (exists_congr fun p => and_congr_right fun hmem => ?_)
    rw [expiryAt_eq (hp p hmem)]

/-! ## A window longer than the clock -/

namespace Toy

/-- A key was recorded for longer than the clock can count. -/
def foreverSeen : GuardWorld :=
  GuardWorld.after ⟨fun _ => none, 0, []⟩ ⟨"k", 2 ^ 64 * nanosPerSec, 0⟩

theorem reachable_foreverSeen : GuardWorld.runs.Reachable foreverSeen :=
  .step (.init ⟨fun _ => rfl, rfl⟩) ⟨Nat.le_refl 0, Nat.zero_le _, rfl⟩

end Toy

open Toy in
theorem replayGuard_exact_iff_forever :
    (∀ c : GuardCall, foreverSeen.clock ≤ c.now → c.now ≤ instantMax → foreverSeen.Agrees c) ↔
      ∀ p ∈ foreverSeen.passed, p.now + p.ttl ≤ instantMax :=
  replayGuard_exact_iff reachable_foreverSeen

open Toy in
/-- A key that was recorded for the longest time is fresh again at once, which the window says it is
not, while one recorded for a second is a replay. -/
theorem replayGuard_forgets : GuardWorld.runs.Reachable foreverSeen ∧
    ¬ foreverSeen.Agrees ⟨"k", 0, 0⟩ ∧ foreverSeen.answer ⟨"k", 0, 0⟩ = true ∧
    (GuardWorld.after ⟨fun _ => none, 0, []⟩ ⟨"k", nanosPerSec, 0⟩).answer ⟨"k", 0, 0⟩ = false := by
  refine ⟨reachable_foreverSeen, ?_, by decide, by decide⟩
  intro hagrees
  exact hagrees.mp (by decide) ⟨⟨"k", 2 ^ 64 * nanosPerSec, 0⟩, List.mem_cons_self, rfl, by decide⟩

end Aitp
