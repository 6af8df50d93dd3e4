import Aitp.Core.Time
import Aitp.Crypto.AidConstructors
import Aitp.Foundation.EvictionQueue
import Aitp.Foundation.Transition

/-! # Enrolled keys

The pinned-key store of the interop peer in `serve.rs`: keys that enrolled, each until its expiry
and at most a cap of them at once, under the canonical text of their identifiers. Keys enrol and
the store is counted at any readings of the clock.
-/

namespace Aitp

open Transition Eviction

def VerifyingKey.toAid (key : VerifyingKey) : RawAid :=
  match key.algorithm with
  | .ed25519 => .ofBytes .untagged key.bytes
  | .p256 => .ofBytes .p256 key.bytes

/-- `Enrolment`: keys with their expiries, and identifiers with expiries, oldest first. -/
abbrev Enrolment := Queued String (VerifyingKey × Timestamp) Timestamp

structure EnrolledKeys where
  cap : ℕ
  inner : Enrolment

namespace EnrolledKeys

def new (cap : ℕ) : EnrolledKeys := ⟨max cap 1, .empty⟩

variable (st : EnrolledKeys)

def insert (key : VerifyingKey) (expiresAt : Timestamp) : EnrolledKeys :=
  { st with inner :=
      st.inner.insert Prod.snd st.cap (2 * st.cap) key.toAid.value (key, expiresAt) }

def len (now : Timestamp) : EnrolledKeys × ℕ :=
  let inner := st.inner.retain fun v => !v.2.isInThePast now
  ({ st with inner := inner }, inner.map.entries.length)

def isTrusted (key : VerifyingKey) (now : Timestamp) : Bool :=
  (st.inner.map.lookup key.toAid.value).any fun v => v.1 == key && !v.2.isInThePast now

theorem isTrusted_iff {st : EnrolledKeys} {key : VerifyingKey} {now : Timestamp} :
    st.isTrusted key now = true ↔
      ∃ expiresAt, st.inner.map.lookup key.toAid.value = some (key, expiresAt) ∧
        now ≤ expiresAt := by
  simp only [isTrusted, Option.any_eq_true, Bool.and_eq_true, beq_iff_eq, Bool.not_eq_true',
    Timestamp.isInThePast_eq_false, Prod.exists]
  constructor
  · rintro ⟨_, expiresAt, hl, rfl, hn⟩
    exact ⟨expiresAt, hl, hn⟩
  · rintro ⟨expiresAt, hl, hn⟩
    exact ⟨key, expiresAt, hl, rfl, hn⟩

end EnrolledKeys

/-! ## Runs -/

/-- The store, the latest reading at which it was counted, and the enrolments, newest first. -/
structure EnrolledWorld where
  store : EnrolledKeys
  counted : Timestamp
  enrolments : Pairs String (VerifyingKey × Timestamp)

inductive EnrolledAct where
  | insert (key : VerifyingKey) (expiresAt : Timestamp)
  | len (now : Timestamp)

namespace EnrolledWorld

def after (w : EnrolledWorld) : EnrolledAct → EnrolledWorld
  | .insert key expiresAt =>
    { w with
      store := w.store.insert key expiresAt
      enrolments := ⟨key.toAid.value, (key, expiresAt)⟩ :: w.enrolments }
  | .len now => { w with store := (w.store.len now).1, counted := max w.counted now }

/-- A store under a cap, used in any order. -/
def enrolledKeys (cap : ℕ) : System EnrolledWorld EnrolledAct where
  init w := w = ⟨.new cap, i64Min, []⟩
  step w act w' := w' = w.after act

/-- No identifier enrols twice until the same second. -/
def NewExpiry (w : EnrolledWorld) : EnrolledAct → Prop
  | .insert key expiresAt => ∀ e ∈ w.enrolments, e.1 = key.toAid.value → e.2.2 ≠ expiresAt
  | .len _ => True

end EnrolledWorld

/-- What the store promises. Only keys that enrolled are trusted, each until the expiry of its last
enrolment; and a key stays trusted for that long unless a cap of other keys enrolled after it. The
queue stays within twice the cap. -/
structure EnrolledLaw (cap : ℕ) (w : EnrolledWorld) : Prop where
  bounded : w.store.inner.map.entries.length ≤ max cap 1
  short : w.store.inner.order.length ≤ 2 * max cap 1
  enrolled : ∀ key now, w.store.isTrusted key now = true →
    ∃ expiresAt, w.enrolments.dlookup key.toAid.value = some (key, expiresAt) ∧ now ≤ expiresAt
  trusted : ∀ key now expiresAt, w.enrolments.dlookup key.toAid.value = some (key, expiresAt) →
    now ≤ expiresAt → w.counted ≤ expiresAt →
      (Queued.since key.toAid.value w.enrolments).keys.dedup.length < max cap 1 →
        w.store.isTrusted key now = true

open EnrolledWorld

variable {cap : ℕ} {w w' : EnrolledWorld} {act : EnrolledAct}

/-- The store keeps the enrolments that no count has dropped. -/
structure EnrolledWorld.Tracked (cap : ℕ) (w : EnrolledWorld) : Prop where
  cap_eq : w.store.cap = max cap 1
  tracks : w.store.inner.Tracks Prod.snd (max cap 1) (2 * max cap 1) w.enrolments
    fun v => w.counted ≤ v.2

theorem EnrolledWorld.Tracked.after (h : w.Tracked cap) (ha : w.NewExpiry act) :
    (w.after act).Tracked cap := by
  constructor
  · cases act <;> exact h.cap_eq
  · cases act with
    | insert key expiresAt =>
      have hcap := h.cap_eq
      simp only [EnrolledWorld.after, EnrolledKeys.insert, hcap]
      exact h.tracks.insert (by omega) ha
    | len now =>
      have hkeep : ∀ v : VerifyingKey × Timestamp, max w.counted now ≤ v.2 →
          w.counted ≤ v.2 ∧ (!v.2.isInThePast now) = true := by
        intro v hv
        obtain ⟨hc, hn⟩ := max_le_iff.mp hv
        exact ⟨hc, by rw [Timestamp.isInThePast_eq_false.mpr hn, Bool.not_false]⟩
      exact h.tracks.retain hkeep

theorem tracked_of_reachable (h : ((enrolledKeys cap).restrict NewExpiry).Reachable w) :
    w.Tracked cap := by
  refine h.invariant ?_ ?_
  · rintro w rfl
    exact ⟨rfl, .empty⟩
  · rintro w act _ ht ⟨ha, rfl⟩
    exact ht.after ha

/-- As long as no identifier enrols twice until the same second, the store keeps its promises. -/
theorem enrolledKeys_law (h : ((enrolledKeys cap).restrict NewExpiry).Reachable w) :
    EnrolledLaw cap w := by
  have ht := (tracked_of_reachable h).tracks
  constructor
  · exact ht.sound.bounded
  · exact ht.short
  · intro key now htr
    obtain ⟨expiresAt, hl, hn⟩ := EnrolledKeys.isTrusted_iff.mp htr
    exact ⟨expiresAt, ht.sound.newest _ _ hl, hn⟩
  · intro key now expiresAt hd hn hc hs
    exact EnrolledKeys.isTrusted_iff.mpr ⟨expiresAt, ht.lookup hd hc hs, hn⟩

/-! ## Enrolling again -/

/-- A key of one byte. -/
def shortKey (b : UInt8) : VerifyingKey := ⟨.ed25519, [b]⟩

/-- Some keys enrol, each until the given second. -/
def enrolAll (w : EnrolledWorld) (es : List (UInt8 × Timestamp)) : EnrolledWorld :=
  es.foldl (fun w e => w.after (.insert (shortKey e.1) e.2)) w

/-- A key enrols, and again after another one; a third one evicts the second. -/
theorem enrolledKeys_law_again :
    EnrolledLaw 2 (enrolAll ⟨.new 2, i64Min, []⟩ [(1, 60), (2, 60), (1, 61), (3, 60)]) := by
  apply enrolledKeys_law
  let none : EnrolledWorld := ⟨.new 2, i64Min, []⟩
  have hnew : ∀ (es : List (UInt8 × Timestamp)) (e : UInt8 × Timestamp),
      (∀ x ∈ (enrolAll none es).enrolments, x.1 = (shortKey e.1).toAid.value → x.2.2 ≠ e.2) →
      ((enrolledKeys 2).restrict EnrolledWorld.NewExpiry).Reachable (enrolAll none es) →
      ((enrolledKeys 2).restrict EnrolledWorld.NewExpiry).Reachable (enrolAll none (es ++ [e])) := by
    intro es e hx h
    rw [enrolAll, List.foldl_append]
    have hstep : (enrolAll none es).NewExpiry (.insert (shortKey e.1) e.2) := hx
    exact h.step ⟨hstep, rfl⟩
  have h₁ := hnew [] (1, 60) (by decide) (.init rfl)
  have h₂ := hnew [(1, 60)] (2, 60) (by decide) h₁
  have h₃ := hnew [(1, 60), (2, 60)] (1, 61) (by decide) h₂
  exact hnew [(1, 60), (2, 60), (1, 61)] (3, 60) (by decide) h₃

theorem not_enrolledLaw_sameSecond :
    ¬ EnrolledLaw 2 (enrolAll ⟨.new 2, i64Min, []⟩ [(1, 60), (2, 60), (1, 60), (3, 60)]) := by
  intro h
  have ht := h.trusted (shortKey 1) 0 60 (by decide) (by decide) (by decide) (by decide)
  revert ht
  decide

end Aitp
