import Aitp.Foundation.Readings
import Aitp.Foundation.Transition
import Aitp.Transport.ReplayStore
import Mathlib.Algebra.Order.Floor.Defs
import Mathlib.Data.List.AList
import Mathlib.Data.Rat.Floor
import Mathlib.Tactic.FieldSimp
import Mathlib.Tactic.Linarith
import Mathlib.Tactic.Positivity

/-! # The rate limiter of challenges

`handshake/admission/rate_limit.rs`, with tokens that are exact rationals. A bucket is refilled
by how far the clock is past the reading at which it was refilled last, and then stands at the
new reading, be it earlier or later.
-/

namespace Aitp

open Readings Transition

structure Bucket where
  tokens : ℚ
  last : ℕ

/-- A `HashMap` from sources to their buckets. -/
abbrev BucketMap := AList fun _ : String => Bucket

namespace BucketMap

/-- An entry whose value is written to, if it is kept. -/
def write (f : Bucket → Option Bucket) (e : Σ _ : String, Bucket) : Option (Σ _ : String, Bucket) :=
  (f e.2).map fun b => ⟨e.1, b⟩

theorem keys_filterMap_sublist (f : Bucket → Option Bucket) (es : List (Σ _ : String, Bucket)) :
    (es.filterMap (write f)).keys.Sublist es.keys := by
  induction es with
  | nil => exact .slnil
  | cons e es ih =>
    cases hf : f e.2 with
    | none =>
      rw [List.filterMap_cons_none (by rw [write, hf]; rfl)]
      exact ih.cons e.1
    | some b =>
      rw [List.filterMap_cons_some (by rw [write, hf]; rfl)]
      exact ih.cons_cons e.1

/-- `HashMap::retain`, with a closure that also writes to what it keeps. -/
def retain (m : BucketMap) (f : Bucket → Option Bucket) : BucketMap where
  entries := m.entries.filterMap (write f)
  nodupKeys := List.Nodup.sublist (keys_filterMap_sublist f m.entries) m.nodupKeys

theorem lookup_retain (m : BucketMap) (f : Bucket → Option Bucket) (key : String) :
    (m.retain f).lookup key = (m.lookup key).bind f := by
  obtain ⟨es, hn⟩ := m
  change List.dlookup key (es.filterMap (write f)) = (List.dlookup key es).bind f
  induction es with
  | nil => rfl
  | cons e es ih =>
    obtain ⟨k, b⟩ := e
    obtain ⟨hk, hn⟩ := List.nodupKeys_cons.mp hn
    have ht := ih hn
    by_cases hkey : key = k
    · subst hkey
      rw [List.dlookup_cons_eq, Option.bind_some]
      cases hf : f b with
      | none =>
        rw [List.filterMap_cons_none (by rw [write, hf]; rfl), ht, List.dlookup_eq_none.mpr hk]
        rfl
      | some b' =>
        rw [List.filterMap_cons_some (by rw [write, hf]; rfl), List.dlookup_cons_eq]
    · rw [List.dlookup_cons_ne _ _ hkey, ← ht]
      cases hf : f b with
      | none => rw [List.filterMap_cons_none (by rw [write, hf]; rfl)]
      | some b' =>
        rw [List.filterMap_cons_some (by rw [write, hf]; rfl), List.dlookup_cons_ne _ _ hkey]

end BucketMap

def pruneInterval : ℕ := nanosPerSec

structure Buckets where
  map : BucketMap
  lastPrune : Option ℕ

namespace Buckets

def empty : Buckets := ⟨∅, none⟩

/-- A second has passed since the last prune. -/
def due (st : Buckets) (now : ℕ) : Bool :=
  st.lastPrune.all fun t => decide (pruneInterval ≤ now - t)

end Buckets

/-- `Duration::as_secs_f64`. -/
def asSecs (ns : ℕ) : ℚ := ns / nanosPerSec

/-- The last `Duration`. -/
def durationMax : ℕ := 2 ^ 64 * nanosPerSec - 1

/-- The nearest integer, the even one of two. -/
def roundTiesEven (q : ℚ) : ℤ :=
  if q - ⌊q⌋ < 1 / 2 then ⌊q⌋
  else if 1 / 2 < q - ⌊q⌋ then ⌊q⌋ + 1
  else if ⌊q⌋ % 2 = 0 then ⌊q⌋
  else ⌊q⌋ + 1

/-- `wait`, in nanoseconds. -/
def wait (secs : ℚ) : ℕ :=
  if secs < 0 then durationMax
  else min (roundTiesEven (secs * nanosPerSec)).toNat durationMax

def refill (b : Bucket) (now : ℕ) (burst rate : ℚ) : Bucket where
  tokens := min (b.tokens + asSecs (now - b.last) * rate) burst
  last := now

def minPositive : ℚ := 1 / 2 ^ 1022

/-- `TokenBucketLimiter`, less its buckets. -/
structure TokenBucketLimiter where
  burst : ℚ
  perSecond : ℚ
  maxSources : ℕ
  one_le_burst : 1 ≤ burst
  perSecond_pos : 0 < perSecond
  maxSources_pos : 0 < maxSources

namespace TokenBucketLimiter

def defaultMaxSources : ℕ := 100000

theorem defaultMaxSources_pos : 0 < defaultMaxSources := by
  decide

theorem minPositive_pos : 0 < minPositive := by
  unfold minPositive
  positivity

def new (burst : ℕ) (perSecond : ℚ) : TokenBucketLimiter where
  burst := max burst 1
  perSecond := max perSecond minPositive
  maxSources := defaultMaxSources
  one_le_burst := le_max_right _ _
  perSecond_pos := lt_max_of_lt_right minPositive_pos
  maxSources_pos := defaultMaxSources_pos

def withMaxSources (l : TokenBucketLimiter) (max : ℕ) : TokenBucketLimiter :=
  { l with maxSources := Nat.max max 1, maxSources_pos := Nat.le_max_right max 1 }

variable (l : TokenBucketLimiter)

/-- The buckets that a full table keeps, refilled. -/
def prune (now : ℕ) (st : Buckets) : Buckets where
  map := st.map.retain fun b =>
    let b := refill b now l.burst l.perSecond
    if b.tokens < l.burst then some b else none
  lastPrune := some now

/-- No bucket is of the key, and there is no room for one. -/
def full (key : String) (st : Buckets) : Bool :=
  (st.map.lookup key).isNone && decide (l.maxSources ≤ st.map.entries.length)

/-- The end of `check_key_at`: a token is taken from the bucket of the key. -/
def charge (key : String) (now : ℕ) (st : Buckets) : Except ℕ Unit × Buckets :=
  let b := refill ((st.map.lookup key).getD ⟨l.burst, now⟩) now l.burst l.perSecond
  if 1 ≤ b.tokens then
    (.ok (), { st with map := st.map.insert key { b with tokens := b.tokens - 1 } })
  else (.error (wait ((1 - b.tokens) / l.perSecond)), { st with map := st.map.insert key b })

def checkKeyAt (key : String) (now : ℕ) (st : Buckets) : Except ℕ Unit × Buckets :=
  if l.full key st then
    let st := if st.due now then l.prune now st else st
    if l.maxSources ≤ st.map.entries.length then
      (.error (max (wait (1 / l.perSecond)) pruneInterval), st)
    else l.charge key now st
  else l.charge key now st

end TokenBucketLimiter

end Aitp
