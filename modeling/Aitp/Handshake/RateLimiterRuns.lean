import Aitp.Handshake.RateLimiter

/-! # Budgets of the rate limiter

Calls of `check_key_at` on any keys at any readings of the clock. The calls let through on a
tracked key are paid for by the burst and by every forward move of the clock, so the time between
the earliest and the latest of these calls pays for them as long as no move forward is made twice.
-/

namespace Aitp

open Readings Transition

/-- A call of `check_key_at`. -/
structure LimiterCall where
  key : String
  now : ℕ

/-- The readings of the calls on a key since it is tracked, those at which its bucket was refilled
up to the last of these calls and those of the prunes since, newest first each, and how many of the
calls were let through. -/
structure KeyHistory where
  calls : List ℕ
  seen : List ℕ
  since : List ℕ
  passed : ℕ
  deriving DecidableEq

structure LimiterWorld where
  buckets : Buckets
  history : String → KeyHistory

namespace KeyHistory

def empty : KeyHistory := ⟨[], [], [], 0⟩

/-- A call on the key, that was let through or not. -/
def called (h : KeyHistory) (now passed : ℕ) : KeyHistory :=
  ⟨now :: h.calls, now :: (h.since ++ h.seen), [], h.passed + passed⟩

/-- A call on another key that pruned the table. -/
def pruned (h : KeyHistory) (now : ℕ) : KeyHistory :=
  { h with since := now :: h.since }

/-- The time between the earliest and the latest call pays for the calls let through. -/
def WithinBudget (l : TokenBucketLimiter) (h : KeyHistory) : Prop :=
  h.passed ≤ l.burst + l.perSecond * asSecs (span h.calls)

end KeyHistory

namespace TokenBucketLimiter

variable (l : TokenBucketLimiter)

/-- A call on the key prunes the table first. -/
def prunes (key : String) (now : ℕ) (st : Buckets) : Bool :=
  l.full key st && st.due now

/-- The table that a call finds or makes. -/
def room (key : String) (now : ℕ) (st : Buckets) : Buckets :=
  if l.prunes key now st then l.prune now st else st

variable {l} {key k : String} {now : ℕ} {st : Buckets} {b : Bucket}

theorem lookup_room_of_tracked (h : (l.room key now st).map.lookup k = some b) :
    ∃ b₀, st.map.lookup k = some b₀ ∧
      b = if l.prunes key now st then refill b₀ now l.burst l.perSecond else b₀ := by
  unfold room at h
  split_ifs at h ⊢ with hp
  · rw [prune, BucketMap.lookup_retain, Option.bind_eq_some_iff] at h
    obtain ⟨b₀, hb, h⟩ := h
    refine ⟨b₀, hb, ?_⟩
    simp only at h
    split_ifs at h
    exact (Option.some.inj h).symm
  · exact ⟨b, h, rfl⟩

theorem lookup_room_self : (l.room key now st).map.lookup key = st.map.lookup key := by
  unfold room
  split_ifs with hp
  · have hn : st.map.lookup key = none := by
      simp only [prunes, full, Bool.and_eq_true, Option.isNone_iff_eq_none] at hp
      exact hp.1.1
    rw [prune, BucketMap.lookup_retain, hn, Option.bind_none]
  · rfl

theorem checkKeyAt_cases (l : TokenBucketLimiter) (key : String) (now : ℕ) (st : Buckets) :
    (st.map.lookup key = none ∧ (l.checkKeyAt key now st).2 = l.room key now st) ∨
      l.checkKeyAt key now st = l.charge key now (l.room key now st) := by
  unfold checkKeyAt
  cases hf : l.full key st with
  | false =>
    have hr : l.room key now st = st := by simp [room, prunes, hf]
    rw [hr]
    exact .inr rfl
  | true =>
    have hr : (if st.due now then l.prune now st else st) = l.room key now st := by
      simp [room, prunes, hf]
    simp only [if_true, hr]
    split_ifs
    · simp only [full, Bool.and_eq_true, Option.isNone_iff_eq_none] at hf
      exact .inl ⟨hf.1, rfl⟩
    · exact .inr rfl

/-- The bucket of the key that a call charges, refilled. -/
def refilled (l : TokenBucketLimiter) (key : String) (now : ℕ) (st : Buckets) : Bucket :=
  refill ((st.map.lookup key).getD ⟨l.burst, now⟩) now l.burst l.perSecond

theorem charge_cases (l : TokenBucketLimiter) (key : String) (now : ℕ) (st : Buckets) :
    (1 ≤ (l.refilled key now st).tokens ∧ (l.charge key now st).1.isOk = true ∧
      (l.charge key now st).2.map = st.map.insert key
        { l.refilled key now st with tokens := (l.refilled key now st).tokens - 1 }) ∨
    ((l.refilled key now st).tokens < 1 ∧ (l.charge key now st).1.isOk = false ∧
      (l.charge key now st).2.map = st.map.insert key (l.refilled key now st)) := by
  unfold charge
  rw [← refilled]
  by_cases h : 1 ≤ (l.refilled key now st).tokens
  · rw [if_pos h]
    exact .inl ⟨h, rfl, rfl⟩
  · rw [if_neg h]
    exact .inr ⟨not_le.mp h, rfl, rfl⟩

theorem lookup_charge_of_ne (h : k ≠ key) :
    (l.charge key now st).2.map.lookup k = st.map.lookup k := by
  rcases l.charge_cases key now st with ⟨-, -, hm⟩ | ⟨-, -, hm⟩
  · rw [hm, AList.lookup_insert_ne h]
  · rw [hm, AList.lookup_insert_ne h]

end TokenBucketLimiter

open TokenBucketLimiter

namespace LimiterWorld

variable (l : TokenBucketLimiter) (w : LimiterWorld) (c : LimiterCall)

def initial : LimiterWorld := ⟨.empty, fun _ => .empty⟩

/-- The world after a call. The history of a key begins anew when the key is tracked anew. -/
def after : LimiterWorld where
  buckets := (l.checkKeyAt c.key c.now w.buckets).2
  history key :=
    if ((l.checkKeyAt c.key c.now w.buckets).2.map.lookup key).isNone then .empty
    else if key = c.key then
      (w.history key).called c.now (if (l.checkKeyAt c.key c.now w.buckets).1.isOk then 1 else 0)
    else if l.prunes c.key c.now w.buckets then (w.history key).pruned c.now
    else w.history key

/-- Calls on a new limiter. -/
def runs : System LimiterWorld LimiterCall where
  init w := w = initial
  step w c w' := w' = w.after l c

variable {l w c} {key : String} {now : ℕ} {h : KeyHistory} {b : Bucket}

/-- The forward moves of the clock paid for the calls let through and the tokens left, those up to
the last call for the calls. -/
structure Accounted (l : TokenBucketLimiter) (b : Bucket) (h : KeyHistory) : Prop where
  nonneg : 0 ≤ b.tokens
  last : ∃ ts, h.since ++ h.seen = b.last :: ts
  paid : h.passed + b.tokens ≤ l.burst + l.perSecond * asSecs (rise (h.since ++ h.seen))
  spent : h.passed ≤ l.burst + l.perSecond * asSecs (rise h.seen)
  newest : ∃ t, h.seen.head? = some t ∧ h.calls.head? = some t
  earliest : ∃ t, h.seen.getLast? = some t ∧ h.calls.getLast? = some t

theorem asSecs_nonneg (ns : ℕ) : 0 ≤ asSecs ns := by
  unfold asSecs
  positivity

theorem asSecs_add (m n : ℕ) : asSecs (m + n) = asSecs m + asSecs n := by
  unfold asSecs
  push_cast
  ring

theorem asSecs_mono {m n : ℕ} (h : m ≤ n) : asSecs m ≤ asSecs n := by
  obtain ⟨d, rfl⟩ := Nat.exists_eq_add_of_le h
  rw [asSecs_add]
  linarith [asSecs_nonneg d]

theorem accounted_new :
    Accounted l (refill ⟨l.burst, now⟩ now l.burst l.perSecond) (KeyHistory.empty.called now 0) := by
  have ht : (refill ⟨l.burst, now⟩ now l.burst l.perSecond).tokens = l.burst := by
    simp [refill, asSecs]
  have hb := l.one_le_burst
  refine ⟨?_, ⟨[], rfl⟩, ?_, ?_, ⟨now, rfl, rfl⟩, ⟨now, rfl, rfl⟩⟩
  · rw [ht]
    linarith
  · rw [ht]
    simp [KeyHistory.called, KeyHistory.empty, rise, asSecs]
  · simp only [KeyHistory.called, KeyHistory.empty, List.nil_append, rise, asSecs, Nat.cast_zero,
      zero_div, mul_zero, add_zero]
    linarith

theorem Accounted.refill_nonneg (ha : Accounted l b h) :
    0 ≤ (Aitp.refill b now l.burst l.perSecond).tokens := by
  have hrate := l.perSecond_pos
  have hburst := l.one_le_burst
  have hdt := asSecs_nonneg (now - b.last)
  have hgain : 0 ≤ asSecs (now - b.last) * l.perSecond := by positivity
  have hn := ha.nonneg
  exact le_min (by linarith) (by linarith)

theorem Accounted.refill_paid (ha : Accounted l b h) :
    h.passed + (Aitp.refill b now l.burst l.perSecond).tokens ≤
      l.burst + l.perSecond * asSecs (rise (now :: (h.since ++ h.seen))) := by
  obtain ⟨ts, hs⟩ := ha.last
  have hp := ha.paid
  have hm : (Aitp.refill b now l.burst l.perSecond).tokens ≤
      b.tokens + asSecs (now - b.last) * l.perSecond := min_le_left _ _
  have hr : asSecs (rise (now :: (h.since ++ h.seen))) =
      asSecs (now - b.last) + asSecs (rise (h.since ++ h.seen)) := by
    rw [hs, rise, asSecs_add]
  rw [hr]
  linarith

theorem Accounted.pruned (ha : Accounted l b h) :
    Accounted l (refill b now l.burst l.perSecond) (h.pruned now) :=
  ⟨ha.refill_nonneg, ⟨h.since ++ h.seen, rfl⟩, ha.refill_paid, ha.spent, ha.newest, ha.earliest⟩

theorem Accounted.called (ha : Accounted l b h) :
    Accounted l (refill b now l.burst l.perSecond) (h.called now 0) := by
  have hn : 0 ≤ (Aitp.refill b now l.burst l.perSecond).tokens := ha.refill_nonneg
  have hp : h.passed + (Aitp.refill b now l.burst l.perSecond).tokens ≤
      l.burst + l.perSecond * asSecs (rise (now :: (h.since ++ h.seen))) := ha.refill_paid
  obtain ⟨t, hs, hc⟩ := ha.earliest
  refine ⟨hn, ⟨h.since ++ h.seen, rfl⟩, hp, ?_, ⟨now, rfl, rfl⟩, ⟨t, ?_, ?_⟩⟩
  · simp only [KeyHistory.called, add_zero]
    linarith
  · simp [KeyHistory.called, List.getLast?_cons, hs]
  · simp [KeyHistory.called, List.getLast?_cons, hc]

theorem Accounted.spend (ha : Accounted l b (h.called now 0)) (hb : 1 ≤ b.tokens) :
    Accounted l { b with tokens := b.tokens - 1 } (h.called now 1) := by
  have hp : ((h.passed + 0 : ℕ) : ℚ) + b.tokens ≤
      l.burst + l.perSecond * asSecs (rise (now :: (h.since ++ h.seen))) := ha.paid
  refine ⟨?_, ha.last, ?_, ?_, ha.newest, ha.earliest⟩
  · simp only
    linarith
  · simp only [KeyHistory.called, List.nil_append]
    push_cast at hp ⊢
    linarith
  · simp only [KeyHistory.called]
    push_cast at hp ⊢
    linarith

/-- Every tracked key is accounted for, and no other has a history. -/
structure Tallied (l : TokenBucketLimiter) (w : LimiterWorld) : Prop where
  tracked : ∀ key b, w.buckets.map.lookup key = some b → Accounted l b (w.history key)
  untracked : ∀ key, w.buckets.map.lookup key = none → w.history key = .empty

theorem tallied_initial : Tallied l initial := by
  refine ⟨?_, fun _ _ => rfl⟩
  rintro key b h
  cases h

theorem accounted_refilled (ht : Tallied l w) (key : String) (now : ℕ) :
    Accounted l (l.refilled key now (l.room key now w.buckets)) ((w.history key).called now 0) := by
  unfold refilled
  rw [lookup_room_self]
  cases hl : w.buckets.map.lookup key with
  | none =>
    rw [ht.untracked key hl]
    exact accounted_new
  | some b => exact (ht.tracked key b hl).called

theorem accounted_room (ht : Tallied l w) {k : String}
    (hl : (l.room key now w.buckets).map.lookup k = some b) :
    Accounted l b (if l.prunes key now w.buckets then (w.history k).pruned now
      else w.history k) := by
  obtain ⟨b₀, hb, rfl⟩ := lookup_room_of_tracked hl
  split_ifs
  · exact (ht.tracked k b₀ hb).pruned
  · exact ht.tracked k b₀ hb

theorem tallied_after (ht : Tallied l w) : Tallied l (w.after l c) := by
  refine ⟨?_, ?_⟩
  · intro key b hl
    have hl' : (l.checkKeyAt c.key c.now w.buckets).2.map.lookup key = some b := hl
    simp only [after, hl', Option.isNone_some, Bool.false_eq_true, if_false]
    rcases l.checkKeyAt_cases c.key c.now w.buckets with ⟨hn, hr⟩ | hr
    · rw [hr] at hl'
      have hne : key ≠ c.key := by
        rintro rfl
        rw [lookup_room_self, hn] at hl'
        cases hl'
      rw [if_neg hne]
      exact accounted_room ht hl'
    · rw [hr] at hl' ⊢
      by_cases hk : key = c.key
      · subst hk
        have ha := accounted_refilled ht c.key c.now
        rw [if_pos rfl]
        rcases l.charge_cases c.key c.now (l.room c.key c.now w.buckets) with
          ⟨hone, hok, hm⟩ | ⟨-, hok, hm⟩
        · rw [hm, AList.lookup_insert] at hl'
          obtain rfl := Option.some.inj hl'
          rw [hok]
          exact ha.spend hone
        · rw [hm, AList.lookup_insert] at hl'
          obtain rfl := Option.some.inj hl'
          rw [hok]
          exact ha
      · rw [if_neg hk]
        rw [lookup_charge_of_ne hk] at hl'
        exact accounted_room ht hl'
  · intro key hl
    have hl' : (l.checkKeyAt c.key c.now w.buckets).2.map.lookup key = none := hl
    simp only [after, hl', Option.isNone_none, if_true]

theorem tallied (h : (runs l).Reachable w) : Tallied l w := by
  induction h with
  | init hi =>
    rw [show _ = initial from hi]
    exact tallied_initial
  | step _ hs ih =>
    rw [show _ = _ from hs]
    exact tallied_after ih

theorem passed_le (h : (runs l).Reachable w) (key : String) :
    ((w.history key).passed : ℚ) ≤
      l.burst + l.perSecond * asSecs (rise (w.history key).seen) := by
  cases hl : w.buckets.map.lookup key with
  | none =>
    rw [(tallied h).untracked key hl]
    have hb := l.one_le_burst
    simp only [KeyHistory.empty, rise, asSecs, Nat.cast_zero, zero_div, mul_zero, add_zero]
    linarith
  | some b => exact ((tallied h).tracked key b hl).spent

theorem withinBudget_of_rise_le (h : (runs l).Reachable w)
    (hs : rise (w.history key).seen ≤ span (w.history key).calls) :
    (w.history key).WithinBudget l := by
  have hp := passed_le h key
  have hrate := l.perSecond_pos
  have hm := mul_le_mul_of_nonneg_left (asSecs_mono hs) hrate.le
  unfold KeyHistory.WithinBudget
  linarith

theorem withinBudget_of_pairwise (h : (runs l).Reachable w)
    (hs : (w.history key).seen.Pairwise (· ≥ ·)) : (w.history key).WithinBudget l := by
  apply withinBudget_of_rise_le h
  cases hl : w.buckets.map.lookup key with
  | none =>
    rw [(tallied h).untracked key hl]
    exact Nat.zero_le _
  | some b =>
    obtain ⟨_, hnew, hcalled⟩ := ((tallied h).tracked key b hl).newest
    obtain ⟨_, hold, hfirst⟩ := ((tallied h).tracked key b hl).earliest
    exact rise_le_span hs (hnew.trans hcalled.symm) (hold.trans hfirst.symm)

/-! ## Every call made twice -/

theorem reachable_foldl (h : (runs l).Reachable w) (calls : List LimiterCall) :
    (runs l).Reachable (calls.foldl (after l) w) := by
  induction calls generalizing w with
  | nil => exact h
  | cons c calls ih => exact ih (h.step rfl)

theorem refill_self (hb : b.tokens ≤ l.burst) : refill b b.last l.burst l.perSecond = b := by
  obtain ⟨tokens, last⟩ := b
  simp only [refill, Nat.sub_self, asSecs, Nat.cast_zero, zero_div, zero_mul, add_zero]
  rw [min_eq_left hb]

/-- What a call does where the table has room for its key. -/
theorem after_of_room (w : LimiterWorld) (now : ℕ) (hf : l.full key w.buckets = false) :
    ∃ b n, (w.after l ⟨key, now⟩).buckets.map.lookup key = some b ∧ b.last = now ∧
      b.tokens ≤ l.burst ∧
      b.tokens = (if 1 ≤ (l.refilled key now w.buckets).tokens then
        (l.refilled key now w.buckets).tokens - 1
        else (l.refilled key now w.buckets).tokens) ∧
      (w.after l ⟨key, now⟩).history key = (w.history key).called now n ∧
      n + b.tokens = (l.refilled key now w.buckets).tokens := by
  have hcall : l.checkKeyAt key now w.buckets = l.charge key now w.buckets := by
    unfold checkKeyAt
    rw [hf]
    rfl
  have hle : (l.refilled key now w.buckets).tokens ≤ l.burst := min_le_right _ _
  simp only [after, hcall]
  rcases l.charge_cases key now w.buckets with ⟨hone, hok, hm⟩ | ⟨hlt, hok, hm⟩
  · refine ⟨_, 1, by rw [hm, AList.lookup_insert], rfl, ?_, (if_pos hone).symm, ?_, ?_⟩
    · simp only
      linarith
    · simp [hm, hok]
    · simp
  · refine ⟨_, 0, by rw [hm, AList.lookup_insert], rfl, hle, (if_neg (not_le.mpr hlt)).symm, ?_, ?_⟩
    · simp [hm, hok]
    · simp

theorem full_of_tracked (hl : w.buckets.map.lookup key = some b) :
    l.full key w.buckets = false := by
  simp [full, hl]

/-- Two calls at one reading leave less than a token of no more than two. -/
theorem after_twice (hw : (runs l).Reachable w) (hf : l.full key w.buckets = false)
    (ht : (l.refilled key now w.buckets).tokens ≤ 2) :
    ∃ w' b m n, (runs l).Reachable w' ∧ w'.buckets.map.lookup key = some b ∧ b.last = now ∧
      b.tokens < 1 ∧ w'.history key = ((w.history key).called now m).called now n ∧
      m + (n + b.tokens) = (l.refilled key now w.buckets).tokens := by
  obtain ⟨b₁, m, hl₁, hlast₁, hle₁, htok₁, hcalled₁, hpaid₁⟩ := after_of_room w now hf
  obtain ⟨b₂, n, hl₂, hlast₂, -, htok₂, hcalled₂, hpaid₂⟩ :=
    after_of_room (w.after l ⟨key, now⟩) now (full_of_tracked hl₁)
  have hsame : l.refilled key now (w.after l ⟨key, now⟩).buckets = b₁ := by
    rw [refilled, hl₁, Option.getD_some, ← hlast₁]
    exact refill_self hle₁
  rw [hsame] at htok₂ hpaid₂
  refine ⟨_, b₂, m, n, (hw.step rfl).step rfl, hl₂, hlast₂, ?_, ?_, ?_⟩
  · rw [htok₂]
    split_ifs at htok₁ ⊢ <;> linarith
  · rw [hcalled₂, hcalled₁]
  · rw [hpaid₂, hpaid₁]

/-- With every call made twice, all that the forward moves of the clock pay for is used up. -/
theorem exists_spent (hburst : l.burst = 2) (key : String) {t : ℕ} {ts : List ℕ}
    (hr : l.perSecond * asSecs (rise (t :: ts)) ≤ 1) :
    ∃ w b n, (runs l).Reachable w ∧ w.buckets.map.lookup key = some b ∧ b.last = t ∧
      b.tokens < 1 ∧ w.history key = ⟨twice (t :: ts), twice (t :: ts), [], n⟩ ∧
      n + b.tokens = 2 + l.perSecond * asSecs (rise (t :: ts)) := by
  induction ts generalizing t with
  | nil =>
    have hf : l.full key initial.buckets = false := by
      have hpos : ¬l.maxSources ≤ initial.buckets.map.entries.length :=
        Nat.not_le.mpr l.maxSources_pos
      rw [full, decide_eq_false hpos, Bool.and_false]
    have hnew : (l.refilled key t initial.buckets).tokens = 2 := by
      simp only [refilled, initial, Buckets.empty, AList.lookup_empty, Option.getD_none, refill,
        Nat.sub_self, asSecs, Nat.cast_zero, zero_div, zero_mul, add_zero, min_self, hburst]
    obtain ⟨w, b, m, n, hw, hl, hlast, hlt, hcalled, hpaid⟩ := after_twice (.init rfl) hf hnew.le
    refine ⟨w, b, 0 + m + n, hw, hl, hlast, hlt, hcalled, ?_⟩
    rw [hnew] at hpaid
    simp only [rise, asSecs, Nat.cast_zero, zero_div, mul_zero, add_zero]
    push_cast
    linarith
  | cons s ts ih =>
    have hrate := l.perSecond_pos
    have hrise : asSecs (rise (t :: s :: ts)) = asSecs (t - s) + asSecs (rise (s :: ts)) := by
      rw [rise, asSecs_add]
    have hdt := asSecs_nonneg (t - s)
    have hrest := asSecs_nonneg (rise (s :: ts))
    rw [hrise, mul_add] at hr
    have hgain : 0 ≤ l.perSecond * asSecs (t - s) := by positivity
    have hpast : 0 ≤ l.perSecond * asSecs (rise (s :: ts)) := by positivity
    obtain ⟨w, b, k, hw, hl, rfl, hlt, hcalls, hpaid⟩ := ih (by linarith)
    have htok : (l.refilled key t w.buckets).tokens =
        b.tokens + l.perSecond * asSecs (t - b.last) := by
      rw [refilled, hl, Option.getD_some, refill, hburst, mul_comm l.perSecond]
      apply min_eq_left
      linarith
    obtain ⟨w', b', m, n, hw', hl', hlast', hlt', hcalled', hpaid'⟩ :=
      @after_twice l w key t hw (full_of_tracked hl) (by rw [htok]; linarith)
    refine ⟨w', b', k + m + n, hw', hl', hlast', hlt', ?_, ?_⟩
    · rw [hcalled', hcalls]
      rfl
    · rw [htok] at hpaid'
      rw [hrise]
      push_cast
      linarith

theorem asSecs_pos {ns : ℕ} (h : 0 < ns) : 0 < asSecs ns := by
  unfold asSecs nanosPerSec
  positivity

/-- Two calls at once, and one more in the given time. -/
def paced (ns : ℕ) (hns : 0 < ns) : TokenBucketLimiter where
  burst := 2
  perSecond := 1 / asSecs ns
  maxSources := defaultMaxSources
  one_le_burst := one_le_two
  perSecond_pos := one_div_pos.mpr (asSecs_pos hns)
  maxSources_pos := defaultMaxSources_pos

end LimiterWorld

open LimiterWorld

/-- While no forward move of the clock is made twice, the calls let through on a tracked key stay
within the budget. For calls at any other readings, made twice each, some limiter lets through
more. -/
theorem tokenBucket_budget {l : TokenBucketLimiter} {w : LimiterWorld}
    (h : (runs l).Reachable w) (key : String) :
    (rise (w.history key).seen ≤ span (w.history key).calls → (w.history key).WithinBudget l) ∧
    ∀ ts, span ts < rise ts → ∃ l w, (runs l).Reachable w ∧ (w.history key).calls = twice ts ∧
      (w.history key).seen = (w.history key).calls ∧ ¬(w.history key).WithinBudget l := by
  refine ⟨withinBudget_of_rise_le h, ?_⟩
  intro ts hlt
  have hpos : 0 < rise ts := Nat.zero_lt_of_lt hlt
  obtain ⟨t, ts, rfl⟩ : ∃ t rest, ts = t :: rest := by
    cases ts with
    | nil => exact absurd hpos (Nat.lt_irrefl 0)
    | cons t ts => exact ⟨t, ts, rfl⟩
  have hsecs : 0 < asSecs (rise (t :: ts)) := asSecs_pos hpos
  have hone : (paced _ hpos).perSecond * asSecs (rise (t :: ts)) = 1 :=
    one_div_mul_cancel hsecs.ne'
  obtain ⟨w, b, n, hw, -, -, htokens, hcalls, hpaid⟩ := exists_spent rfl key hone.le
  rw [hone] at hpaid
  have hthree : 3 ≤ n := by
    have h : (2 : ℚ) < n := by linarith
    exact_mod_cast h
  refine ⟨paced _ hpos, w, hw, by rw [hcalls], by rw [hcalls], ?_⟩
  intro hbudget
  unfold KeyHistory.WithinBudget at hbudget
  have hspan : asSecs (span (t :: ts)) < asSecs (rise (t :: ts)) := by
    unfold asSecs nanosPerSec
    gcongr
  have hrate := (paced _ hpos).perSecond_pos
  have hless := mul_lt_mul_of_pos_left hspan hrate
  rw [hone] at hless
  rw [hcalls, span_twice] at hbudget
  have hcast : (3 : ℚ) ≤ n := by exact_mod_cast hthree
  have htwo : (paced _ hpos).burst = 2 := rfl
  linarith

/-- A table of one bucket. -/
def narrow : TokenBucketLimiter :=
  (new 1 1).withMaxSources 1

/-- Calls from one address on a clock that does not go back: the second of three waits, and a call
from another address prunes the table before the third. -/
def steady : List LimiterCall :=
  [⟨"ip4:192.0.2.1", 0⟩, ⟨"ip4:192.0.2.1", 0⟩, ⟨"ip4:192.0.2.2", nanosPerSec / 2⟩,
    ⟨"ip4:192.0.2.1", nanosPerSec⟩]

theorem tokenBucket_budget_steady :
    (((steady.foldl (after narrow) initial).history "ip4:192.0.2.1").passed = 2 ∧
      ((steady.foldl (after narrow) initial).history "ip4:192.0.2.1").WithinBudget narrow) ∧
    ∃ l w, (runs l).Reachable w ∧ (w.history "ip4:192.0.2.1").calls = twice [1, 0, 1, 0] ∧
      (w.history "ip4:192.0.2.1").seen = (w.history "ip4:192.0.2.1").calls ∧
      ¬(w.history "ip4:192.0.2.1").WithinBudget l := by
  have hh : (steady.foldl (after narrow) initial).history "ip4:192.0.2.1" =
      ⟨[nanosPerSec, 0, 0], [nanosPerSec, nanosPerSec / 2, 0, 0], [], 2⟩ := by
    decide +kernel
  obtain ⟨hkept, hexceeded⟩ := tokenBucket_budget
    (reachable_foldl (.init rfl) steady) "ip4:192.0.2.1"
  refine ⟨⟨by rw [hh], hkept ?_⟩, hexceeded [1, 0, 1, 0] (by decide)⟩
  rw [hh]
  decide

/-- Calls from one address, each a second before or after the one before it. -/
def wobbling : List LimiterCall :=
  [⟨"ip4:192.0.2.1", nanosPerSec⟩, ⟨"ip4:192.0.2.1", 0⟩, ⟨"ip4:192.0.2.1", nanosPerSec⟩,
    ⟨"ip4:192.0.2.1", 0⟩, ⟨"ip4:192.0.2.1", nanosPerSec⟩]

/-- One call at once and one more a second let three through within a second. -/
theorem tokenBucket_wobbling : ∃ w, (runs (.new 1 1)).Reachable w ∧
    (w.history "ip4:192.0.2.1").calls = [nanosPerSec, 0, nanosPerSec, 0, nanosPerSec] ∧
    (w.history "ip4:192.0.2.1").passed = 3 ∧
    ¬(w.history "ip4:192.0.2.1").WithinBudget (.new 1 1) := by
  have hh : (wobbling.foldl (after (.new 1 1)) initial).history "ip4:192.0.2.1" =
      ⟨[nanosPerSec, 0, nanosPerSec, 0, nanosPerSec],
        [nanosPerSec, 0, nanosPerSec, 0, nanosPerSec], [], 3⟩ := by
    decide +kernel
  refine ⟨_, reachable_foldl (.init rfl) wobbling, by rw [hh], by rw [hh], ?_⟩
  rw [hh, KeyHistory.WithinBudget]
  decide +kernel

end Aitp
