import Aitp.Core.Identifiers
import Aitp.Core.Time
import Aitp.Foundation.ExpiringMap
import Aitp.Foundation.Tickets

/-! # The nonce store

`core/nonce_store.rs`: outstanding challenge nonces in sharded maps, each with a
heap of expiries, and a bound on how many are held. A call is a sequence of
critical sections and atomic operations, each its own definition.
-/

namespace Aitp

open Expiring

def nonceLen : ℕ := 16

/-- A raw challenge nonce. -/
structure Nonce where
  bytes : Bytes
  length_eq : bytes.length = nonceLen
  deriving DecidableEq

theorem length_zeroes : (List.replicate 16 (0 : UInt8)).length = nonceLen :=
  rfl

structure IssuedNonce where
  nonce : Nonce
  verifier : Aid
  issuedAt : Timestamp
  expiresAt : Timestamp

inductive ConsumeOutcome where
  | consumed
  | unknown
  | expired
  deriving DecidableEq

/-- `NonceStoreError`; `retryAfter` counts seconds. -/
inductive NonceStoreError where
  | atCapacity (capacity : ℕ) (retryAfter : Option ℕ)
  | duplicate
  deriving DecidableEq

/-- `Entry`. The serial number tells records apart and is never read by the store. -/
structure Entry where
  verifier : Aid
  expiresAt : Timestamp
  serial : ℕ
  deriving DecidableEq

/-- `Shard`. -/
abbrev NonceShard := Shard Timestamp Nonce Entry

namespace NonceShard

def compact (s : NonceShard) : NonceShard :=
  if 2 * s.map.entries.length + 64 < s.expiry.items.length then
    { s with expiry := .ofItems (s.map.entries.map fun r => (r.2.expiresAt, r.1)) }
  else s

def earliest (s : NonceShard) : Option Timestamp :=
  s.expiry.items.head?.map Prod.fst

/-- The last critical section of `issue_sync`: whether the record was inserted. -/
def insert (s : NonceShard) (nonce : Nonce) (entry : Entry) : NonceShard × Bool :=
  if (s.map.lookup nonce).isSome then (s, false)
  else
    (compact ⟨s.map.insert nonce entry, s.expiry.push (entry.expiresAt, nonce)⟩, true)

/-- The critical section of `consume_sync`: the outcome, and how many records are to be
released. -/
def consume (s : NonceShard) (nonce : Nonce) (verifier : Aid) (now : Timestamp) :
    NonceShard × ConsumeOutcome × ℕ :=
  let purged := s.purge Entry.expiresAt now
  match s.map.lookup nonce with
  | none => (purged.1, .unknown, purged.2)
  | some e =>
    if e.verifier ≠ verifier then (purged.1, .unknown, purged.2)
    else
      (compact { s with map := s.map.erase nonce },
        if e.expiresAt.isInThePast now then .expired else .consumed, 1)

@[simp] theorem map_compact (s : NonceShard) : (compact s).map = s.map := by
  unfold compact
  split_ifs <;> rfl

theorem map_insert_of_true {s : NonceShard} {n : Nonce} {e : Entry}
    (h : (insert s n e).2 = true) :
    s.map.lookup n = none ∧ (insert s n e).1.map = s.map.insert n e := by
  unfold insert at h ⊢
  split_ifs at h ⊢ with hs
  rw [Option.isSome_iff_ne_none, not_not] at hs
  exact ⟨hs, map_compact _⟩

theorem insert_of_false {s : NonceShard} {n : Nonce} {e : Entry}
    (h : (insert s n e).2 = false) : (insert s n e).1 = s := by
  unfold insert at h ⊢
  split_ifs at h ⊢
  rfl

/-- What a `consume` can do: remove the record it names, or purge. -/
theorem consume_cases (s : NonceShard) (n : Nonce) (verifier : Aid) (now : Timestamp) :
    (∃ e, s.map.lookup n = some e ∧ e.verifier = verifier ∧
      (consume s n verifier now).1.map = s.map.erase n ∧
      (consume s n verifier now).2.1 =
        if e.expiresAt.isInThePast now then .expired else .consumed) ∨
    (consume s n verifier now).1 = (s.purge Entry.expiresAt now).1 ∧
      (consume s n verifier now).2.1 = .unknown := by
  unfold consume
  cases hl : s.map.lookup n with
  | none => exact .inr ⟨rfl, rfl⟩
  | some e =>
    simp only
    split_ifs with hv hp
    · exact .inr ⟨rfl, rfl⟩
    · exact .inl ⟨e, rfl, not_not.mp hv, map_compact _, by rw [if_pos hp]⟩
    · exact .inl ⟨e, rfl, not_not.mp hv, map_compact _, by rw [if_neg hp]⟩

end NonceShard

/-- `InMemoryNonceStore`; the shard count and the hasher are in `NonceStoreConfig`. -/
structure InMemoryNonceStore where
  shards : ℕ → NonceShard
  outstanding : ℕ
  lastSweep : Timestamp
  nextExpiry : Timestamp
  fullSweeps : ℕ

/-- The fixed parts of a store. -/
structure NonceStoreConfig where
  shards : ℕ
  capacity : ℕ
  hash : Nonce → ℕ

/-- The values of a `usize`. -/
def usizeSize : ℕ := 2 ^ 64

/-- `AtomicUsize::fetch_sub`, which wraps. -/
def fetchSub (n k : ℕ) : ℕ :=
  if k ≤ n then n - k else n + usizeSize - k

theorem fetchSub_of_le {n k : ℕ} (h : k ≤ n) : fetchSub n k + k = n := by
  rw [fetchSub, if_pos h, Nat.sub_add_cancel h]

namespace InMemoryNonceStore

variable (cfg : NonceStoreConfig) (st : InMemoryNonceStore)

/-- `InMemoryNonceStore::with_shards`. -/
def new : InMemoryNonceStore where
  shards _ := .empty
  outstanding := 0
  lastSweep := i64Min
  nextExpiry := i64Max
  fullSweeps := 0

/-- The index of the shard of a nonce. -/
def shardOf (nonce : Nonce) : ℕ :=
  cfg.hash nonce % max cfg.shards 1

/-- Replace a shard. -/
def setShard (i : ℕ) (s : NonceShard) : InMemoryNonceStore :=
  { st with shards := Function.update st.shards i s }

def release (n : ℕ) : InMemoryNonceStore :=
  { st with outstanding := fetchSub st.outstanding n }

def tryReserve : InMemoryNonceStore × Bool :=
  if st.outstanding < cfg.capacity then ({ st with outstanding := st.outstanding + 1 }, true)
  else (st, false)

/-- `last_sweep.fetch_max(now) < now`. -/
def claimSweep (now : Timestamp) : InMemoryNonceStore × Bool :=
  ({ st with lastSweep := max st.lastSweep now }, decide (st.lastSweep < now))

/-- The section of `sweep` on one shard: what is removed, and the earliest expiry left. -/
def sweepShard (i : ℕ) (now : Timestamp) : InMemoryNonceStore × ℕ × Option Timestamp :=
  let p := (st.shards i).purge Entry.expiresAt now
  let s := NonceShard.compact p.1
  (st.setShard i s, p.2, NonceShard.earliest s)

/-- `retry_after`, in seconds. -/
def retryAfter (now : Timestamp) : Option ℕ :=
  if st.nextExpiry = i64Max then none
  else some (max (saturate (saturate (st.nextExpiry + 1) - now)) 1).toNat

/-- The first section of `issue_sync`. -/
def issuePurge (rec : IssuedNonce) : InMemoryNonceStore × ℕ :=
  let p := (st.shards (shardOf cfg rec.nonce)).purge Entry.expiresAt rec.issuedAt
  (st.setShard (shardOf cfg rec.nonce) p.1, p.2)

/-- The last section of `issue_sync`. -/
def issueInsert (rec : IssuedNonce) (serial : ℕ) : InMemoryNonceStore × Bool :=
  let p := NonceShard.insert (st.shards (shardOf cfg rec.nonce)) rec.nonce
    ⟨rec.verifier, rec.expiresAt, serial⟩
  (st.setShard (shardOf cfg rec.nonce) p.1, p.2)

/-- The section of `consume_sync`. -/
def consumeSection (nonce : Nonce) (verifier : Aid) (now : Timestamp) :
    InMemoryNonceStore × ConsumeOutcome × ℕ :=
  let p := NonceShard.consume (st.shards (shardOf cfg nonce)) nonce verifier now
  (st.setShard (shardOf cfg nonce) p.1, p.2)

/-- The section of `consume_sync` and its release. -/
def consumeSync (nonce : Nonce) (verifier : Aid) (now : Timestamp) :
    InMemoryNonceStore × ConsumeOutcome :=
  let (st, outcome, freed) := st.consumeSection cfg nonce verifier now
  (st.release freed, outcome)

/-- The loop of `sweep` over some shards: what was removed, and the earliest expiry left. -/
def sweepLoop (now : Timestamp) :
    List ℕ → InMemoryNonceStore → ℕ → Timestamp → InMemoryNonceStore × ℕ × Timestamp
  | [], st, removed, earliest => (st, removed, earliest)
  | i :: is, st, removed, earliest =>
    let (st, n, first) := st.sweepShard i now
    sweepLoop now is st (removed + n) (first.elim earliest (min earliest))

/-- `sweep`, less the count it returns. -/
def sweep (now : Timestamp) : InMemoryNonceStore :=
  let (st, removed, earliest) := sweepLoop now (List.range (max cfg.shards 1)) st 0 i64Max
  { st.release removed with nextExpiry := earliest }

/-- `reserve`: whether a slot was reserved. -/
def reserve (now : Timestamp) : InMemoryNonceStore × Bool :=
  let (st, reserved) := st.tryReserve cfg
  if reserved then (st, true)
  else
    let (st, claimed) := st.claimSweep now
    if claimed then (({ st with fullSweeps := st.fullSweeps + 1 }).sweep cfg now).tryReserve cfg
    else (st, false)

def issueSync (rec : IssuedNonce) (serial : ℕ) :
    InMemoryNonceStore × Except NonceStoreError Unit :=
  let (st, freed) := st.issuePurge cfg rec
  let (st, reserved) := (st.release freed).reserve cfg rec.issuedAt
  if reserved then
    let (st, inserted) := st.issueInsert cfg rec serial
    if inserted then ({ st with nextExpiry := min st.nextExpiry rec.expiresAt }, .ok ())
    else (st.release 1, .error .duplicate)
  else (st, .error (.atCapacity cfg.capacity (st.retryAfter rec.issuedAt)))

/-- The record held under a nonce. -/
def held : Nonce → Option Entry :=
  Expiring.held (shardOf cfg) st.shards

variable {cfg st}

theorem thins_issuePurge (rec : IssuedNonce) :
    Thins (st.held cfg) ((st.issuePurge cfg rec).1.held cfg) fun _ e =>
      e.expiresAt < rec.issuedAt :=
  thins_update_purge rfl

theorem thins_sweepShard (i : ℕ) (now : Timestamp) :
    Thins (st.held cfg) ((st.sweepShard i now).1.held cfg) fun _ e => e.expiresAt < now :=
  thins_update_purge (NonceShard.map_compact _)

theorem issueInsert_of_true {rec : IssuedNonce} {serial : ℕ}
    (h : (st.issueInsert cfg rec serial).2 = true) :
    st.held cfg rec.nonce = none ∧ (st.issueInsert cfg rec serial).1.held cfg =
      Function.update (st.held cfg) rec.nonce (some ⟨rec.verifier, rec.expiresAt, serial⟩) := by
  obtain ⟨hn, hm⟩ := NonceShard.map_insert_of_true h
  exact ⟨hn, held_update_insert hm⟩

theorem issueInsert_of_false {rec : IssuedNonce} {serial : ℕ}
    (h : (st.issueInsert cfg rec serial).2 = false) :
    (st.issueInsert cfg rec serial).1.held cfg = st.held cfg :=
  held_update_of_map (congrArg Shard.map (NonceShard.insert_of_false h))

/-- What a `consume` section can do: remove the record it names, or remove expired ones. -/
theorem consumeSection_cases (nonce : Nonce) (verifier : Aid) (now : Timestamp) :
    (∃ e, st.held cfg nonce = some e ∧ e.verifier = verifier ∧
      (st.consumeSection cfg nonce verifier now).1.held cfg =
        Function.update (st.held cfg) nonce none ∧
      (st.consumeSection cfg nonce verifier now).2.1 =
        if e.expiresAt.isInThePast now then .expired else .consumed) ∨
    Thins (st.held cfg) ((st.consumeSection cfg nonce verifier now).1.held cfg)
        (fun _ e => e.expiresAt < now) ∧
      (st.consumeSection cfg nonce verifier now).2.1 = .unknown := by
  rcases NonceShard.consume_cases (st.shards (shardOf cfg nonce)) nonce verifier now with
    ⟨e, he, hv, hm, ho⟩ | ⟨hs, ho⟩
  · exact .inl ⟨e, he, hv, held_update_erase hm, ho⟩
  · exact .inr ⟨thins_update_purge (congrArg Shard.map hs), ho⟩

@[simp] theorem held_release (n : ℕ) : (st.release n).held cfg = st.held cfg := rfl

@[simp] theorem held_tryReserve : (st.tryReserve cfg).1.held cfg = st.held cfg := by
  unfold tryReserve
  split_ifs <;> rfl

theorem thins_sweepLoop (now : Timestamp) (is : List ℕ) (removed : ℕ) (earliest : Timestamp) :
    Thins (st.held cfg) ((sweepLoop now is st removed earliest).1.held cfg)
      fun _ e => e.expiresAt < now := by
  induction is generalizing st removed earliest with
  | nil => exact .of_eq rfl
  | cons i is ih => exact (thins_sweepShard i now).trans (ih _ _)

theorem thins_reserve (now : Timestamp) :
    Thins (st.held cfg) ((st.reserve cfg now).1.held cfg) fun _ e => e.expiresAt < now := by
  unfold reserve
  simp only
  split_ifs
  · exact .of_eq held_tryReserve
  · rw [held_tryReserve]
    let swept := ((st.tryReserve cfg).1.claimSweep now).1
    have hs := @thins_sweepLoop cfg { swept with fullSweeps := swept.fullSweeps + 1 } now
      (List.range (max cfg.shards 1)) 0 i64Max
    exact Thins.trans (.of_eq held_tryReserve) hs
  · exact .of_eq held_tryReserve

/-- What `issue_sync` does: it drops expired records, then either inserts the record under a vacant
nonce, or leaves it. -/
theorem issueSync_cases (rec : IssuedNonce) (serial : ℕ) :
    ∃ held₁, Thins (st.held cfg) held₁ (fun _ e => e.expiresAt < rec.issuedAt) ∧
      ((st.issueSync cfg rec serial).2 = .ok () ∧ held₁ rec.nonce = none ∧
          (st.issueSync cfg rec serial).1.held cfg =
            Function.update held₁ rec.nonce (some ⟨rec.verifier, rec.expiresAt, serial⟩) ∨
        (st.issueSync cfg rec serial).2 ≠ .ok () ∧
          (st.issueSync cfg rec serial).1.held cfg = held₁) := by
  have hr := @thins_reserve cfg ((st.issuePurge cfg rec).1.release (st.issuePurge cfg rec).2)
    rec.issuedAt
  refine ⟨_, (thins_issuePurge rec).trans hr, ?_⟩
  unfold issueSync
  simp only
  split_ifs with hr hi
  · obtain ⟨hn, hu⟩ := issueInsert_of_true hi
    exact .inl ⟨rfl, hn, hu⟩
  · exact .inr ⟨by simp, issueInsert_of_false (by simpa using hi)⟩
  · exact .inr ⟨by simp, rfl⟩

/-- What a `consume` leaves was held before it. -/
theorem held_of_held_consumeSync {nonce n : Nonce} {verifier : Aid} {now : Timestamp} {e : Entry}
    (h : (st.consumeSync cfg nonce verifier now).1.held cfg n = some e) :
    st.held cfg n = some e := by
  have h' : (st.consumeSection cfg nonce verifier now).1.held cfg n = some e := h
  rcases @consumeSection_cases cfg st nonce verifier now with
    ⟨_, -, -, hu, -⟩ | ⟨ht, -⟩
  · rw [hu] at h'
    by_cases hn : n = nonce
    · subst hn
      simp at h'
    · rwa [Function.update_of_ne hn] at h'
  · exact ht.kept h'

/-! ## The tickets of a store -/

open Transition Tickets

variable {serial : ℕ} {redeemed : List Entry}

theorem run_of_thins {h₀ h₁ : Nonce → Option Entry} {why : Nonce → Entry → Prop}
    (h : Thins h₀ h₁ why) :
    (tickets Entry.serial).Run ⟨h₀, serial, redeemed⟩ ⟨h₁, serial, redeemed⟩ :=
  System.Run.single (e := .lapse h₁) ⟨fun _ _ hk => h.kept hk, rfl⟩

theorem run_issueInsert (rec : IssuedNonce) :
    (tickets Entry.serial).Run ⟨st.held cfg, serial, redeemed⟩
      ⟨(st.issueInsert cfg rec serial).1.held cfg,
        if (st.issueInsert cfg rec serial).2 then serial + 1 else serial, redeemed⟩ := by
  cases hi : (st.issueInsert cfg rec serial).2 with
  | true =>
    obtain ⟨hn, hu⟩ := issueInsert_of_true hi
    rw [hu]
    exact System.Run.single (e := .issue rec.nonce ⟨rec.verifier, rec.expiresAt, serial⟩)
      ⟨hn, rfl, rfl⟩
  | false =>
    rw [issueInsert_of_false hi]
    exact .refl

theorem run_issueSync (rec : IssuedNonce) :
    (tickets Entry.serial).Run ⟨st.held cfg, serial, redeemed⟩
      ⟨(st.issueSync cfg rec serial).1.held cfg,
        if (st.issueSync cfg rec serial).2 = .ok () then serial + 1 else serial, redeemed⟩ := by
  obtain ⟨held₁, ht, ⟨hr, hn, hu⟩ | ⟨hr, hu⟩⟩ := @issueSync_cases cfg st rec serial
  · rw [if_pos hr, hu]
    exact (run_of_thins ht).trans (System.Run.single
      (e := .issue rec.nonce ⟨rec.verifier, rec.expiresAt, serial⟩) ⟨hn, rfl, rfl⟩)
  · rw [if_neg hr, hu]
    exact run_of_thins ht

/-- A record consumed before it expired is a ticket redeemed. -/
theorem run_consumeSection (nonce : Nonce) (verifier : Aid) (now : Timestamp) :
    (tickets Entry.serial).Run ⟨st.held cfg, serial, redeemed⟩
      ⟨(st.consumeSection cfg nonce verifier now).1.held cfg, serial,
        (if (st.consumeSection cfg nonce verifier now).2.1 = .consumed then st.held cfg nonce
          else none).toList ++ redeemed⟩ := by
  rcases @consumeSection_cases cfg st nonce verifier now with
    ⟨e, he, -, hu, ho⟩ | ⟨ht, ho⟩
  · rw [hu, ho, he]
    cases hx : Timestamp.isInThePast e.expiresAt now with
    | true =>
      refine System.Run.single (e := .lapse _) ⟨fun k r hk => ?_, rfl⟩
      by_cases hkn : k = nonce
      · subst hkn
        simp at hk
      · rwa [Function.update_of_ne hkn] at hk
    | false => exact System.Run.single (e := .redeem nonce e) ⟨he, rfl⟩
  · rw [ho]
    exact run_of_thins ht

/-- The record a `consume` consumes was held for its verifier and had not expired. -/
theorem held_of_consumed {nonce : Nonce} {verifier : Aid} {now : Timestamp}
    (h : (st.consumeSection cfg nonce verifier now).2.1 = .consumed) :
    ∃ e, st.held cfg nonce = some e ∧ e.verifier = verifier ∧ now ≤ e.expiresAt := by
  rcases @consumeSection_cases cfg st nonce verifier now with
    ⟨e, he, hv, -, ho⟩ | ⟨-, ho⟩
  · refine ⟨e, he, hv, ?_⟩
    cases hx : Timestamp.isInThePast e.expiresAt now with
    | true => simp [ho, hx] at h
    | false => exact Timestamp.isInThePast_eq_false.mp hx
  · simp [ho] at h

end InMemoryNonceStore

end Aitp
