import Aitp.Core.NonceStore

/-! # The message identifier deny list

`handshake/admission/deny_list.rs`: the identifiers of admitted presentations,
each recorded until its envelope is too old to be presented again.
-/

namespace Aitp

open Expiring

inductive DenyListError where
  | atCapacity (capacity : ℕ)
  deriving DecidableEq

/-- `InMemoryMessageIdDenyList`; the shard count, the capacity and the hasher are in
`DenyListConfig`. A record is the last second it is kept. -/
structure InMemoryMessageIdDenyList where
  shards : ℕ → Shard Timestamp Uuid Timestamp
  live : ℕ

/-- The fixed parts of a deny list. -/
structure DenyListConfig where
  shards : ℕ
  capacity : ℕ
  hash : Uuid → ℕ

namespace InMemoryMessageIdDenyList

variable (cfg : DenyListConfig) (l : InMemoryMessageIdDenyList)

def new : InMemoryMessageIdDenyList := ⟨fun _ => .empty, 0⟩

/-- The index of the shard of an identifier. -/
def shardOf (mid : Uuid) : ℕ :=
  cfg.hash mid % max cfg.shards 1

/-- The record of an identifier. -/
def held : Uuid → Option Timestamp :=
  Expiring.held (shardOf cfg) l.shards

/-- Purge one shard. -/
def purgeShard (i : ℕ) (now : Timestamp) : InMemoryMessageIdDenyList × ℕ :=
  let p := (l.shards i).purge id now
  ({ l with shards := Function.update l.shards i p.1 }, p.2)

/-- The loop of `sweep` over some shards, and how many records it removed. -/
def sweepLoop (now : Timestamp) : List ℕ → InMemoryMessageIdDenyList → ℕ →
    InMemoryMessageIdDenyList × ℕ
  | [], l, removed => (l, removed)
  | i :: is, l, removed =>
    let (l, n) := l.purgeShard i now
    sweepLoop now is l (removed + n)

def sweep (now : Timestamp) : InMemoryMessageIdDenyList :=
  let (l, removed) := sweepLoop now (List.range (max cfg.shards 1)) l 0
  { l with live := fetchSub l.live removed }

/-- The purge that begins `contains_sync` and `insert_sync`. -/
def touch (mid : Uuid) (now : Timestamp) : InMemoryMessageIdDenyList :=
  let (l, removed) := l.purgeShard (shardOf cfg mid) now
  { l with live := fetchSub l.live removed }

/-- The end of `insert_sync`, which records the identifier. -/
def record (mid : Uuid) (expiry : Timestamp) : InMemoryMessageIdDenyList :=
  let s := l.shards (shardOf cfg mid)
  ⟨Function.update l.shards (shardOf cfg mid) ⟨s.map.insert mid expiry, s.expiry.push (expiry, mid)⟩,
    l.live + 1⟩

def containsSync (mid : Uuid) (now : Timestamp) : InMemoryMessageIdDenyList × Bool :=
  let l := l.touch cfg mid now
  (l, (l.held cfg mid).isSome)

def insertSync (mid : Uuid) (expiry now : Timestamp) :
    InMemoryMessageIdDenyList × Except DenyListError Bool :=
  let l := l.touch cfg mid now
  if (l.held cfg mid).isSome then (l, .ok false)
  else if cfg.capacity ≤ l.live then
    let l := l.sweep cfg now
    if cfg.capacity ≤ l.live then (l, .error (.atCapacity cfg.capacity))
    else if (l.held cfg mid).isSome then (l, .ok false)
    else (l.record cfg mid expiry, .ok true)
  else (l.record cfg mid expiry, .ok true)

variable {cfg l}

theorem thins_purgeShard (i : ℕ) (now : Timestamp) :
    Thins (l.held cfg) ((l.purgeShard i now).1.held cfg) fun _ u => u < now :=
  thins_update_purge rfl

theorem thins_touch (mid : Uuid) (now : Timestamp) :
    Thins (l.held cfg) ((l.touch cfg mid now).held cfg) fun _ u => u < now :=
  thins_purgeShard (shardOf cfg mid) now

theorem thins_sweepLoop (now : Timestamp) (is : List ℕ) (removed : ℕ) :
    Thins (l.held cfg) ((sweepLoop now is l removed).1.held cfg) fun _ u => u < now := by
  induction is generalizing l removed with
  | nil => exact .of_eq rfl
  | cons i is ih => exact (thins_purgeShard i now).trans (ih _)

theorem thins_sweep (now : Timestamp) :
    Thins (l.held cfg) ((l.sweep cfg now).held cfg) fun _ u => u < now :=
  thins_sweepLoop now _ 0

theorem held_record (mid : Uuid) (expiry : Timestamp) :
    (l.record cfg mid expiry).held cfg = Function.update (l.held cfg) mid (some expiry) :=
  held_update_insert rfl

/-- What `insert_sync` does: it drops expired records, then either records the identifier, which
was not held, or leaves it. -/
theorem insertSync_cases (mid : Uuid) (expiry now : Timestamp) :
    ∃ held₁, Thins (l.held cfg) held₁ (fun _ u => u < now) ∧
      ((l.insertSync cfg mid expiry now).2 = .ok true ∧ held₁ mid = none ∧
          (l.insertSync cfg mid expiry now).1.held cfg =
            Function.update held₁ mid (some expiry) ∨
        (l.insertSync cfg mid expiry now).2 ≠ .ok true ∧
          (l.insertSync cfg mid expiry now).1.held cfg = held₁) := by
  have ht := @thins_touch cfg l mid now
  have hs := ht.trans (@thins_sweep cfg (l.touch cfg mid now) now)
  unfold insertSync
  simp only
  split_ifs with h₁ h₂ h₃ h₄
  · exact ⟨_, ht, .inr ⟨by simp, rfl⟩⟩
  · exact ⟨_, hs, .inr ⟨by simp, rfl⟩⟩
  · exact ⟨_, hs, .inr ⟨by simp, rfl⟩⟩
  · exact ⟨_, hs, .inl ⟨rfl, by simpa using h₄, held_record mid expiry⟩⟩
  · exact ⟨_, ht, .inl ⟨rfl, by simpa using h₁, held_record mid expiry⟩⟩

end InMemoryMessageIdDenyList

end Aitp
