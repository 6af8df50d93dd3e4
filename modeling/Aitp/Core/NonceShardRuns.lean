import Aitp.Core.NonceStoreExpiry
import Aitp.Core.NonceStoreRuns

/-! # The representation of a shard

A record that is consumed leaves its item in the heap, and its nonce may be issued again with
another expiry. Over any calls every record keeps an item of its own, the heap is rebuilt before
it outgrows the records, and a purge removes what has expired. Every shard of a store that threads
share is one that some calls leave.
-/

namespace Aitp

open Expiring Transition

/-- What a section of a call does to one shard. -/
inductive ShardCall where
  | purge (now : Timestamp)
  | insert (nonce : Nonce) (entry : Entry)
  | consume (nonce : Nonce) (verifier : Aid) (now : Timestamp)
  | sweep (now : Timestamp)

namespace NonceShard

/-- The shard after a call. -/
def next (s : NonceShard) : ShardCall → NonceShard
  | .purge now => (s.purge Entry.expiresAt now).1
  | .insert nonce entry => (insert s nonce entry).1
  | .consume nonce verifier now => (consume s nonce verifier now).1
  | .sweep now => compact (s.purge Entry.expiresAt now).1

/-- The shard that some calls leave of a new one. -/
def run (calls : List ShardCall) : NonceShard :=
  calls.foldl next .empty

/-- The heap has not outgrown the records. -/
def Trim (s : NonceShard) : Prop :=
  s.expiry.items.length ≤ 2 * s.size + 64

/-- What holds of a shard between its calls: each record has its item, an insertion and a removal
leave the heap trimmed, and a purge removes and counts the records that have expired. -/
structure Represented (s : NonceShard) : Prop where
  item : ∀ n e, s.map.lookup n = some e → (e.expiresAt, n) ∈ s.expiry.items
  inserted : ∀ n e, (insert s n e).2 = true → Trim (insert s n e).1
  removed : ∀ n verifier now, (consume s n verifier now).2.1 ≠ .unknown →
    Trim (consume s n verifier now).1
  purged : ∀ now n e, (s.purge Entry.expiresAt now).1.map.lookup n = some e ↔
    s.map.lookup n = some e ∧ now ≤ e.expiresAt
  count : ∀ now, (s.purge Entry.expiresAt now).2 =
    s.map.entries.countP fun r => decide (r.2.expiresAt < now)

variable {s : NonceShard} {n : Nonce}

theorem trim_compact (s : NonceShard) : Trim (compact s) := by
  unfold Trim Shard.size
  rw [map_compact]
  unfold compact
  split_ifs with h
  · rw [Heap.length_ofItems, List.length_map]
    omega
  · exact not_lt.mp h

theorem trim_insert {e : Entry} (h : (insert s n e).2 = true) : Trim (insert s n e).1 := by
  unfold insert at h ⊢
  split_ifs at h ⊢
  exact trim_compact _

theorem trim_consume {verifier : Aid} {now : Timestamp}
    (h : (consume s n verifier now).2.1 ≠ .unknown) : Trim (consume s n verifier now).1 := by
  unfold consume at h ⊢
  cases hl : s.map.lookup n with
  | none => simp [hl] at h
  | some e =>
    simp only [hl] at h ⊢
    split_ifs at h ⊢
    · exact absurd rfl h
    · exact trim_compact _
    · exact trim_compact _

theorem covers_next (h : Shard.Covers Entry.expiresAt s.expiry.items s.map) (c : ShardCall) :
    Shard.Covers Entry.expiresAt (next s c).expiry.items (next s c).map := by
  cases c with
  | purge now => exact Shard.covers_purge h now
  | insert nonce entry => exact covers_insert h entry
  | consume nonce verifier now => exact covers_consume h verifier now
  | sweep now => exact covers_compact (Shard.covers_purge h now)

theorem covers_foldl (h : Shard.Covers Entry.expiresAt s.expiry.items s.map)
    (calls : List ShardCall) : Shard.Covers Entry.expiresAt (calls.foldl next s).expiry.items
      (calls.foldl next s).map := by
  induction calls generalizing s with
  | nil => exact h
  | cons c calls ih =>
    apply ih
    exact covers_next h c

theorem covers_run (calls : List ShardCall) :
    Shard.Covers Entry.expiresAt (run calls).expiry.items (run calls).map := by
  apply covers_foldl
  rintro _ _ ⟨⟩

theorem represented_of_covers (h : Shard.Covers Entry.expiresAt s.expiry.items s.map) :
    Represented s where
  item := h
  inserted _ _ := trim_insert
  removed _ _ _ := trim_consume
  purged _ _ _ := Shard.lookup_purge_iff h
  count now := Shard.count_purge h now

/-- Every shard is represented, whatever calls led to it. -/
theorem represented_run (calls : List ShardCall) : Represented (run calls) :=
  represented_of_covers (covers_run calls)

theorem next_run (calls : List ShardCall) (c : ShardCall) :
    next (run calls) c = run (calls ++ [c]) := by
  rw [run, run, List.foldl_append]
  rfl

end NonceShard

/-! ## The shards of a store -/

variable {cfg : NonceStoreConfig} {st st' : InMemoryNonceStore} {i : ℕ}

theorem shards_setShard {j : ℕ} {c : ShardCall} {s : NonceShard}
    (hs : s = NonceShard.next (st.shards j) c) :
    (st.setShard j s).shards i = st.shards i ∨
      ∃ c, (st.setShard j s).shards i = NonceShard.next (st.shards i) c := by
  by_cases hi : i = j
  · subst hi
    right
    refine ⟨c, ?_⟩
    exact (Function.update_self ..).trans hs
  · left
    exact Function.update_of_ne hi ..

theorem shards_step {serial : ℕ} {pc pc' : Pc} (h : pc.step cfg st serial = some (st', pc')) :
    st'.shards i = st.shards i ∨ ∃ c, st'.shards i = NonceShard.next (st.shards i) c := by
  cases pc with
  | idle => cases h
  | returned r => cases h
  | issuePurge rec =>
    simp only [Pc.step, Option.some.injEq, Prod.mk.injEq] at h
    rw [← h.1]
    exact shards_setShard (c := .purge rec.issuedAt) rfl
  | issueInsert rec =>
    simp only [Pc.step, Option.some.injEq, Prod.mk.injEq] at h
    rw [← h.1]
    exact shards_setShard (c := .insert rec.nonce ⟨rec.verifier, rec.expiresAt, serial⟩) rfl
  | consumeSection nonce verifier now =>
    simp only [Pc.step, Option.some.injEq, Prod.mk.injEq] at h
    rw [← h.1]
    exact shards_setShard (c := .consume nonce verifier now) rfl
  | sweepShard now j removed earliest rec =>
    simp only [Pc.step] at h
    split_ifs at h with hj
    · obtain ⟨rfl, -⟩ := Prod.mk.inj (Option.some.inj h)
      exact shards_setShard (c := .sweep now) rfl
    · obtain ⟨rfl, -⟩ := Prod.mk.inj (Option.some.inj h)
      exact .inl rfl
  | issueReserve rec =>
    simp only [Pc.step, Option.some.injEq, Prod.mk.injEq] at h
    left
    rw [← h.1]
    unfold InMemoryNonceStore.tryReserve
    split_ifs <;> rfl
  | issueReserveAgain rec =>
    simp only [Pc.step, Option.some.injEq, Prod.mk.injEq] at h
    left
    rw [← h.1]
    unfold InMemoryNonceStore.tryReserve
    split_ifs <;> rfl
  | _ =>
    simp only [Pc.step, Option.some.injEq, Prod.mk.injEq] at h
    left
    exact h.1 ▸ rfl

theorem shards_of_reachable {w : NonceWorld} (h : (NonceWorld.interleaving cfg).Reachable w)
    (i : ℕ) : ∃ calls, w.store.shards i = NonceShard.run calls := by
  refine h.invariant (I := fun w => ∃ calls, w.store.shards i = NonceShard.run calls) ?_ ?_
  · rintro w rfl
    exact ⟨[], rfl⟩
  · intro w ev w' ⟨calls, hc⟩ hstep
    cases ev with
    | call t c =>
      refine ⟨calls, ?_⟩
      rw [(next_call hstep).1]
      exact hc
    | run t =>
      obtain ⟨⟨st', pc'⟩, hp, rfl⟩ := Option.map_eq_some_iff.mp hstep
      rcases shards_step (i := i) hp with hs | ⟨c, hs⟩
      · exact ⟨calls, hs.trans hc⟩
      · refine ⟨calls ++ [c], hs.trans ?_⟩
        rw [hc, NonceShard.next_run]

theorem represented_of_reachable {w : NonceWorld}
    (h : (NonceWorld.interleaving cfg).Reachable w) (i : ℕ) :
    NonceShard.Represented (w.store.shards i) := by
  obtain ⟨calls, hc⟩ := shards_of_reachable h i
  rw [hc]
  exact NonceShard.represented_of_covers (NonceShard.covers_run calls)

end Aitp
