import Aitp.Core.NonceStore
import Aitp.Foundation.ExpiringCounts

/-! # The expiry heaps of the nonce store

Every record has an item in the heap of its shard and is in the shard of its nonce, after
each section of a call. A purge then leaves no expired record in its shard, and the first
item of a heap is no later than any record of its shard expires.
-/

namespace Aitp

open Expiring InMemoryNonceStore

namespace NonceShard

variable {s : NonceShard} {n : Nonce}

theorem covers_compact (h : Shard.Covers Entry.expiresAt s.expiry.items s.map) :
    Shard.Covers Entry.expiresAt (compact s).expiry.items (compact s).map := by
  unfold compact
  split_ifs
  · exact covers_ofItems s.map
  · exact h

theorem covers_insert (h : Shard.Covers Entry.expiresAt s.expiry.items s.map) (e : Entry) :
    Shard.Covers Entry.expiresAt (insert s n e).1.expiry.items (insert s n e).1.map := by
  unfold insert
  split_ifs
  · exact h
  · exact covers_compact (Expiring.covers_insert h)

theorem covers_consume (h : Shard.Covers Entry.expiresAt s.expiry.items s.map) (verifier : Aid)
    (now : Timestamp) : Shard.Covers Entry.expiresAt (consume s n verifier now).1.expiry.items
      (consume s n verifier now).1.map := by
  unfold consume
  cases s.map.lookup n with
  | none => exact Shard.covers_purge h now
  | some e =>
    simp only
    split_ifs
    · exact Shard.covers_purge h now
    · exact covers_compact (covers_erase n h)
    · exact covers_compact (covers_erase n h)

theorem lookup_purge {now : Timestamp} {e : Entry}
    (h : (s.purge Entry.expiresAt now).1.map.lookup n = some e) : s.map.lookup n = some e :=
  (Shard.thins_purgeLoop Entry.expiresAt now s.expiry.items s.map).kept h

theorem lookup_insert {m : Nonce} {e e' : Entry}
    (h : (insert s m e).1.map.lookup n = some e') :
    n = m ∧ e' = e ∨ s.map.lookup n = some e' := by
  cases hi : (insert s m e).2 with
  | true =>
    rw [(map_insert_of_true hi).2] at h
    by_cases hn : n = m
    · subst hn
      rw [AList.lookup_insert] at h
      exact .inl ⟨rfl, (Option.some.inj h).symm⟩
    · rw [AList.lookup_insert_ne hn] at h
      exact .inr h
  | false =>
    rw [insert_of_false hi] at h
    exact .inr h

theorem lookup_consume {m : Nonce} {verifier : Aid} {now : Timestamp} {e : Entry}
    (h : (consume s m verifier now).1.map.lookup n = some e) : s.map.lookup n = some e := by
  rcases consume_cases s m verifier now with ⟨e', -, -, hm, -⟩ | ⟨hs, -⟩
  · rw [hm] at h
    by_cases hn : n = m
    · subst hn
      rw [AList.lookup_erase] at h
      cases h
    · rwa [AList.lookup_erase_ne hn] at h
  · rw [hs] at h
    exact lookup_purge h

theorem earliest_le (h : Shard.Covers Entry.expiresAt s.expiry.items s.map) {e : Entry}
    (he : s.map.lookup n = some e) : ∃ first, earliest s = some first ∧ first ≤ e.expiresAt :=
  h.head_le he

end NonceShard

namespace InMemoryNonceStore

variable {cfg : NonceStoreConfig} {st : InMemoryNonceStore}

/-- Every record has an item in the heap of its shard, and is in the shard of its nonce. -/
structure Filed (cfg : NonceStoreConfig) (st : InMemoryNonceStore) : Prop where
  covers : ∀ i, Shard.Covers Entry.expiresAt (st.shards i).expiry.items (st.shards i).map
  home : ∀ i n e, (st.shards i).map.lookup n = some e → shardOf cfg n = i

theorem filed_new : Filed cfg .new where
  covers := by
    rintro i n e ⟨⟩
  home := by
    rintro i n e ⟨⟩

namespace Filed

theorem setShard (h : Filed cfg st) {i : ℕ} {s : NonceShard}
    (hc : Shard.Covers Entry.expiresAt s.expiry.items s.map)
    (hk : ∀ n e, s.map.lookup n = some e → shardOf cfg n = i) : Filed cfg (st.setShard i s) := by
  constructor
  · intro j
    by_cases hj : j = i
    · subst hj
      simp only [InMemoryNonceStore.setShard, Function.update_self]
      exact hc
    · simp only [InMemoryNonceStore.setShard, Function.update_of_ne hj]
      exact h.covers j
  · intro j n e he
    by_cases hj : j = i
    · subst hj
      simp only [InMemoryNonceStore.setShard, Function.update_self] at he
      exact hk n e he
    · simp only [InMemoryNonceStore.setShard, Function.update_of_ne hj] at he
      exact h.home j n e he

theorem issuePurge (h : Filed cfg st) (rec : IssuedNonce) :
    Filed cfg (st.issuePurge cfg rec).1 := by
  apply h.setShard
  · exact Shard.covers_purge (h.covers _) rec.issuedAt
  · intro n e he
    exact h.home _ n e (NonceShard.lookup_purge he)

theorem sweepShard (h : Filed cfg st) (i : ℕ) (now : Timestamp) :
    Filed cfg (st.sweepShard i now).1 := by
  apply h.setShard
  · exact NonceShard.covers_compact (Shard.covers_purge (h.covers i) now)
  · intro n e he
    rw [NonceShard.map_compact] at he
    exact h.home i n e (NonceShard.lookup_purge he)

theorem issueInsert (h : Filed cfg st) (rec : IssuedNonce) (serial : ℕ) :
    Filed cfg (st.issueInsert cfg rec serial).1 := by
  apply h.setShard
  · exact NonceShard.covers_insert (h.covers _) _
  · intro n e he
    rcases NonceShard.lookup_insert he with ⟨rfl, -⟩ | he
    · rfl
    · exact h.home _ n e he

theorem consumeSection (h : Filed cfg st) (nonce : Nonce) (verifier : Aid) (now : Timestamp) :
    Filed cfg (st.consumeSection cfg nonce verifier now).1 := by
  apply h.setShard
  · exact NonceShard.covers_consume (h.covers _) verifier now
  · intro n e he
    exact h.home _ n e (NonceShard.lookup_consume he)

theorem of_shards {st' : InMemoryNonceStore} (h : Filed cfg st) (hs : st'.shards = st.shards) :
    Filed cfg st' :=
  ⟨hs ▸ h.covers, hs ▸ h.home⟩

end Filed

theorem held_setShard (i : ℕ) (s : NonceShard) (n : Nonce) : (st.setShard i s).held cfg n =
    if shardOf cfg n = i then s.map.lookup n else st.held cfg n :=
  held_update i s n

/-- What a sweep leaves in a shard has not expired, and the expiry it reports is no later than any
of the shard. -/
theorem held_sweepShard (h : Filed cfg st) {now : Timestamp} {n : Nonce} {e : Entry}
    (he : (st.sweepShard (shardOf cfg n) now).1.held cfg n = some e) :
    now ≤ e.expiresAt ∧ ∃ first, (st.sweepShard (shardOf cfg n) now).2.2 = some first ∧
      first ≤ e.expiresAt := by
  let p := ((st.shards (shardOf cfg n)).purge Entry.expiresAt now).1
  have hcovers : Shard.Covers Entry.expiresAt p.expiry.items p.map :=
    Shard.covers_purge (h.covers _) now
  have hcompact : (NonceShard.compact p).map.lookup n = some e := by
    rw [← he]
    exact ((held_setShard _ _ n).trans (if_pos rfl)).symm
  have hpurged : p.map.lookup n = some e := by
    rwa [NonceShard.map_compact] at hcompact
  exact ⟨Shard.le_of_lookup_purge (h.covers _) hpurged,
    NonceShard.earliest_le (NonceShard.covers_compact hcovers) hcompact⟩

end InMemoryNonceStore

end Aitp
