import Aitp.Core.NonceStoreRuns
import Aitp.Foundation.ExpiringCounts

/-! # The count of the nonce store

`outstanding` counts the records held, the slots reserved for records not yet inserted
and those of records removed but not yet released, after every step of every thread.
-/

namespace Aitp

open Expiring Transition InMemoryNonceStore

/-! ## Records -/

namespace NonceShard

variable {s : NonceShard} {n : Nonce}

theorem size_compact (s : NonceShard) : (compact s).size = s.size := by
  simp only [Shard.size, map_compact]

theorem size_insert {e : Entry} : (insert s n e).1.size =
    s.size + if (insert s n e).2 then 1 else 0 := by
  cases hi : (insert s n e).2 with
  | true =>
    obtain ⟨hn, hm⟩ := map_insert_of_true hi
    rw [Shard.size, hm, length_insert hn]
    rfl
  | false =>
    rw [insert_of_false hi]
    rfl

/-- A `consume` is to release as many records as it removed. -/
theorem size_consume (verifier : Aid) (now : Timestamp) :
    (consume s n verifier now).1.size + (consume s n verifier now).2.2 = s.size := by
  unfold consume
  simp only
  cases hl : s.map.lookup n with
  | none => exact s.size_purge now
  | some e =>
    simp only
    have herase : (compact { s with map := s.map.erase n }).size + 1 = s.size := by
      rw [size_compact]
      exact length_erase (by rw [hl]; rfl)
    split_ifs
    · exact s.size_purge now
    · exact herase
    · exact herase

end NonceShard

namespace InMemoryNonceStore

variable (cfg : NonceStoreConfig) (st : InMemoryNonceStore)

/-- How many records a store holds. -/
def records : ℕ :=
  ∑ i ∈ Finset.range (max cfg.shards 1), (st.shards i).size

variable {cfg}

theorem shardOf_lt (nonce : Nonce) : shardOf cfg nonce < max cfg.shards 1 :=
  Nat.mod_lt _ (lt_max_of_lt_right Nat.one_pos)

theorem records_setShard {i : ℕ} (hi : i < max cfg.shards 1) (s : NonceShard) :
    (st.setShard i s).records cfg + (st.shards i).size = st.records cfg + s.size :=
  sum_update hi st.shards Shard.size s

theorem records_issuePurge (rec : IssuedNonce) :
    (st.issuePurge cfg rec).1.records cfg + (st.issuePurge cfg rec).2 = st.records cfg := by
  let i := shardOf cfg rec.nonce
  let p := (st.shards i).purge Entry.expiresAt rec.issuedAt
  have hset : (st.setShard i p.1).records cfg + (st.shards i).size = st.records cfg + p.1.size :=
    records_setShard st (shardOf_lt rec.nonce) p.1
  have hpurge : p.1.size + p.2 = (st.shards i).size := Shard.size_purge _ _
  change (st.setShard i p.1).records cfg + p.2 = _
  omega

theorem records_sweepShard {i : ℕ} (hi : i < max cfg.shards 1) (now : Timestamp) :
    (st.sweepShard i now).1.records cfg + (st.sweepShard i now).2.1 = st.records cfg := by
  let p := (st.shards i).purge Entry.expiresAt now
  have hset := records_setShard st hi (NonceShard.compact p.1)
  have hpurge : p.1.size + p.2 = (st.shards i).size := Shard.size_purge _ _
  rw [NonceShard.size_compact] at hset
  change (st.setShard i (NonceShard.compact p.1)).records cfg + p.2 = _
  omega

theorem records_issueInsert (rec : IssuedNonce) (serial : ℕ) :
    (st.issueInsert cfg rec serial).1.records cfg =
      st.records cfg + if (st.issueInsert cfg rec serial).2 then 1 else 0 := by
  let i := shardOf cfg rec.nonce
  let p := NonceShard.insert (st.shards i) rec.nonce ⟨rec.verifier, rec.expiresAt, serial⟩
  have hset : (st.setShard i p.1).records cfg + (st.shards i).size = st.records cfg + p.1.size :=
    records_setShard st (shardOf_lt rec.nonce) p.1
  have hinsert : p.1.size = (st.shards i).size + if p.2 then 1 else 0 := NonceShard.size_insert
  change (st.setShard i p.1).records cfg = _ + if p.2 then 1 else 0
  omega

theorem records_consumeSection (nonce : Nonce) (verifier : Aid) (now : Timestamp) :
    (st.consumeSection cfg nonce verifier now).1.records cfg +
      (st.consumeSection cfg nonce verifier now).2.2 = st.records cfg := by
  let i := shardOf cfg nonce
  let p := NonceShard.consume (st.shards i) nonce verifier now
  have hset : (st.setShard i p.1).records cfg + (st.shards i).size = st.records cfg + p.1.size :=
    records_setShard st (shardOf_lt nonce) p.1
  have hconsume : p.1.size + p.2.2 = (st.shards i).size := NonceShard.size_consume verifier now
  change (st.setShard i p.1).records cfg + p.2.2 = _
  omega

end InMemoryNonceStore

/-! ## Slots in flight -/

namespace Pc

/-- The slots that a thread reserved for a record it did not insert yet, or is to release. -/
def inFlight : Pc → ℕ
  | issueRelease _ freed => freed
  | issueInsert _ | issueDuplicate => 1
  | sweepShard _ _ removed _ _ | sweepRelease removed _ _ => removed
  | consumeRelease freed _ => freed
  | _ => 0

/-- What a thread's next step subtracts from `outstanding`. -/
def releases : Pc → ℕ
  | issueRelease _ freed => freed
  | issueDuplicate => 1
  | sweepRelease removed _ _ => removed
  | consumeRelease freed _ => freed
  | _ => 0

theorem releases_le (pc : Pc) : pc.releases ≤ pc.inFlight := by
  cases pc <;> first | exact Nat.le_refl _ | exact Nat.zero_le _

variable {cfg : NonceStoreConfig} {st st' : InMemoryNonceStore} {serial : ℕ} {pc pc' : Pc}

theorem release_balance {n : ℕ} (h : n ≤ st.outstanding) :
    (st.release n).outstanding + (st.records cfg + n) =
      st.outstanding + ((st.release n).records cfg + 0) := by
  have hf : (st.release n).outstanding + n = st.outstanding := fetchSub_of_le h
  have hr : (st.release n).records cfg = st.records cfg := rfl
  omega

theorem tryReserve_balance {pc₁ pc₂ : Pc} (h : pc.inFlight = 0) (h₁ : pc₁.inFlight = 1)
    (h₂ : pc₂.inFlight = 0) :
    (st.tryReserve cfg).1.outstanding + (st.records cfg + pc.inFlight) =
      st.outstanding + ((st.tryReserve cfg).1.records cfg +
        (if (st.tryReserve cfg).2 then pc₁ else pc₂).inFlight) := by
  by_cases hlt : st.outstanding < cfg.capacity
  · have ht : st.tryReserve cfg = ({ st with outstanding := st.outstanding + 1 }, true) := if_pos hlt
    have hr : InMemoryNonceStore.records cfg { st with outstanding := st.outstanding + 1 } =
        st.records cfg := rfl
    simp only [ht, hr, if_true, h, h₁]
    omega
  · have ht : st.tryReserve cfg = (st, false) := if_neg hlt
    simp only [ht, Bool.false_eq_true, if_false, h, h₂]

theorem step_balance (h : pc.step cfg st serial = some (st', pc'))
    (hr : pc.releases ≤ st.outstanding) :
    st'.outstanding + (st.records cfg + pc.inFlight) =
      st.outstanding + (st'.records cfg + pc'.inFlight) := by
  cases pc with
  | idle => cases h
  | returned r => cases h
  | issuePurge rec =>
    simp only [Pc.step, Option.some.injEq, Prod.mk.injEq] at h
    obtain ⟨rfl, rfl⟩ := h
    have hrecords := @records_issuePurge cfg st rec
    have hsame : (st.issuePurge cfg rec).1.outstanding = st.outstanding := rfl
    simp only [inFlight]
    omega
  | issueReserve rec =>
    simp only [Pc.step, Option.some.injEq, Prod.mk.injEq] at h
    obtain ⟨rfl, rfl⟩ := h
    exact tryReserve_balance rfl rfl rfl
  | issueReserveAgain rec =>
    simp only [Pc.step, Option.some.injEq, Prod.mk.injEq] at h
    obtain ⟨rfl, rfl⟩ := h
    exact tryReserve_balance rfl rfl rfl
  | issueClaimSweep rec =>
    simp only [Pc.step, Option.some.injEq, Prod.mk.injEq] at h
    obtain ⟨rfl, rfl⟩ := h
    cases (st.claimSweep rec.issuedAt).2 <;> rfl
  | issueInsert rec =>
    simp only [Pc.step, Option.some.injEq, Prod.mk.injEq] at h
    obtain ⟨rfl, rfl⟩ := h
    have hrecords := @records_issueInsert cfg st rec serial
    have hsame : (st.issueInsert cfg rec serial).1.outstanding = st.outstanding := rfl
    cases hi : (st.issueInsert cfg rec serial).2 with
    | true =>
      simp only [hi, if_true, inFlight] at hrecords ⊢
      omega
    | false =>
      simp only [hi, Bool.false_eq_true, if_false, inFlight] at hrecords ⊢
      omega
  | sweepShard now i removed earliest rec =>
    simp only [Pc.step] at h
    split_ifs at h with hi
    · simp only [Option.some.injEq, Prod.mk.injEq] at h
      obtain ⟨rfl, rfl⟩ := h
      have hrecords := records_sweepShard st hi now
      change st.outstanding + (st.records cfg + removed) =
        st.outstanding + ((st.sweepShard i now).1.records cfg +
          (removed + (st.sweepShard i now).2.1))
      omega
    · simp only [Option.some.injEq, Prod.mk.injEq] at h
      obtain ⟨rfl, rfl⟩ := h
      rfl
  | sweepStore removed earliest rec =>
    simp only [Pc.step, Option.some.injEq, Prod.mk.injEq] at h
    obtain ⟨rfl, rfl⟩ := h
    cases rec <;> rfl
  | consumeSection nonce verifier now =>
    simp only [Pc.step, Option.some.injEq, Prod.mk.injEq] at h
    obtain ⟨rfl, rfl⟩ := h
    have hrecords := @records_consumeSection cfg st nonce verifier now
    change st.outstanding + (st.records cfg + 0) =
      st.outstanding + ((st.consumeSection cfg nonce verifier now).1.records cfg +
        (st.consumeSection cfg nonce verifier now).2.2)
    omega
  | issueRelease rec freed =>
    simp only [Pc.step, Option.some.injEq, Prod.mk.injEq] at h
    obtain ⟨rfl, rfl⟩ := h
    exact release_balance hr
  | issueDuplicate =>
    simp only [Pc.step, Option.some.injEq, Prod.mk.injEq] at h
    obtain ⟨rfl, rfl⟩ := h
    exact release_balance hr
  | sweepRelease removed earliest rec =>
    simp only [Pc.step, Option.some.injEq, Prod.mk.injEq] at h
    obtain ⟨rfl, rfl⟩ := h
    exact release_balance hr
  | consumeRelease freed outcome =>
    simp only [Pc.step, Option.some.injEq, Prod.mk.injEq] at h
    obtain ⟨rfl, rfl⟩ := h
    exact release_balance hr
  | issueCountSweep rec =>
    simp only [Pc.step, Option.some.injEq, Prod.mk.injEq] at h
    obtain ⟨rfl, rfl⟩ := h
    rfl
  | issueRefuse rec =>
    simp only [Pc.step, Option.some.injEq, Prod.mk.injEq] at h
    obtain ⟨rfl, rfl⟩ := h
    rfl
  | issueLower rec =>
    simp only [Pc.step, Option.some.injEq, Prod.mk.injEq] at h
    obtain ⟨rfl, rfl⟩ := h
    rfl

theorem outstanding_step (h : pc.step cfg st serial = some (st', pc')) :
    st'.outstanding = st.outstanding ∨
      st'.outstanding = (st.tryReserve cfg).1.outstanding ∨
      st'.outstanding = fetchSub st.outstanding pc.releases := by
  cases pc with
  | idle => cases h
  | returned r => cases h
  | issueReserve rec =>
    obtain ⟨rfl, -⟩ := Prod.mk.inj (Option.some.inj h)
    exact .inr (.inl rfl)
  | issueReserveAgain rec =>
    obtain ⟨rfl, -⟩ := Prod.mk.inj (Option.some.inj h)
    exact .inr (.inl rfl)
  | issueRelease rec freed =>
    obtain ⟨rfl, -⟩ := Prod.mk.inj (Option.some.inj h)
    exact .inr (.inr rfl)
  | issueDuplicate =>
    obtain ⟨rfl, -⟩ := Prod.mk.inj (Option.some.inj h)
    exact .inr (.inr rfl)
  | sweepRelease removed earliest rec =>
    obtain ⟨rfl, -⟩ := Prod.mk.inj (Option.some.inj h)
    exact .inr (.inr rfl)
  | consumeRelease freed outcome =>
    obtain ⟨rfl, -⟩ := Prod.mk.inj (Option.some.inj h)
    exact .inr (.inr rfl)
  | sweepShard now i removed earliest rec =>
    simp only [Pc.step] at h
    split_ifs at h
    · obtain ⟨rfl, -⟩ := Prod.mk.inj (Option.some.inj h)
      exact .inl rfl
    · obtain ⟨rfl, -⟩ := Prod.mk.inj (Option.some.inj h)
      exact .inl rfl
  | _ =>
    obtain ⟨rfl, -⟩ := Prod.mk.inj (Option.some.inj h)
    exact .inl rfl

theorem tryReserve_le (h : st.outstanding ≤ cfg.capacity) :
    (st.tryReserve cfg).1.outstanding ≤ cfg.capacity := by
  unfold tryReserve
  split_ifs with hlt
  · exact hlt
  · exact h

theorem outstanding_step_le (h : pc.step cfg st serial = some (st', pc'))
    (hr : pc.releases ≤ st.outstanding) (hc : st.outstanding ≤ cfg.capacity) :
    st'.outstanding ≤ cfg.capacity := by
  rcases outstanding_step h with he | he | he
  · rw [he]
    exact hc
  · rw [he]
    exact tryReserve_le hc
  · have hsub := fetchSub_of_le hr
    omega

end Pc

/-! ## Runs -/

namespace NonceWorld

variable {cfg : NonceStoreConfig} {w w' : NonceWorld}

/-- The count of a store whose threads below `n` are the only ones ever used. -/
structure Counted (cfg : NonceStoreConfig) (n : ℕ) (w : NonceWorld) : Prop where
  idle : ∀ t, n ≤ t → w.threads t = .idle
  balance : w.store.outstanding =
    w.store.records cfg + ∑ t ∈ Finset.range n, (w.threads t).inFlight
  bounded : w.store.outstanding ≤ cfg.capacity

namespace Counted

variable {n t : ℕ}

theorem inFlight_le (h : Counted cfg n w) (t : ℕ) :
    (w.threads t).inFlight ≤ ∑ t ∈ Finset.range n, (w.threads t).inFlight := by
  by_cases ht : t < n
  · exact Finset.single_le_sum (f := fun t => (w.threads t).inFlight)
      (fun _ _ => Nat.zero_le _) (Finset.mem_range.mpr ht)
  · rw [h.idle t (not_lt.mp ht)]
    exact Nat.zero_le _

theorem releases_le (h : Counted cfg n w) (t : ℕ) :
    (w.threads t).releases ≤ w.store.outstanding := by
  have hflight := h.inFlight_le t
  have hle := Pc.releases_le (w.threads t)
  have hbalance := h.balance
  omega

theorem mono (h : Counted cfg n w) {m : ℕ} (hm : n ≤ m) : Counted cfg m w where
  idle t ht := h.idle t (hm.trans ht)
  bounded := h.bounded
  balance := by
    rw [h.balance]
    congr 1
    refine Finset.sum_subset (Finset.range_subset_range.mpr hm) ?_
    intro t _ ht
    rw [h.idle t (not_lt.mp fun hn => ht (Finset.mem_range.mpr hn))]
    rfl

theorem call (h : Counted cfg n w) (ht : t < n) {c : NonceCall}
    (hs : w.next cfg (.call t c) = some w') : Counted cfg n w' := by
  have hstart : (w.threads t).inFlight = 0 ∧
      w' = { w with threads := Function.update w.threads t c.entry } := by
    simp only [next] at hs
    split at hs
    · rename_i he
      rw [he]
      exact ⟨rfl, (Option.some.inj hs).symm⟩
    · rename_i he
      rw [he]
      exact ⟨rfl, (Option.some.inj hs).symm⟩
    · cases hs
  obtain ⟨hzero, rfl⟩ := hstart
  have hentry : c.entry.inFlight = 0 := by
    cases c <;> rfl
  have hsum := sum_update ht w.threads Pc.inFlight c.entry
  refine ⟨?_, ?_, h.bounded⟩
  · intro u hu
    have hne : u ≠ t := fun he => absurd ht (not_lt.mpr (he ▸ hu))
    exact (Function.update_of_ne hne _ _).trans (h.idle u hu)
  · have hbalance := h.balance
    simp only at hsum ⊢
    omega

theorem run (h : Counted cfg n w) (hs : w.next cfg (.run t) = some w') : Counted cfg n w' := by
  obtain ⟨⟨st', pc'⟩, hr, rfl⟩ := Option.map_eq_some_iff.mp hs
  have ht : t < n := by
    by_contra hn
    rw [h.idle t (not_lt.mp hn)] at hr
    cases hr
  have hbalance := Pc.step_balance hr (h.releases_le t)
  have hsum := sum_update ht w.threads Pc.inFlight pc'
  have hold := h.balance
  refine ⟨?_, ?_, Pc.outstanding_step_le hr (h.releases_le t) h.bounded⟩
  · intro u hu
    have hne : u ≠ t := fun he => absurd ht (not_lt.mpr (he ▸ hu))
    exact (Function.update_of_ne hne _ _).trans (h.idle u hu)
  · simp only at hsum ⊢
    omega

end Counted

theorem records_new (cfg : NonceStoreConfig) : InMemoryNonceStore.new.records cfg = 0 :=
  Finset.sum_eq_zero fun _ _ => rfl

theorem counted_of_reachable (h : (interleaving cfg).Reachable w) : ∃ n, Counted cfg n w := by
  induction h with
  | init hi =>
    obtain rfl := hi
    refine ⟨0, fun _ _ => rfl, ?_, Nat.zero_le _⟩
    exact (records_new cfg).symm
  | @step w ev w' _ hs ih =>
    obtain ⟨n, hn⟩ := ih
    cases ev with
    | call t c =>
      have ht : t < max n (t + 1) := lt_max_of_lt_right (Nat.lt_succ_self t)
      exact ⟨_, (hn.mono (le_max_left n (t + 1))).call ht hs⟩
    | run t => exact ⟨n, hn.run hs⟩

/-- No call is under way. -/
def Quiescent (w : NonceWorld) : Prop :=
  ∀ t, w.threads t = .idle ∨ ∃ r, w.threads t = .returned r

end NonceWorld

/-- In every interleaving `outstanding` is the number of records and slots in flight, at most the
capacity and never less than what a thread is to subtract. -/
theorem nonceStore_counts {cfg : NonceStoreConfig} {w : NonceWorld}
    (h : (NonceWorld.interleaving cfg).Reachable w) :
    (∃ n, (∀ t, n ≤ t → w.threads t = .idle) ∧ w.store.outstanding =
      w.store.records cfg + ∑ t ∈ Finset.range n, (w.threads t).inFlight) ∧
    w.store.outstanding ≤ cfg.capacity ∧
    (∀ t, (w.threads t).releases ≤ w.store.outstanding) ∧
    w.store.records cfg ≤ cfg.capacity ∧
    (w.Quiescent → w.store.outstanding = w.store.records cfg) := by
  obtain ⟨n, hn⟩ := NonceWorld.counted_of_reachable h
  have hbalance := hn.balance
  have hbounded := hn.bounded
  refine ⟨⟨n, hn.idle, hbalance⟩, hbounded, hn.releases_le, by omega, ?_⟩
  intro hq
  have hzero : ∑ t ∈ Finset.range n, (w.threads t).inFlight = 0 := by
    refine Finset.sum_eq_zero ?_
    intro t _
    rcases hq t with he | ⟨r, he⟩
    · rw [he]
      rfl
    · rw [he]
      rfl
  omega

/-- While one `consume` has removed the record and is to release it, the store counts it. -/
theorem nonceStore_counts_contested :
    ∃ w, (NonceWorld.interleaving fourShards).Reachable w ∧ w.store.outstanding = 1 ∧
      w.store.records fourShards ≤ 2 := by
  have hs : ((System.runNext (NonceWorld.next fourShards) .initial
      ((contestedRun zeroRecord).take 8)).map fun w => w.store.outstanding) = some 1 := by
    decide +kernel
  obtain ⟨w, hw, ho⟩ := Option.map_eq_some_iff.mp hs
  have hr : (NonceWorld.interleaving fourShards).Reachable w :=
    System.reachable_of_runNext (.init rfl) hw
  exact ⟨w, hr, ho, (nonceStore_counts hr).2.2.2.1⟩

end Aitp
