import Aitp.Core.NonceStoreCounts
import Aitp.Core.NonceStoreExpiry

/-! # Capacity of the nonce store

A store used by one call at a time, with a clock that does not go back, refuses a record for
want of capacity exactly when the records that were issued, not consumed and not expired fill
it, although it sweeps at most once for each second of the clock.
-/

namespace Aitp

open Expiring Transition InMemoryNonceStore

variable {cfg : NonceStoreConfig} {st : InMemoryNonceStore}

/-! ## Records held and records issued -/

/-- What a store holds against the records issued and not consumed, newest first: one that has not
expired is held, and one under its nonce before it had. -/
structure Tracks (held : Nonce → Option Entry) (issued : List IssuedNonce) (now : Timestamp) :
    Prop where
  recorded : ∀ n e, held n = some e → ∃ r ∈ issued, r.nonce = n ∧ r.expiresAt = e.expiresAt
  held : ∀ r ∈ issued, now ≤ r.expiresAt →
    ∃ e, held r.nonce = some e ∧ e.expiresAt = r.expiresAt
  newest : issued.Pairwise fun r r' => r.nonce = r'.nonce → r'.expiresAt < now

/-- The records that have not expired. -/
def unexpired (issued : List IssuedNonce) (now : Timestamp) : List IssuedNonce :=
  issued.filter fun r => now ≤ r.expiresAt

namespace Tracks

variable {held held' : Nonce → Option Entry} {issued : List IssuedNonce} {now now' : Timestamp}

theorem mono (h : Tracks held issued now) (hle : now ≤ now') : Tracks held issued now' where
  recorded := h.recorded
  held r hr hx := h.held r hr (hle.trans hx)
  newest := h.newest.imp fun hlt hn => (hlt hn).trans_le hle

theorem thins (h : Tracks held issued now)
    (ht : Thins held held' fun _ e => e.expiresAt < now) : Tracks held' issued now where
  recorded n e he := h.recorded n e (ht.kept he)
  newest := h.newest
  held := by
    intro r hr hx
    obtain ⟨e, he, hexp⟩ := h.held r hr hx
    refine ⟨e, ?_, hexp⟩
    by_contra hne
    have hlt := ht.removed he hne
    rw [hexp] at hlt
    exact absurd hx (not_le.mpr hlt)

theorem issue (h : Tracks held issued now) {rec : IssuedNonce} {e : Entry}
    (hn : held rec.nonce = none) (he : e.expiresAt = rec.expiresAt) :
    Tracks (Function.update held rec.nonce (some e)) (rec :: issued) now := by
  have hold : ∀ r ∈ issued, rec.nonce = r.nonce → r.expiresAt < now := by
    intro r hr heq
    by_contra hx
    obtain ⟨e', he', -⟩ := h.held r hr (not_lt.mp hx)
    rw [← heq, hn] at he'
    cases he'
  refine ⟨?_, ?_, List.pairwise_cons.mpr ⟨hold, h.newest⟩⟩
  · intro n e' hu
    by_cases hk : n = rec.nonce
    · subst hk
      rw [Function.update_self] at hu
      obtain rfl := Option.some.inj hu
      exact ⟨rec, List.mem_cons_self, rfl, he.symm⟩
    · rw [Function.update_of_ne hk] at hu
      obtain ⟨r, hr, hrn, hx⟩ := h.recorded n e' hu
      exact ⟨r, List.mem_cons_of_mem _ hr, hrn, hx⟩
  · intro r hr hx
    rcases List.mem_cons.mp hr with rfl | hr
    · exact ⟨e, Function.update_self .., he⟩
    · have hk : r.nonce ≠ rec.nonce :=
        fun heq => absurd hx (not_le.mpr (hold r hr heq.symm))
      rw [Function.update_of_ne hk]
      exact h.held r hr hx

theorem consume (h : Tracks held issued now) {n : Nonce} {e : Entry} (he : held n = some e) :
    Tracks (Function.update held n none) (issued.eraseP fun r => r.nonce = n) now := by
  obtain ⟨r, hr, hrn, hexp⟩ := h.recorded n e he
  obtain ⟨r₀, newer, older, hnew, hr₀, hsplit, herase⟩ :=
    List.exists_of_eraseP (p := fun r => decide (r.nonce = n)) hr (decide_eq_true hrn)
  have hpairs := h.newest
  rw [hsplit] at hpairs
  have holder : ∀ r' ∈ older, r'.nonce = n → r'.expiresAt < now := by
    intro r' hr' hn
    have hcons := (List.pairwise_append.mp hpairs).2.1
    exact (List.pairwise_cons.mp hcons).1 r' hr' ((of_decide_eq_true hr₀).trans hn.symm)
  rw [herase]
  refine ⟨?_, ?_, ?_⟩
  · intro m e' hm
    by_cases hk : m = n
    · subst hk
      rw [Function.update_self] at hm
      cases hm
    · rw [Function.update_of_ne hk] at hm
      obtain ⟨r', hr', hrn', hexp'⟩ := h.recorded m e' hm
      refine ⟨r', ?_, hrn', hexp'⟩
      rw [hsplit] at hr'
      rcases List.mem_append.mp hr' with hr' | hr'
      · exact List.mem_append_left _ hr'
      · rcases List.mem_cons.mp hr' with rfl | hr'
        · exact absurd (hrn'.symm.trans (of_decide_eq_true hr₀)) hk
        · exact List.mem_append_right _ hr'
  · intro r' hr' hx'
    have hk : r'.nonce ≠ n := by
      intro hn
      rcases List.mem_append.mp hr' with hr' | hr'
      · exact hnew r' hr' (decide_eq_true hn)
      · exact absurd hx' (not_le.mpr (holder r' hr' hn))
    rw [Function.update_of_ne hk]
    apply h.held r' _ hx'
    rw [hsplit]
    rcases List.mem_append.mp hr' with hr' | hr'
    · exact List.mem_append_left _ hr'
    · exact List.mem_append_right _ (List.mem_cons_of_mem _ hr')
  · exact hpairs.sublist ((List.sublist_cons_self ..).append_left _)

theorem nodup_unexpired (h : Tracks held issued now) :
    ((unexpired issued now).map IssuedNonce.nonce).Nodup := by
  rw [unexpired, List.Nodup, List.pairwise_map, List.pairwise_filter]
  refine h.newest.imp ?_
  intro r r' hlt _ hx heq
  exact absurd (of_decide_eq_true hx) (not_le.mpr (hlt heq))

end Tracks

/-! ## Numbers of records -/

namespace InMemoryNonceStore

/-- The nonces of the records held. -/
def heldNonces (cfg : NonceStoreConfig) (st : InMemoryNonceStore) : Finset Nonce :=
  (Finset.range (max cfg.shards 1)).biUnion fun i => (st.shards i).map.keys.toFinset

theorem mem_keys {i : ℕ} {n : Nonce} :
    n ∈ (st.shards i).map.keys ↔ ∃ e, (st.shards i).map.lookup n = some e := by
  rw [← AList.mem_keys, ← AList.lookup_isSome, Option.isSome_iff_exists]

theorem mem_heldNonces (h : Filed cfg st) {n : Nonce} :
    n ∈ heldNonces cfg st ↔ ∃ e, st.held cfg n = some e := by
  simp only [heldNonces, Finset.mem_biUnion, Finset.mem_range, List.mem_toFinset, mem_keys]
  constructor
  · rintro ⟨i, -, e, he⟩
    obtain rfl := h.home i n e he
    exact ⟨e, he⟩
  · rintro ⟨e, he⟩
    exact ⟨shardOf cfg n, shardOf_lt n, e, he⟩

theorem card_heldNonces (h : Filed cfg st) : (heldNonces cfg st).card = st.records cfg := by
  rw [heldNonces, Finset.card_biUnion]
  · refine Finset.sum_congr rfl ?_
    intro i _
    rw [List.toFinset_card_of_nodup (AList.keys_nodup _)]
    exact List.length_map ..
  · intro i _ j _ hij
    rw [Function.onFun, Finset.disjoint_left]
    intro n hi hj
    obtain ⟨e, he⟩ := mem_keys.mp (List.mem_toFinset.mp hi)
    obtain ⟨e', he'⟩ := mem_keys.mp (List.mem_toFinset.mp hj)
    exact hij ((h.home i n e he).symm.trans (h.home j n e' he'))

variable {issued : List IssuedNonce} {now : Timestamp}

theorem card_unexpired {held : Nonce → Option Entry} (h : Tracks held issued now) :
    ((unexpired issued now).map IssuedNonce.nonce).toFinset.card =
      (unexpired issued now).length := by
  rw [List.toFinset_card_of_nodup h.nodup_unexpired, List.length_map]

theorem length_unexpired_le (hf : Filed cfg st) (h : Tracks (st.held cfg) issued now) :
    (unexpired issued now).length ≤ st.records cfg := by
  rw [← card_unexpired h, ← card_heldNonces hf]
  refine Finset.card_le_card ?_
  intro n hn
  obtain ⟨r, hr, rfl⟩ := List.mem_map.mp (List.mem_toFinset.mp hn)
  obtain ⟨hr, hx⟩ := List.mem_filter.mp hr
  obtain ⟨e, he, -⟩ := h.held r hr (of_decide_eq_true hx)
  exact (mem_heldNonces hf).mpr ⟨e, he⟩

/-- When nothing held has expired the records held are those issued, not consumed and not
expired. -/
theorem length_unexpired (hf : Filed cfg st) (h : Tracks (st.held cfg) issued now)
    (hx : ∀ n e, st.held cfg n = some e → now ≤ e.expiresAt) :
    (unexpired issued now).length = st.records cfg := by
  apply Nat.le_antisymm (length_unexpired_le hf h)
  rw [← card_unexpired h, ← card_heldNonces hf]
  refine Finset.card_le_card ?_
  intro n hn
  obtain ⟨e, he⟩ := (mem_heldNonces hf).mp hn
  obtain ⟨r, hr, rfl, hexp⟩ := h.recorded n e he
  have hle : now ≤ r.expiresAt := by
    rw [hexp]
    exact hx _ e he
  exact List.mem_toFinset.mpr (List.mem_map.mpr
    ⟨r, List.mem_filter.mpr ⟨hr, decide_eq_true hle⟩, rfl⟩)

/-! ## Calls -/

/-- A store of which `reserved` slots are reserved and none is to be released. -/
structure Settled (cfg : NonceStoreConfig) (reserved : ℕ) (st : InMemoryNonceStore) : Prop where
  filed : Filed cfg st
  count : st.outstanding = st.records cfg + reserved
  bounded : st.outstanding ≤ cfg.capacity

namespace Settled

theorem release {removed : ℕ} (hf : Filed cfg st)
    (hc : st.records cfg + removed = st.outstanding) (hb : st.outstanding ≤ cfg.capacity) :
    Settled cfg 0 (st.release removed) := by
  have hsub : (st.release removed).outstanding + removed = st.outstanding :=
    fetchSub_of_le (by omega)
  have hrecords : (st.release removed).records cfg = st.records cfg := rfl
  exact ⟨hf.of_shards rfl, by omega, by omega⟩

theorem issuePurge (h : Settled cfg 0 st) (rec : IssuedNonce) :
    Settled cfg 0 ((st.issuePurge cfg rec).1.release (st.issuePurge cfg rec).2) :=
  release (h.filed.issuePurge rec) ((records_issuePurge st rec).trans h.count.symm) h.bounded

theorem consumeSync (h : Settled cfg 0 st) (nonce : Nonce) (verifier : Aid) (now : Timestamp) :
    Settled cfg 0 (st.consumeSync cfg nonce verifier now).1 :=
  release (h.filed.consumeSection nonce verifier now)
    ((records_consumeSection st nonce verifier now).trans h.count.symm) h.bounded

theorem sweepLoop (now : Timestamp) (is : List ℕ) (hf : Filed cfg st)
    (hi : ∀ i ∈ is, i < max cfg.shards 1) (removed : ℕ) (earliest : Timestamp) :
    Filed cfg (InMemoryNonceStore.sweepLoop now is st removed earliest).1 ∧
      (InMemoryNonceStore.sweepLoop now is st removed earliest).1.outstanding =
        st.outstanding ∧
      (InMemoryNonceStore.sweepLoop now is st removed earliest).1.lastSweep = st.lastSweep ∧
      (InMemoryNonceStore.sweepLoop now is st removed earliest).1.records cfg +
        (InMemoryNonceStore.sweepLoop now is st removed earliest).2.1 =
          st.records cfg + removed ∧
      ∀ n e, shardOf cfg n ∈ is →
        (InMemoryNonceStore.sweepLoop now is st removed earliest).1.held cfg n = some e →
          now ≤ e.expiresAt := by
  induction is generalizing st removed earliest with
  | nil =>
    refine ⟨hf, rfl, rfl, rfl, ?_⟩
    rintro n e ⟨⟩
  | cons i is ih =>
    have hrecords := records_sweepShard st (hi i List.mem_cons_self) now
    obtain ⟨hf', hout, hlast, hsum, hheld⟩ := ih (hf.sweepShard i now)
      (fun j hj => hi j (List.mem_cons_of_mem _ hj)) (removed + (st.sweepShard i now).2.1)
      ((st.sweepShard i now).2.2.elim earliest (min earliest))
    refine ⟨hf', hout, hlast, ?_, ?_⟩
    · exact hsum.trans (by omega)
    · intro n e hn he
      by_cases hmem : shardOf cfg n ∈ is
      · exact hheld n e hmem he
      · obtain rfl : shardOf cfg n = i := (List.mem_cons.mp hn).resolve_right hmem
        have hkept := (thins_sweepLoop now is _ _).kept he
        exact (held_sweepShard hf hkept).1

theorem sweep (h : Settled cfg 0 st) (now : Timestamp) :
    Settled cfg 0 (st.sweep cfg now) ∧ (st.sweep cfg now).lastSweep = st.lastSweep ∧
      ∀ n e, (st.sweep cfg now).held cfg n = some e → now ≤ e.expiresAt := by
  obtain ⟨hf, hout, hlast, hsum, hheld⟩ := sweepLoop now
    (List.range (max cfg.shards 1)) h.filed (fun i hi => List.mem_range.mp hi) 0 i64Max
  have hswept := release hf ((hsum.trans h.count.symm).trans hout.symm) (hout.le.trans h.bounded)
  refine ⟨⟨hswept.filed.of_shards rfl, hswept.count, hswept.bounded⟩, hlast, ?_⟩
  intro n e he
  exact hheld n e (List.mem_range.mpr (shardOf_lt n)) he

end Settled

theorem thins_sweep (now : Timestamp) :
    Thins (st.held cfg) ((st.sweep cfg now).held cfg) fun _ e => e.expiresAt < now :=
  thins_sweepLoop now _ 0 i64Max

/-- What `reserve` can do on a store with no call under way: take a slot, refuse one when a sweep
was made at this clock or later, or sweep first. -/
theorem reserve_cases (h : Settled cfg 0 st) (now : Timestamp) :
    (st.outstanding < cfg.capacity ∧
      st.reserve cfg now = ({ st with outstanding := st.outstanding + 1 }, true)) ∨
    (st.outstanding = cfg.capacity ∧ now ≤ st.lastSweep ∧ st.reserve cfg now = (st, false)) ∨
    ∃ swept, Settled cfg 0 swept ∧ swept.lastSweep = now ∧
      Thins (st.held cfg) (swept.held cfg) (fun _ e => e.expiresAt < now) ∧
      (∀ n e, swept.held cfg n = some e → now ≤ e.expiresAt) ∧
      st.outstanding = cfg.capacity ∧ st.reserve cfg now = swept.tryReserve cfg := by
  by_cases hlt : st.outstanding < cfg.capacity
  · have ht : st.tryReserve cfg = ({ st with outstanding := st.outstanding + 1 }, true) := if_pos hlt
    refine .inl ⟨hlt, ?_⟩
    simp only [reserve, ht, if_true]
  · have ht : st.tryReserve cfg = (st, false) := if_neg hlt
    have hfull : st.outstanding = cfg.capacity := Nat.le_antisymm h.bounded (not_lt.mp hlt)
    by_cases hclaim : st.lastSweep < now
    · refine .inr (.inr ?_)
      let claimed : InMemoryNonceStore :=
        { st with lastSweep := max st.lastSweep now, fullSweeps := st.fullSweeps + 1 }
      have hclaimed : Settled cfg 0 claimed := ⟨h.filed.of_shards rfl, h.count, h.bounded⟩
      obtain ⟨hsettled, hlast, hheld⟩ := hclaimed.sweep now
      have hthins : Thins (st.held cfg) ((claimed.sweep cfg now).held cfg)
          fun _ e => e.expiresAt < now := @thins_sweep cfg claimed now
      refine ⟨claimed.sweep cfg now, hsettled, ?_, hthins, hheld, hfull, ?_⟩
      · rw [hlast]
        exact max_eq_right hclaim.le
      · simp only [reserve, ht, claimSweep, decide_eq_true hclaim, if_true, Bool.false_eq_true,
          if_false, claimed]
    · refine .inr (.inl ⟨hfull, not_lt.mp hclaim, ?_⟩)
      have hmax : max st.lastSweep now = st.lastSweep := max_eq_left (not_lt.mp hclaim)
      simp only [reserve, ht, claimSweep, decide_eq_false hclaim, hmax, Bool.false_eq_true,
        if_false]

theorem settled_tryReserve (h : Settled cfg 0 st) :
    Settled cfg (if (st.tryReserve cfg).2 then 1 else 0) (st.tryReserve cfg).1 := by
  by_cases hlt : st.outstanding < cfg.capacity
  · have ht : st.tryReserve cfg = ({ st with outstanding := st.outstanding + 1 }, true) := if_pos hlt
    rw [ht]
    exact ⟨h.filed.of_shards rfl, congrArg (· + 1) h.count, hlt⟩
  · have ht : st.tryReserve cfg = (st, false) := if_neg hlt
    rw [ht]
    exact h

/-- `reserve` leaves a slot reserved when it says so. -/
theorem settled_reserve (h : Settled cfg 0 st) (now : Timestamp) :
    Settled cfg (if (st.reserve cfg now).2 then 1 else 0) (st.reserve cfg now).1 := by
  rcases reserve_cases h now with ⟨hlt, hr⟩ | ⟨-, -, hr⟩ | ⟨swept, hs, -, -, -, -, hr⟩
  · rw [hr]
    exact ⟨h.filed.of_shards rfl, congrArg (· + 1) h.count, hlt⟩
  · rw [hr]
    exact h
  · rw [hr]
    exact settled_tryReserve hs

/-- A sweep made by `reserve` is made at its clock and leaves no record that expired. -/
theorem lastSweep_reserve (h : Settled cfg 0 st) (now : Timestamp) :
    (st.reserve cfg now).1.lastSweep = st.lastSweep ∨
      (st.reserve cfg now).1.lastSweep = now ∧
        ∀ n e, (st.reserve cfg now).1.held cfg n = some e → now ≤ e.expiresAt := by
  rcases reserve_cases h now with ⟨-, hr⟩ | ⟨-, -, hr⟩ | ⟨swept, -, hlast, -, hheld, -, hr⟩
  · rw [hr]
    exact .inl rfl
  · rw [hr]
    exact .inl rfl
  · rw [hr]
    refine .inr ⟨?_, ?_⟩
    · unfold tryReserve
      split_ifs
      · exact hlast
      · exact hlast
    · rw [held_tryReserve]
      exact hheld

/-- `reserve` refuses a slot exactly when the records that have not expired fill the store. -/
theorem reserve_eq_false {issued : List IssuedNonce} {now : Timestamp} (h : Settled cfg 0 st)
    (ht : Tracks (st.held cfg) issued now)
    (hl : ∀ n e, st.held cfg n = some e → st.lastSweep ≤ e.expiresAt) :
    (st.reserve cfg now).2 = false ↔ (unexpired issued now).length = cfg.capacity := by
  rcases reserve_cases h now with ⟨hlt, hr⟩ | ⟨hfull, hle, hr⟩ |
    ⟨swept, hs, -, hthins, hheld, -, hr⟩
  · rw [hr]
    have hcount := h.count
    have hle := length_unexpired_le h.filed ht
    constructor
    · rintro ⟨⟩
    · intro heq
      omega
  · rw [hr]
    have hcount := h.count
    have heq := length_unexpired h.filed ht fun n e he => hle.trans (hl n e he)
    refine iff_of_true rfl ?_
    omega
  · rw [hr]
    have hcount := hs.count
    have hbounded := hs.bounded
    have heq := length_unexpired hs.filed (ht.thins hthins) hheld
    unfold tryReserve
    split_ifs with hlt
    · constructor
      · rintro ⟨⟩
      · intro heq
        omega
    · refine iff_of_true rfl ?_
      omega

/-- `issue_sync` answers `AtCapacity` when no slot can be reserved. -/
theorem issueSync_atCapacity (rec : IssuedNonce) (serial : ℕ) :
    (∃ retry, (st.issueSync cfg rec serial).2 = .error (.atCapacity cfg.capacity retry)) ↔
      (((st.issuePurge cfg rec).1.release (st.issuePurge cfg rec).2).reserve cfg rec.issuedAt).2 =
        false := by
  unfold issueSync
  simp only
  split_ifs with hr hi
  · rw [hr]
    simp
  · rw [hr]
    simp
  · refine iff_of_true ⟨_, rfl⟩ ?_
    simpa using hr

theorem settled_issueSync (h : Settled cfg 0 st) (rec : IssuedNonce) (serial : ℕ) :
    Settled cfg 0 (st.issueSync cfg rec serial).1 := by
  have hreserve := settled_reserve (h.issuePurge rec) rec.issuedAt
  unfold issueSync
  simp only
  generalize ((st.issuePurge cfg rec).1.release (st.issuePurge cfg rec).2).reserve cfg
    rec.issuedAt = p at hreserve
  obtain ⟨st', reserved⟩ := p
  cases reserved with
  | false => exact hreserve
  | true =>
    have hone : Settled cfg 1 st' := hreserve
    have hcount := hone.count
    have hrecords := @records_issueInsert cfg st' rec serial
    have hfiled := hone.filed.issueInsert rec serial
    simp only [if_true]
    cases hi : (st'.issueInsert cfg rec serial).2 with
    | true =>
      rw [hi] at hrecords
      exact ⟨hfiled.of_shards rfl, hcount.trans hrecords.symm, hone.bounded⟩
    | false =>
      rw [hi] at hrecords
      exact Settled.release hfiled ((congrArg (· + 1) hrecords).trans hcount.symm) hone.bounded

theorem lastSweep_issueSync (h : Settled cfg 0 st) (rec : IssuedNonce) (serial : ℕ)
    (hx : rec.issuedAt ≤ rec.expiresAt) :
    (st.issueSync cfg rec serial).1.lastSweep = st.lastSweep ∨
      (st.issueSync cfg rec serial).1.lastSweep = rec.issuedAt ∧
        ∀ n e, (st.issueSync cfg rec serial).1.held cfg n = some e → rec.issuedAt ≤ e.expiresAt := by
  have hlast := lastSweep_reserve (h.issuePurge rec) rec.issuedAt
  unfold issueSync
  simp only
  generalize ((st.issuePurge cfg rec).1.release (st.issuePurge cfg rec).2).reserve cfg
    rec.issuedAt = p at hlast
  obtain ⟨st', reserved⟩ := p
  rcases hlast with hlast | ⟨hlast, hheld⟩
  · left
    split_ifs
    · exact hlast
    · exact hlast
    · exact hlast
  · right
    have hinsert : ∀ n e, (st'.issueInsert cfg rec serial).1.held cfg n = some e →
        rec.issuedAt ≤ e.expiresAt := by
      intro n e he
      cases hi : (st'.issueInsert cfg rec serial).2 with
      | true =>
        rw [(issueInsert_of_true hi).2] at he
        by_cases hn : n = rec.nonce
        · subst hn
          rw [Function.update_self] at he
          obtain rfl := Option.some.inj he
          exact hx
        · rw [Function.update_of_ne hn] at he
          exact hheld n e he
      | false =>
        rw [issueInsert_of_false hi] at he
        exact hheld n e he
    split_ifs
    · exact ⟨hlast, hinsert⟩
    · exact ⟨hlast, hinsert⟩
    · exact ⟨hlast, hheld⟩

end InMemoryNonceStore

/-! ## Runs -/

namespace NonceCall

/-- The clock of a call. -/
def now : NonceCall → Timestamp
  | issue rec => rec.issuedAt
  | consume _ _ now => now
  | sweep now => now

/-- A record to be issued does not expire before it is issued. -/
def Lasts : NonceCall → Prop
  | issue rec => rec.issuedAt ≤ rec.expiresAt
  | _ => True

instance : DecidablePred Lasts := by
  intro c
  cases c <;> unfold Lasts <;> infer_instance

end NonceCall

/-- A store used by one call at a time, the clock of the last call, and the records issued and not
consumed, newest first. -/
structure NonceLedger where
  store : InMemoryNonceStore
  serial : ℕ
  clock : Timestamp
  issued : List IssuedNonce

namespace NonceLedger

def initial : NonceLedger := ⟨.new, 0, i64Min, []⟩

/-- A record issued is added; the newest issued under a nonce is dropped when it is consumed. -/
def call (cfg : NonceStoreConfig) (w : NonceLedger) : NonceCall → NonceLedger
  | .issue rec =>
    let r := w.store.issueSync cfg rec w.serial
    match r.2 with
    | .ok () => ⟨r.1, w.serial + 1, rec.issuedAt, rec :: w.issued⟩
    | .error _ => ⟨r.1, w.serial, rec.issuedAt, w.issued⟩
  | .consume nonce verifier now =>
    let r := w.store.consumeSync cfg nonce verifier now
    ⟨r.1, w.serial, now,
      if r.2 = .consumed then w.issued.eraseP fun r => r.nonce = nonce else w.issued⟩
  | .sweep now => ⟨w.store.sweep cfg now, w.serial, now, w.issued⟩

def next (cfg : NonceStoreConfig) (w : NonceLedger) (c : NonceCall) : Option NonceLedger :=
  if w.clock ≤ c.now ∧ c.Lasts then some (w.call cfg c) else none

/-- Every sequence of calls on a new store whose clock does not go back. -/
def sequential (cfg : NonceStoreConfig) : System NonceLedger NonceCall :=
  .ofNext initial (next cfg)

/-- What holds between calls. -/
structure Sound (cfg : NonceStoreConfig) (w : NonceLedger) : Prop where
  settled : Settled cfg 0 w.store
  tracks : Tracks (w.store.held cfg) w.issued w.clock
  swept : w.store.lastSweep ≤ w.clock
  lasting : ∀ n e, w.store.held cfg n = some e → w.store.lastSweep ≤ e.expiresAt

variable {w w' : NonceLedger}

theorem sound_initial : Sound cfg initial where
  settled := ⟨filed_new, (NonceWorld.records_new cfg).symm, Nat.zero_le _⟩
  tracks := by
    refine ⟨?_, ?_, .nil⟩
    · rintro n e ⟨⟩
    · rintro r ⟨⟩
  swept := le_rfl
  lasting := by
    rintro n e ⟨⟩

namespace Sound

theorem issue (h : Sound cfg w) {rec : IssuedNonce} (hc : w.clock ≤ rec.issuedAt)
    (hx : rec.issuedAt ≤ rec.expiresAt) : Sound cfg (w.call cfg (.issue rec)) := by
  have hsettled := settled_issueSync h.settled rec w.serial
  have htracks := h.tracks.mono hc
  have hlast := lastSweep_issueSync h.settled rec w.serial hx
  have hswept : (w.store.issueSync cfg rec w.serial).1.lastSweep ≤ rec.issuedAt := by
    rcases hlast with he | ⟨he, -⟩
    · rw [he]
      exact h.swept.trans hc
    · exact he.le
  have hlasting : ∀ n e, (w.store.issueSync cfg rec w.serial).1.held cfg n = some e →
      (w.store.issueSync cfg rec w.serial).1.lastSweep ≤ e.expiresAt := by
    intro n e he
    rcases hlast with hs | ⟨hs, hheld⟩
    · rw [hs]
      obtain ⟨held₁, hthins, ⟨-, -, hu⟩ | ⟨-, hu⟩⟩ := @issueSync_cases cfg w.store rec w.serial
      · rw [hu] at he
        by_cases hn : n = rec.nonce
        · subst hn
          rw [Function.update_self] at he
          obtain rfl := Option.some.inj he
          exact (h.swept.trans hc).trans hx
        · rw [Function.update_of_ne hn] at he
          exact h.lasting n e (hthins.kept he)
      · rw [hu] at he
        exact h.lasting n e (hthins.kept he)
    · rw [hs]
      exact hheld n e he
  unfold call
  simp only
  obtain ⟨held₁, hthins, ⟨hr, hn, hu⟩ | ⟨hr, hu⟩⟩ := @issueSync_cases cfg w.store rec w.serial
  · rw [hr]
    refine ⟨hsettled, ?_, hswept, hlasting⟩
    rw [hu]
    exact (htracks.thins hthins).issue hn rfl
  · cases hres : (w.store.issueSync cfg rec w.serial).2 with
    | ok u => exact absurd hres hr
    | error e =>
      refine ⟨hsettled, ?_, hswept, hlasting⟩
      rw [hu]
      exact htracks.thins hthins

theorem consume (h : Sound cfg w) (nonce : Nonce) (verifier : Aid) {now : Timestamp}
    (hc : w.clock ≤ now) : Sound cfg (w.call cfg (.consume nonce verifier now)) := by
  have htracks := h.tracks.mono hc
  refine ⟨h.settled.consumeSync nonce verifier now, ?_, h.swept.trans hc, ?_⟩
  · have hsection := @consumeSection_cases cfg w.store nonce verifier now
    unfold call
    simp only
    change Tracks ((w.store.consumeSection cfg nonce verifier now).1.held cfg)
      (if (w.store.consumeSection cfg nonce verifier now).2.1 = .consumed then _ else _) now
    rcases hsection with ⟨e, he, -, hu, ho⟩ | ⟨hthins, ho⟩
    · rw [hu, ho]
      cases hx : e.expiresAt.isInThePast now with
      | true =>
        simp only [if_true, reduceCtorEq, if_false]
        apply htracks.thins
        intro n
        by_cases hn : n = nonce
        · subst hn
          exact .inr ⟨e, he, Function.update_self .., of_decide_eq_true hx⟩
        · exact .inl (Function.update_of_ne hn ..)
      | false =>
        simp only [Bool.false_eq_true, if_false, if_true]
        exact htracks.consume he
    · rw [ho]
      simp only [reduceCtorEq, if_false]
      exact htracks.thins hthins
  · intro n e he
    exact h.lasting n e (held_of_held_consumeSync he)

theorem sweep (h : Sound cfg w) {now : Timestamp} (hc : w.clock ≤ now) :
    Sound cfg (w.call cfg (.sweep now)) := by
  obtain ⟨hsettled, hlast, -⟩ := h.settled.sweep now
  have hthins := @thins_sweep cfg w.store now
  refine ⟨hsettled, (h.tracks.mono hc).thins hthins, ?_, ?_⟩
  · exact hlast.le.trans (h.swept.trans hc)
  · intro n e he
    exact hlast.le.trans (h.lasting n e (hthins.kept he))

theorem step (h : Sound cfg w) {c : NonceCall} (hs : w.next cfg c = some w') :
    Sound cfg w' := by
  simp only [next] at hs
  split_ifs at hs with hc
  obtain ⟨hclock, hlasts⟩ := hc
  obtain rfl := Option.some.inj hs
  cases c with
  | issue rec => exact h.issue hclock hlasts
  | consume nonce verifier now => exact h.consume nonce verifier hclock
  | sweep now => exact h.sweep hclock

end Sound

theorem sound_of_reachable (h : (sequential cfg).Reachable w) : Sound cfg w := by
  induction h with
  | init hi =>
    obtain rfl := hi
    exact sound_initial
  | step _ hs ih => exact ih.step hs

end NonceLedger

/-- In a sequential run whose clock does not go back, `issue` answers `AtCapacity` exactly when as
many records as the capacity were issued, not consumed and have not expired. -/
theorem nonceStore_atCapacity {w : NonceLedger} (h : (NonceLedger.sequential cfg).Reachable w)
    {rec : IssuedNonce} (hc : w.clock ≤ rec.issuedAt) :
    (∃ retry, (w.store.issueSync cfg rec w.serial).2 = .error (.atCapacity cfg.capacity retry)) ↔
      (unexpired w.issued rec.issuedAt).length = cfg.capacity := by
  have hsound := NonceLedger.sound_of_reachable h
  have hthins : Thins (w.store.held cfg) ((w.store.issuePurge cfg rec).1.held cfg)
      fun _ e => e.expiresAt < rec.issuedAt := thins_issuePurge rec
  rw [issueSync_atCapacity]
  apply reserve_eq_false (hsound.settled.issuePurge rec)
  · exact (hsound.tracks.mono hc).thins hthins
  · intro n e he
    exact hsound.lasting n e (hthins.kept he)

/-- A store of two shards and one record. -/
def twoShards : NonceStoreConfig := ⟨2, 1, fun n => (n.bytes.headD 0).toNat⟩

theorem length_copies (b : UInt8) : (List.replicate 16 b).length = nonceLen :=
  List.length_replicate ..

/-- A challenge whose nonce repeats one byte. -/
def challenge (b : UInt8) (issuedAt expiresAt : Timestamp) : IssuedNonce :=
  ⟨⟨List.replicate 16 b, length_copies b⟩, zeroRecord.verifier, issuedAt, expiresAt⟩

/-- A record in one shard keeps another from being issued until it expires. -/
theorem nonceStore_atCapacity_expired :
    ∃ w, (NonceLedger.sequential twoShards).Reachable w ∧
      (∃ retry, (w.store.issueSync twoShards (challenge 1 160 220) w.serial).2 =
        .error (.atCapacity 1 retry)) ∧
      ¬ ∃ retry, (w.store.issueSync twoShards (challenge 1 161 221) w.serial).2 =
        .error (.atCapacity 1 retry) := by
  have hs : ((System.runNext (NonceLedger.next twoShards) .initial
      [.issue (challenge 0 100 160)]).map fun w =>
        (w.clock, (unexpired w.issued 160).length, (unexpired w.issued 161).length)) =
      some (100, 1, 0) := by
    decide +kernel
  obtain ⟨w, hw, ho⟩ := Option.map_eq_some_iff.mp hs
  have hr : (NonceLedger.sequential twoShards).Reachable w :=
    System.reachable_of_runNext (.init rfl) hw
  obtain ⟨hclock, hone, hnone⟩ := by simpa only [Prod.mk.injEq] using ho
  refine ⟨w, hr, ?_, ?_⟩
  · apply (nonceStore_atCapacity hr _).mpr hone
    rw [hclock]
    decide
  · intro hfull
    have hlen := (nonceStore_atCapacity hr (by rw [hclock]; decide)).mp hfull
    exact absurd (hlen.symm.trans hnone) (by decide)

end Aitp
