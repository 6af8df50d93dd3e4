import Aitp.Core.NonceStoreCapacity

/-! # The expiry bound of the nonce store

`next_expiry` is to be no later than any record held expires. A sweep reads the shards one
at a time and then stores the earliest expiry it found, which is later than that of a record
put into a shard it was past when the issue of that record lowered the bound before the
sweep stored its own. No other step makes the bound late.
-/

namespace Aitp

open Expiring Transition InMemoryNonceStore

variable {cfg : NonceStoreConfig} {st st' : InMemoryNonceStore} {serial : ℕ}

/-! ## Steps -/

namespace InMemoryNonceStore

theorem shards_tryReserve : (st.tryReserve cfg).1.shards = st.shards := by
  unfold tryReserve
  split_ifs
  · rfl
  · rfl

theorem nextExpiry_tryReserve : (st.tryReserve cfg).1.nextExpiry = st.nextExpiry := by
  unfold tryReserve
  split_ifs
  · rfl
  · rfl

end InMemoryNonceStore

namespace Pc

/-- What a sweep that is past a shard has found so far. -/
def found : Pc → ℕ → Option Timestamp
  | sweepShard _ j _ earliest _, i => if i < j then some earliest else none
  | sweepRelease _ earliest _, _ => some earliest
  | sweepStore _ earliest _, _ => some earliest
  | _, _ => none

/-- A thread that is not past a shard and is not to lower the bound. -/
structure Plain (pc : Pc) : Prop where
  found : ∀ i, pc.found i = none
  lower : ∀ rec, pc ≠ .issueLower rec

/-- A step that leaves the bound, inserts no record and passes no shard. -/
structure Quiet (cfg : NonceStoreConfig) (st st' : InMemoryNonceStore) (pc pc' : Pc) : Prop where
  before : ∀ rec, pc ≠ .issueLower rec
  after : ∀ rec, pc' ≠ .issueLower rec
  store : ∀ removed earliest rec, pc ≠ .sweepStore removed earliest rec
  nextExpiry : st'.nextExpiry = st.nextExpiry
  kept : ∀ n e, st'.held cfg n = some e → st.held cfg n = some e
  found : ∀ i < max cfg.shards 1, ∀ x, pc'.found i = some x → pc.found i = some x

variable {pc pc' : Pc}

theorem Plain.quiet (h : pc.Plain) (h' : pc'.Plain) (hn : st'.nextExpiry = st.nextExpiry)
    (hk : ∀ n e, st'.held cfg n = some e → st.held cfg n = some e) :
    Quiet cfg st st' pc pc' where
  before := h.lower
  after := h'.lower
  store := by
    rintro removed earliest rec rfl
    exact Option.some_ne_none _ (h.found 0)
  nextExpiry := hn
  kept := hk
  found i _ x hx := absurd (hx.symm.trans (h'.found i)) (Option.some_ne_none x)

theorem plain_ite {c : Prop} [Decidable c] {pc₁ pc₂ : Pc} (h₁ : pc₁.Plain) (h₂ : pc₂.Plain) :
    (if c then pc₁ else pc₂).Plain := by
  split_ifs
  · exact h₁
  · exact h₂

theorem quiet_tryReserve (h : pc.Plain) (h' : pc'.Plain) :
    Quiet cfg st (st.tryReserve cfg).1 pc pc' := by
  apply Plain.quiet h h' nextExpiry_tryReserve
  intro n e he
  rwa [held_tryReserve] at he

/-- What a step can do to the bound and to what a sweep has found. -/
theorem bound_step (h : pc.step cfg st serial = some (st', pc')) :
    (∃ rec, pc = .issueInsert rec ∧ st' = (st.issueInsert cfg rec serial).1 ∧
      pc' = if (st.issueInsert cfg rec serial).2 then .issueLower rec else .issueDuplicate) ∨
    (∃ rec, pc = .issueLower rec ∧ pc'.Plain ∧
      st' = { st with nextExpiry := min st.nextExpiry rec.expiresAt }) ∨
    (∃ now i removed earliest rec, pc = .sweepShard now i removed earliest rec ∧
      i < max cfg.shards 1 ∧ st' = (st.sweepShard i now).1 ∧
      pc' = .sweepShard now (i + 1) (removed + (st.sweepShard i now).2.1)
        ((st.sweepShard i now).2.2.elim earliest (min earliest)) rec) ∨
    (∃ removed earliest rec, pc = .sweepStore removed earliest rec ∧ pc'.Plain ∧
      st' = { st with nextExpiry := earliest }) ∨
    Quiet cfg st st' pc pc' := by
  cases pc with
  | idle => cases h
  | returned r => cases h
  | issueInsert rec =>
    obtain ⟨rfl, rfl⟩ := Prod.mk.inj (Option.some.inj h)
    exact .inl ⟨rec, rfl, rfl, rfl⟩
  | issueLower rec =>
    obtain ⟨rfl, rfl⟩ := Prod.mk.inj (Option.some.inj h)
    exact .inr (.inl ⟨rec, rfl, ⟨fun _ => rfl, by rintro _ ⟨⟩⟩, rfl⟩)
  | sweepStore removed earliest rec =>
    obtain ⟨rfl, rfl⟩ := Prod.mk.inj (Option.some.inj h)
    refine .inr (.inr (.inr (.inl ⟨removed, earliest, rec, rfl, ?_, rfl⟩)))
    cases rec with
    | none => exact ⟨fun _ => rfl, by rintro _ ⟨⟩⟩
    | some rec => exact ⟨fun _ => rfl, by rintro _ ⟨⟩⟩
  | sweepShard now i removed earliest rec =>
    simp only [Pc.step] at h
    split_ifs at h with hi
    · obtain ⟨rfl, rfl⟩ := Prod.mk.inj (Option.some.inj h)
      exact .inr (.inr (.inl ⟨now, i, removed, earliest, rec, rfl, hi, rfl, rfl⟩))
    · obtain ⟨rfl, rfl⟩ := Prod.mk.inj (Option.some.inj h)
      refine .inr (.inr (.inr (.inr ⟨by rintro _ ⟨⟩, by rintro _ ⟨⟩, by rintro _ _ _ ⟨⟩, rfl,
        fun _ _ he => he, ?_⟩)))
      intro j hj x hx
      exact (if_pos (hj.trans_le (not_lt.mp hi))).trans hx
  | sweepRelease removed earliest rec =>
    obtain ⟨rfl, rfl⟩ := Prod.mk.inj (Option.some.inj h)
    exact .inr (.inr (.inr (.inr ⟨by rintro _ ⟨⟩, by rintro _ ⟨⟩, by rintro _ _ _ ⟨⟩, rfl,
      fun _ _ he => he, fun _ _ _ hx => hx⟩)))
  | issuePurge rec =>
    obtain ⟨rfl, rfl⟩ := Prod.mk.inj (Option.some.inj h)
    refine .inr (.inr (.inr (.inr (Plain.quiet ⟨fun _ => rfl, by rintro _ ⟨⟩⟩
      ⟨fun _ => rfl, by rintro _ ⟨⟩⟩ rfl ?_))))
    intro n e he
    exact (thins_issuePurge rec).kept he
  | consumeSection nonce verifier now =>
    obtain ⟨rfl, rfl⟩ := Prod.mk.inj (Option.some.inj h)
    refine .inr (.inr (.inr (.inr (Plain.quiet ⟨fun _ => rfl, by rintro _ ⟨⟩⟩
      ⟨fun _ => rfl, by rintro _ ⟨⟩⟩ rfl ?_))))
    intro n e he
    exact held_of_held_consumeSync he
  | issueReserve rec =>
    simp only [Pc.step, Option.some.injEq, Prod.mk.injEq] at h
    obtain ⟨rfl, rfl⟩ := h
    exact .inr (.inr (.inr (.inr (quiet_tryReserve ⟨fun _ => rfl, by rintro _ ⟨⟩⟩
      (plain_ite ⟨fun _ => rfl, by rintro _ ⟨⟩⟩ ⟨fun _ => rfl, by rintro _ ⟨⟩⟩)))))
  | issueReserveAgain rec =>
    simp only [Pc.step, Option.some.injEq, Prod.mk.injEq] at h
    obtain ⟨rfl, rfl⟩ := h
    exact .inr (.inr (.inr (.inr (quiet_tryReserve ⟨fun _ => rfl, by rintro _ ⟨⟩⟩
      (plain_ite ⟨fun _ => rfl, by rintro _ ⟨⟩⟩ ⟨fun _ => rfl, by rintro _ ⟨⟩⟩)))))
  | issueClaimSweep rec =>
    obtain ⟨rfl, rfl⟩ := Prod.mk.inj (Option.some.inj h)
    exact .inr (.inr (.inr (.inr (Plain.quiet ⟨fun _ => rfl, by rintro _ ⟨⟩⟩
      (plain_ite ⟨fun _ => rfl, by rintro _ ⟨⟩⟩ ⟨fun _ => rfl, by rintro _ ⟨⟩⟩) rfl
      fun _ _ he => he))))
  | _ =>
    obtain ⟨rfl, rfl⟩ := Prod.mk.inj (Option.some.inj h)
    exact .inr (.inr (.inr (.inr (Plain.quiet ⟨fun _ => rfl, by rintro _ ⟨⟩⟩
      ⟨fun _ => rfl, by rintro _ ⟨⟩⟩ rfl fun _ _ he => he))))

theorem filed_step (h : pc.step cfg st serial = some (st', pc')) (hf : Filed cfg st) :
    Filed cfg st' := by
  cases pc with
  | idle => cases h
  | returned r => cases h
  | issueInsert rec =>
    obtain ⟨rfl, -⟩ := Prod.mk.inj (Option.some.inj h)
    exact hf.issueInsert rec serial
  | issuePurge rec =>
    obtain ⟨rfl, -⟩ := Prod.mk.inj (Option.some.inj h)
    exact hf.issuePurge rec
  | consumeSection nonce verifier now =>
    obtain ⟨rfl, -⟩ := Prod.mk.inj (Option.some.inj h)
    exact hf.consumeSection nonce verifier now
  | sweepShard now i removed earliest rec =>
    simp only [Pc.step] at h
    split_ifs at h
    · obtain ⟨rfl, -⟩ := Prod.mk.inj (Option.some.inj h)
      exact hf.sweepShard i now
    · obtain ⟨rfl, -⟩ := Prod.mk.inj (Option.some.inj h)
      exact hf
  | issueReserve rec =>
    simp only [Pc.step, Option.some.injEq, Prod.mk.injEq] at h
    obtain ⟨rfl, -⟩ := h
    exact hf.of_shards shards_tryReserve
  | issueReserveAgain rec =>
    simp only [Pc.step, Option.some.injEq, Prod.mk.injEq] at h
    obtain ⟨rfl, -⟩ := h
    exact hf.of_shards shards_tryReserve
  | _ =>
    obtain ⟨rfl, -⟩ := Prod.mk.inj (Option.some.inj h)
    exact hf.of_shards rfl

end Pc

/-! ## Runs -/

/-- A store with its threads, and for each thread the records whose issue lowered the bound since
the sweep of that thread was past their shard. -/
structure BoundWorld where
  world : NonceWorld
  missed : ℕ → List IssuedNonce

namespace BoundWorld

def initial : BoundWorld := ⟨.initial, fun _ => []⟩

/-- A sweep misses what lowers the bound after it was past the shard, until it stores its own. -/
def missedNext (cfg : NonceStoreConfig) (b : BoundWorld) (t : ℕ) : ℕ → List IssuedNonce :=
  match b.world.threads t with
  | .issueLower rec => fun u =>
    if ((b.world.threads u).found (shardOf cfg rec.nonce)).isSome then rec :: b.missed u
    else b.missed u
  | .sweepStore .. => Function.update b.missed t []
  | _ => b.missed

def next (cfg : NonceStoreConfig) (b : BoundWorld) (ev : NonceEvent) : Option BoundWorld :=
  (b.world.next cfg ev).map fun w =>
    ⟨w, match ev with
      | .call .. => b.missed
      | .run t => b.missedNext cfg t⟩

/-- Every interleaving of calls on a new store, with what its sweeps miss. -/
def watched (cfg : NonceStoreConfig) : System BoundWorld NonceEvent :=
  .ofNext initial (next cfg)

/-- A sweep stores a bound later than a record that it missed, and that is still held, expires. -/
def overwrites (cfg : NonceStoreConfig) (b : BoundWorld) : NonceEvent → Bool
  | .call .. => false
  | .run t =>
    match b.world.threads t with
    | .sweepStore _ earliest _ => (b.missed t).any fun rec =>
      decide (rec.expiresAt < earliest) &&
        (b.world.store.held cfg rec.nonce).any fun e => decide (e.expiresAt = rec.expiresAt)
    | _ => false

/-- No sweep overwrites what it missed. -/
def Careful (cfg : NonceStoreConfig) (b : BoundWorld) (ev : NonceEvent) : Prop :=
  b.overwrites cfg ev = false

instance (b : BoundWorld) (ev : NonceEvent) : Decidable (Careful cfg b ev) :=
  inferInstanceAs (Decidable (_ = _))

end BoundWorld

/-- An issue of a record is between its insertion and lowering the bound. -/
def Lowering (threads : ℕ → Pc) (n : Nonce) (e : Entry) : Prop :=
  ∃ t rec, threads t = .issueLower rec ∧ rec.nonce = n ∧ rec.expiresAt = e.expiresAt

theorem Lowering.update {threads : ℕ → Pc} {n : Nonce} {e : Entry} (h : Lowering threads n e)
    {t : ℕ} (ht : ∀ rec, threads t ≠ .issueLower rec) (pc : Pc) :
    Lowering (Function.update threads t pc) n e := by
  obtain ⟨u, rec, hu, hn, hx⟩ := h
  have hne : u ≠ t := by
    rintro rfl
    exact ht rec hu
  exact ⟨u, rec, by rwa [Function.update_of_ne hne], hn, hx⟩

/-- The bound, and what each sweep found so far, is no later than a record expires, unless an
issue of it is to lower the bound or the sweep missed it. -/
structure Bounded (cfg : NonceStoreConfig) (b : BoundWorld) : Prop where
  filed : Filed cfg b.world.store
  lower : ∀ n e, b.world.store.held cfg n = some e →
    Lowering b.world.threads n e ∨ b.world.store.nextExpiry ≤ e.expiresAt
  found : ∀ t n e x, b.world.store.held cfg n = some e →
    (b.world.threads t).found (shardOf cfg n) = some x →
    Lowering b.world.threads n e ∨ x ≤ e.expiresAt ∨
      ∃ rec ∈ b.missed t, rec.nonce = n ∧ rec.expiresAt = e.expiresAt

namespace Bounded

open BoundWorld

variable {b b' : BoundWorld} {t : ℕ} {w : NonceWorld} {pc' : Pc}

theorem initial : Bounded cfg .initial where
  filed := filed_new
  lower := by
    rintro n e ⟨⟩
  found := by
    rintro t n e x ⟨⟩

theorem call (h : Bounded cfg b) {c : NonceCall} (hs : b.next cfg (.call t c) = some b') :
    Bounded cfg b' := by
  obtain ⟨w', hw, rfl⟩ := Option.map_eq_some_iff.mp hs
  have hstart : (∀ rec, b.world.threads t ≠ .issueLower rec) ∧
      w' = { b.world with threads := Function.update b.world.threads t c.entry } := by
    simp only [NonceWorld.next] at hw
    split at hw
    · rename_i he
      rw [he]
      exact ⟨by rintro _ ⟨⟩, (Option.some.inj hw).symm⟩
    · rename_i he
      rw [he]
      exact ⟨by rintro _ ⟨⟩, (Option.some.inj hw).symm⟩
    · cases hw
  obtain ⟨hidle, rfl⟩ := hstart
  refine ⟨h.filed, ?_, ?_⟩
  · intro n e he
    rcases h.lower n e he with hl | hle
    · exact .inl (hl.update hidle _)
    · exact .inr hle
  · intro u n e x he hx
    by_cases hu : u = t
    · subst hu
      simp only [Function.update_self] at hx
      cases c with
      | issue rec => cases hx
      | consume nonce verifier now => cases hx
      | sweep now => cases hx
    · simp only [Function.update_of_ne hu] at hx
      rcases h.found u n e x he hx with hl | hr
      · exact .inl (hl.update hidle _)
      · exact .inr hr

/-- A record inserted is to lower the bound. -/
theorem insert (h : Bounded cfg b) {rec : IssuedNonce}
    (ht : b.world.threads t = .issueInsert rec) {issued : ℕ} {answers : List Answer} :
    Bounded cfg ⟨⟨(b.world.store.issueInsert cfg rec serial).1,
      Function.update b.world.threads t
        (if (b.world.store.issueInsert cfg rec serial).2 then .issueLower rec
          else .issueDuplicate), issued, answers⟩, b.missed⟩ := by
  have hkept : ∀ n e, Lowering b.world.threads n e → ∀ pc,
      Lowering (Function.update b.world.threads t pc) n e := by
    intro n e hl pc
    exact hl.update (by rw [ht]; rintro _ ⟨⟩) pc
  have hheld : ∀ n e, (b.world.store.issueInsert cfg rec serial).1.held cfg n = some e →
      b.world.store.held cfg n = some e ∨ (b.world.store.issueInsert cfg rec serial).2 = true ∧
        rec.nonce = n ∧ rec.expiresAt = e.expiresAt := by
    intro n e he
    cases hi : (b.world.store.issueInsert cfg rec serial).2 with
    | true =>
      rw [(issueInsert_of_true hi).2] at he
      by_cases hn : n = rec.nonce
      · subst hn
        rw [Function.update_self] at he
        obtain rfl := Option.some.inj he
        exact .inr ⟨rfl, rfl, rfl⟩
      · rw [Function.update_of_ne hn] at he
        exact .inl he
    | false =>
      rw [issueInsert_of_false hi] at he
      exact .inl he
  have hnew : ∀ n e, (b.world.store.issueInsert cfg rec serial).2 = true ∧ rec.nonce = n ∧
      rec.expiresAt = e.expiresAt → Lowering (Function.update b.world.threads t
        (if (b.world.store.issueInsert cfg rec serial).2 then .issueLower rec
          else .issueDuplicate)) n e := by
    rintro n e ⟨hi, hn, hx⟩
    rw [hi]
    exact ⟨t, rec, Function.update_self .., hn, hx⟩
  refine ⟨h.filed.issueInsert rec serial, ?_, ?_⟩
  · intro n e he
    rcases hheld n e he with he | he
    · rcases h.lower n e he with hl | hle
      · exact .inl (hkept n e hl _)
      · exact .inr hle
    · exact .inl (hnew n e he)
  · intro u n e x he hx
    by_cases hu : u = t
    · subst hu
      simp only [Function.update_self] at hx
      split_ifs at hx <;> cases hx
    · simp only [Function.update_of_ne hu] at hx
      rcases hheld n e he with he | he
      · rcases h.found u n e x he hx with hl | hr
        · exact .inl (hkept n e hl _)
        · exact .inr hr
      · exact .inl (hnew n e he)

theorem lowered (h : Bounded cfg b) {rec : IssuedNonce}
    (ht : b.world.threads t = .issueLower rec) (hp : pc'.Plain) {issued : ℕ}
    {answers : List Answer} :
    Bounded cfg ⟨⟨{ b.world.store with nextExpiry := min b.world.store.nextExpiry rec.expiresAt },
      Function.update b.world.threads t pc', issued, answers⟩, fun u =>
        if ((b.world.threads u).found (shardOf cfg rec.nonce)).isSome then rec :: b.missed u
        else b.missed u⟩ := by
  have hkept : ∀ n e, Lowering b.world.threads n e →
      (rec.nonce = n ∧ rec.expiresAt = e.expiresAt) ∨
        Lowering (Function.update b.world.threads t pc') n e := by
    rintro n e ⟨u, rec', hu, hn, hx⟩
    by_cases hut : u = t
    · subst hut
      obtain rfl := Pc.issueLower.inj (ht.symm.trans hu)
      exact .inl ⟨hn, hx⟩
    · exact .inr ⟨u, rec', by rwa [Function.update_of_ne hut], hn, hx⟩
  refine ⟨h.filed.of_shards rfl, ?_, ?_⟩
  · intro n e he
    rcases h.lower n e he with hl | hle
    · rcases hkept n e hl with ⟨-, hx⟩ | hl
      · exact .inr (hx ▸ min_le_right ..)
      · exact .inl hl
    · exact .inr ((min_le_left ..).trans hle)
  · intro u n e x he hx
    by_cases hu : u = t
    · subst hu
      simp only [Function.update_self, hp.found] at hx
      cases hx
    · simp only [Function.update_of_ne hu] at hx
      simp only
      rcases h.found u n e x he hx with hl | hle | ⟨r, hr, hrn⟩
      · rcases hkept n e hl with ⟨rfl, hexp⟩ | hl
        · refine .inr (.inr ⟨rec, ?_, rfl, hexp⟩)
          rw [hx, Option.isSome_some, if_pos rfl]
          exact List.mem_cons_self
        · exact .inl hl
      · exact .inr (.inl hle)
      · refine .inr (.inr ⟨r, ?_, hrn⟩)
        split_ifs
        · exact List.mem_cons_of_mem _ hr
        · exact hr

/-- A sweep finds a bound of the records of each shard that it passes. -/
theorem swept (h : Bounded cfg b) {now : Timestamp} {i removed : ℕ} {earliest : Timestamp}
    {rec : Option IssuedNonce}
    (ht : b.world.threads t = .sweepShard now i removed earliest rec) {issued removed' : ℕ}
    {answers : List Answer} :
    Bounded cfg ⟨⟨(b.world.store.sweepShard i now).1,
      Function.update b.world.threads t (.sweepShard now (i + 1) removed'
        ((b.world.store.sweepShard i now).2.2.elim earliest (min earliest)) rec),
      issued, answers⟩, b.missed⟩ := by
  have hlower : ∀ rec, b.world.threads t ≠ .issueLower rec := by
    rw [ht]
    rintro _ ⟨⟩
  refine ⟨h.filed.sweepShard i now, ?_, ?_⟩
  · intro n e he
    rcases h.lower n e ((thins_sweepShard i now).kept he) with hl | hle
    · exact .inl (hl.update hlower _)
    · exact .inr hle
  · intro u n e x he hx
    have hold := (thins_sweepShard i now).kept he
    by_cases hu : u = t
    · subst hu
      simp only [Function.update_self, Pc.found] at hx
      split_ifs at hx with hlt
      obtain rfl := Option.some.inj hx
      by_cases hi : shardOf cfg n = i
      · subst hi
        obtain ⟨-, first, hfirst, hle⟩ := held_sweepShard h.filed he
        refine .inr (.inl ?_)
        simp only [hfirst, Option.elim_some]
        exact (min_le_right ..).trans hle
      · have hpast : (b.world.threads u).found (shardOf cfg n) = some earliest := by
          rw [ht]
          exact if_pos (by omega)
        rcases h.found u n e earliest hold hpast with hl | hle | hr
        · exact .inl (hl.update hlower _)
        · refine .inr (.inl (le_trans ?_ hle))
          cases (b.world.store.sweepShard i now).2.2 with
          | none => exact le_rfl
          | some first => exact min_le_left ..
        · exact .inr (.inr hr)
    · simp only [Function.update_of_ne hu] at hx
      rcases h.found u n e x hold hx with hl | hr
      · exact .inl (hl.update hlower _)
      · exact .inr hr

theorem stored (h : Bounded cfg b) {removed : ℕ} {earliest : Timestamp} {rec : Option IssuedNonce}
    (ht : b.world.threads t = .sweepStore removed earliest rec) (hp : pc'.Plain)
    (hc : Careful cfg b (.run t)) {issued : ℕ} {answers : List Answer} :
    Bounded cfg ⟨⟨{ b.world.store with nextExpiry := earliest },
      Function.update b.world.threads t pc', issued, answers⟩,
      Function.update b.missed t []⟩ := by
  have hlower : ∀ rec, b.world.threads t ≠ .issueLower rec := by
    rw [ht]
    rintro _ ⟨⟩
  refine ⟨h.filed.of_shards rfl, ?_, ?_⟩
  · intro n e he
    have hpast : (b.world.threads t).found (shardOf cfg n) = some earliest := by
      rw [ht]
      rfl
    rcases h.found t n e earliest he hpast with hl | hle | ⟨r, hr, rfl, hx⟩
    · exact .inl (hl.update hlower _)
    · exact .inr hle
    · right
      simp only [Careful, overwrites, ht] at hc
      have hkeep := List.any_eq_false.mp hc r hr
      rw [Bool.and_eq_true, not_and, decide_eq_true_eq] at hkeep
      have hheld : b.world.store.held cfg r.nonce = some e := he
      by_contra hlt
      refine hkeep (hx ▸ not_le.mp hlt) ?_
      rw [hheld, Option.any_some]
      exact decide_eq_true hx.symm
  · intro u n e x he hx
    by_cases hu : u = t
    · subst hu
      simp only [Function.update_self, hp.found] at hx
      cases hx
    · simp only [Function.update_of_ne hu] at hx ⊢
      rcases h.found u n e x he hx with hl | hr
      · exact .inl (hl.update hlower _)
      · exact .inr hr

theorem quiet (h : Bounded cfg b) (hf : Filed cfg st')
    (hq : Pc.Quiet cfg b.world.store st' (b.world.threads t) pc') {issued : ℕ}
    {answers : List Answer} :
    Bounded cfg ⟨⟨st', Function.update b.world.threads t pc', issued, answers⟩, b.missed⟩ := by
  refine ⟨hf, ?_, ?_⟩
  · intro n e he
    rcases h.lower n e (hq.kept n e he) with hl | hle
    · exact .inl (hl.update hq.before _)
    · exact .inr (hq.nextExpiry.le.trans hle)
  · intro u n e x he hx
    have hpast : (b.world.threads u).found (shardOf cfg n) = some x := by
      by_cases hu : u = t
      · subst hu
        simp only [Function.update_self] at hx
        exact hq.found _ (shardOf_lt n) x hx
      · simpa only [Function.update_of_ne hu] using hx
    rcases h.found u n e x (hq.kept n e he) hpast with hl | hr
    · exact .inl (hl.update hq.before _)
    · exact .inr hr

theorem run (h : Bounded cfg b) (hc : Careful cfg b (.run t))
    (hs : b.next cfg (.run t) = some b') : Bounded cfg b' := by
  obtain ⟨w', hw, rfl⟩ := Option.map_eq_some_iff.mp hs
  obtain ⟨⟨st', pc'⟩, hr, rfl⟩ := Option.map_eq_some_iff.mp hw
  rcases Pc.bound_step hr with ⟨rec, ht, hst, hpc⟩ | ⟨rec, ht, hp, hst⟩ |
    ⟨now, i, removed, earliest, rec, ht, hi, hst, hpc⟩ | ⟨removed, earliest, rec, ht, hp, hst⟩ |
    hq
  · simp only [hst, hpc, missedNext, ht]
    exact h.insert ht
  · simp only [hst, missedNext, ht]
    exact h.lowered ht hp
  · simp only [hst, hpc, missedNext, ht]
    exact h.swept ht
  · simp only [hst, missedNext, ht]
    exact h.stored ht hp hc
  · have hmissed : b.missedNext cfg t = b.missed := by
      unfold missedNext
      split
      · rename_i rec he
        exact absurd he (hq.before rec)
      · rename_i removed earliest rec he
        exact absurd he (hq.store removed earliest rec)
      · rfl
    simp only [hmissed]
    exact h.quiet (Pc.filed_step hr h.filed) hq

end Bounded

theorem bounded_of_reachable {b : BoundWorld}
    (h : ((BoundWorld.watched cfg).restrict (BoundWorld.Careful cfg)).Reachable b) :
    Bounded cfg b := by
  refine h.invariant ?_ ?_
  · rintro b rfl
    exact .initial
  · rintro b ev b' hb ⟨hc, hs⟩
    cases ev with
    | call t c => exact hb.call hs
    | run t => exact hb.run hc hs

/-! ## Refusals -/

theorem saturate_le_or (z : Int) : saturate z ≤ z ∨ saturate z = i64Min := by
  unfold saturate
  rcases le_total i64Min (min i64Max z) with h | h
  · rw [max_eq_right h]
    exact .inl (min_le_right ..)
  · rw [max_eq_left h]
    exact .inr rfl

theorem add_saturate_le {next now expiresAt : Int} (hn : i64Min ≤ now) (h : next ≤ expiresAt) :
    now + max (saturate (saturate (next + 1) - now)) 1 ≤ max (expiresAt + 1) (now + 1) := by
  have hmin : i64Min ≤ 0 := by decide
  rcases saturate_le_or (next + 1) with hi | hi
  · rcases saturate_le_or (saturate (next + 1) - now) with ho | ho
    · omega
    · omega
  · rcases saturate_le_or (saturate (next + 1) - now) with ho | ho
    · omega
    · omega

theorem retryAfter_le {now expiresAt : Timestamp} {secs : ℕ} (hf : now.Fits)
    (h : st.retryAfter now = some secs) (hle : st.nextExpiry ≤ expiresAt) :
    now + secs ≤ max (expiresAt + 1) (now + 1) := by
  unfold retryAfter at h
  split_ifs at h
  have hsecs : (secs : Int) = max (saturate (saturate (st.nextExpiry + 1) - now)) 1 := by
    rw [← Option.some.inj h]
    exact Int.toNat_of_nonneg ((Int.zero_le_ofNat 1).trans (le_max_right ..))
  rw [hsecs]
  exact add_saturate_le hf.1 hle

theorem refusal_step {w w' : NonceWorld} {t : ℕ} {rec : IssuedNonce} {retry : Option ℕ}
    (ht : w.threads t = .issueRefuse rec) (hs : w.next cfg (.run t) = some w')
    (hr : w'.threads t = .returned (.issued (.error (.atCapacity cfg.capacity retry)))) :
    w.store.retryAfter rec.issuedAt = retry := by
  obtain ⟨⟨st', pc'⟩, hp, rfl⟩ := Option.map_eq_some_iff.mp hs
  rw [ht] at hp
  obtain ⟨rfl, rfl⟩ := Prod.mk.inj (Option.some.inj hp)
  simp only [Function.update_self, Pc.returned.injEq, NonceResult.issued.injEq,
    Except.error.injEq, NonceStoreError.atCapacity.injEq, true_and] at hr
  exact hr

theorem late_of_overwrites {b b' : BoundWorld} {t : ℕ} (ho : b.overwrites cfg (.run t) = true)
    (hs : b.next cfg (.run t) = some b') :
    ∃ n e, b'.world.store.held cfg n = some e ∧ e.expiresAt < b'.world.store.nextExpiry := by
  obtain ⟨w', hw, rfl⟩ := Option.map_eq_some_iff.mp hs
  obtain ⟨⟨st', pc'⟩, hr, rfl⟩ := Option.map_eq_some_iff.mp hw
  cases ht : b.world.threads t with
  | sweepStore removed earliest rec =>
    simp only [BoundWorld.overwrites, ht] at ho
    obtain ⟨r, -, hr'⟩ := List.any_eq_true.mp ho
    obtain ⟨hlt, hheld⟩ := (Bool.and_eq_true _ _).mp hr'
    obtain ⟨e, he, hx⟩ := (Option.any_eq_true ..).mp hheld
    rw [ht] at hr
    obtain ⟨rfl, -⟩ := Prod.mk.inj (Option.some.inj hr)
    refine ⟨r.nonce, e, he, ?_⟩
    rw [of_decide_eq_true hx]
    exact of_decide_eq_true hlt
  | _ =>
    simp only [BoundWorld.overwrites, ht] at ho
    cases ho

/-- While no sweep overwrites what it missed, the bound is no later than a record expires whose
nonce no issue is lowering it for, and a refusal asks for no later than the second after; a sweep
that overwrites makes the bound late. -/
theorem nonceStore_bound {b : BoundWorld}
    (h : ((BoundWorld.watched cfg).restrict (BoundWorld.Careful cfg)).Reachable b) :
    (∀ n e, b.world.store.held cfg n = some e →
      (∀ t rec, b.world.threads t = .issueLower rec → rec.nonce ≠ n) →
      b.world.store.nextExpiry ≤ e.expiresAt ∧
      ∀ t rec w' secs, b.world.threads t = .issueRefuse rec → rec.issuedAt.Fits →
        b.world.next cfg (.run t) = some w' →
        w'.threads t = .returned (.issued (.error (.atCapacity cfg.capacity (some secs)))) →
        rec.issuedAt + secs ≤ max (e.expiresAt + 1) (rec.issuedAt + 1)) ∧
    ∀ t b', b.next cfg (.run t) = some b' → ¬BoundWorld.Careful cfg b (.run t) →
      ∃ n e, b'.world.store.held cfg n = some e ∧ e.expiresAt < b'.world.store.nextExpiry := by
  constructor
  · intro n e he hn
    have hle : b.world.store.nextExpiry ≤ e.expiresAt := by
      rcases (bounded_of_reachable h).lower n e he with ⟨t, rec, ht, hrec, -⟩ | hle
      · exact absurd hrec (hn t rec ht)
      · exact hle
    refine ⟨hle, ?_⟩
    intro t rec w' secs ht hf hs hr
    exact retryAfter_le hf (refusal_step ht hs hr) hle
  · intro t b' hs hc
    rw [BoundWorld.Careful, Bool.not_eq_false] at hc
    exact late_of_overwrites hc hs

/-! ## A bound that is late -/

/-- The thread of an event. -/
def NonceEvent.thread : NonceEvent → ℕ
  | call t _ => t
  | run t => t

theorem threads_of_next {w w' : NonceWorld} {ev : NonceEvent} {t : ℕ} (ht : t ≠ ev.thread)
    (h : w.next cfg ev = some w') : w'.threads t = w.threads t := by
  cases ev with
  | call u c =>
    simp only [NonceWorld.next] at h
    split at h
    · obtain rfl := Option.some.inj h
      exact Function.update_of_ne ht ..
    · obtain rfl := Option.some.inj h
      exact Function.update_of_ne ht ..
    · cases h
  | run u =>
    obtain ⟨r, -, rfl⟩ := Option.map_eq_some_iff.mp h
    exact Function.update_of_ne ht ..

theorem threads_of_runNext {σ : Type} {next : σ → NonceEvent → Option σ} {threads : σ → ℕ → Pc}
    (hnext : ∀ s ev s' t, t ≠ ev.thread → next s ev = some s' → threads s' t = threads s t)
    {es : List NonceEvent} {s s' : σ} {t : ℕ} (h : System.runNext next s es = some s')
    (ht : ∀ ev ∈ es, ev.thread ≠ t) : threads s' t = threads s t := by
  induction es generalizing s with
  | nil =>
    obtain rfl := Option.some.inj h
    rfl
  | cons ev es ih =>
    obtain ⟨s₁, hs, hr⟩ := Option.bind_eq_some_iff.mp h
    rw [ih hr fun ev' he => ht ev' (List.mem_cons_of_mem _ he)]
    exact hnext s ev s₁ t (ht ev List.mem_cons_self).symm hs

/-- A store of two shards and two records. -/
def twoRecords : NonceStoreConfig := { twoShards with capacity := 2 }

/-- Two records are issued. A third finds the store full and sweeps, and when it is past the first
shard the record of that shard is consumed and another put in its place. -/
def overtakenRun (expiresAt : Timestamp) : List NonceEvent :=
  [.call 0 (.issue (challenge 1 0 100)), .run 0, .run 0, .run 0, .run 0, .run 0,
    .call 1 (.issue (challenge 0 0 50)), .run 1, .run 1, .run 1, .run 1, .run 1,
    .call 2 (.issue (challenge 3 5 65)), .run 2, .run 2, .run 2, .run 2, .run 2, .run 2,
    .call 3 (.consume (challenge 0 0 50).nonce zeroRecord.verifier 5), .run 3, .run 3,
    .call 4 (.issue (challenge 2 5 expiresAt)), .run 4, .run 4, .run 4, .run 4, .run 4,
    .run 2, .run 2, .run 2, .run 2, .run 2]

def Pc.isIssueLower : Pc → Bool
  | issueLower _ => true
  | _ => false

/-- When the record was to be issued that a thread is to refuse. -/
def Pc.refuses : Pc → Option Timestamp
  | issueRefuse rec => some rec.issuedAt
  | _ => none

theorem issueRefuse_of_refuses {pc : Pc} {now : Timestamp} (h : pc.refuses = some now) :
    ∃ rec, pc = .issueRefuse rec ∧ rec.issuedAt = now := by
  cases pc with
  | issueRefuse rec => exact ⟨rec, rfl, Option.some.inj h⟩
  | _ => cases h

/-- No thread lowers the bound when none of those used does. -/
theorem not_issueLower {σ : Type} {next : σ → NonceEvent → Option σ} (threads : σ → ℕ → Pc)
    (n : ℕ)
    (hnext : ∀ s ev s' t, t ≠ ev.thread → next s ev = some s' → threads s' t = threads s t)
    {es : List NonceEvent} {s s' : σ} (h : System.runNext next s es = some s')
    (hidle : ∀ t, threads s t = .idle)
    (hall : ((List.range n).all fun t => !(threads s' t).isIssueLower) = true)
    (hes : (es.all fun ev => ev.thread < n) = true) (t : ℕ) (rec : IssuedNonce) :
    threads s' t ≠ .issueLower rec := by
  intro he
  by_cases ht : t < n
  · have hnone := List.all_eq_true.mp hall t (List.mem_range.mpr ht)
    rw [he] at hnone
    cases hnone
  · have hne : ∀ ev ∈ es, ev.thread ≠ t := by
      rintro ev hev rfl
      exact ht (of_decide_eq_true (List.all_eq_true.mp hes ev hev))
    rw [threads_of_runNext hnext h hne, hidle] at he
    cases he

/-- With no issue under way but the refused one, a record is held that expires in second 10, the
bound is 50, and the refusal asks to come back in 46 seconds, although it is second 5. -/
theorem nonceStore_bound_overtaken : ∃ w w', (NonceWorld.interleaving twoRecords).Reachable w ∧
    (∀ t rec, w.threads t ≠ .issueLower rec) ∧
    (w.store.held twoRecords (challenge 2 5 10).nonce).map Entry.expiresAt = some 10 ∧
    w.store.nextExpiry = 50 ∧ w.next twoRecords (.run 2) = some w' ∧
    w'.threads 2 = .returned (.issued (.error (.atCapacity 2 (some 46)))) := by
  have hs : ((System.runNext (NonceWorld.next twoRecords) .initial (overtakenRun 10)).map
      fun w => ((List.range 5).all fun t => !(w.threads t).isIssueLower,
        (w.store.held twoRecords (challenge 2 5 10).nonce).map Entry.expiresAt,
        w.store.nextExpiry, (w.threads 2).refuses)) = some (true, some 10, 50, some 5) := by
    decide +kernel
  obtain ⟨w, hw, ho⟩ := Option.map_eq_some_iff.mp hs
  have hr : (NonceWorld.interleaving twoRecords).Reachable w :=
    System.reachable_of_runNext (.init rfl) hw
  obtain ⟨hall, hheld, hnext, hrefuses⟩ := by simpa only [Prod.mk.injEq] using ho
  obtain ⟨rec, ht, hnow⟩ := issueRefuse_of_refuses hrefuses
  have hstep : w.next twoRecords (.run 2) = some ⟨w.store, Function.update w.threads 2
      (.returned (.issued (.error (.atCapacity 2 (w.store.retryAfter rec.issuedAt))))),
      w.issued, w.answers⟩ := by
    simp only [NonceWorld.next, ht]
    rfl
  have hretry : w.store.retryAfter rec.issuedAt = some 46 := by
    rw [retryAfter, hnext, hnow]
    decide
  refine ⟨w, _, hr, ?_, hheld, hnext, hstep, ?_⟩
  · exact not_issueLower NonceWorld.threads 5 (fun _ _ _ _ ht h => threads_of_next ht h) hw
      (fun _ => rfl) hall (by decide)
  · simp only [Function.update_self, hretry]

/-- The same run with a record that expires after the bound. -/
theorem nonceStore_bound_kept : ∃ b e,
    ((BoundWorld.watched twoRecords).restrict (BoundWorld.Careful twoRecords)).Reachable b ∧
      b.world.store.held twoRecords (challenge 2 5 60).nonce = some e ∧ e.expiresAt = 60 ∧
      b.world.store.nextExpiry ≤ e.expiresAt := by
  have hs : ((System.runNext (fun b ev => if BoundWorld.Careful twoRecords b ev
      then BoundWorld.next twoRecords b ev else none) .initial (overtakenRun 60)).map
      fun b => ((List.range 5).all fun t => !(b.world.threads t).isIssueLower,
        (b.world.store.held twoRecords (challenge 2 5 60).nonce).map Entry.expiresAt)) =
      some (true, some 60) := by
    decide +kernel
  obtain ⟨b, hb, ho⟩ := Option.map_eq_some_iff.mp hs
  have hr : ((BoundWorld.watched twoRecords).restrict (BoundWorld.Careful twoRecords)).Reachable b :=
    System.reachable_restrict_of_runNext (.init rfl) hb
  obtain ⟨hall, hheld⟩ := by simpa only [Prod.mk.injEq] using ho
  obtain ⟨e, he, hx⟩ := Option.map_eq_some_iff.mp hheld
  have hnext : ∀ (b : BoundWorld) ev b' t, t ≠ ev.thread →
      (if BoundWorld.Careful twoRecords b ev then BoundWorld.next twoRecords b ev else none) =
        some b' → b'.world.threads t = b.world.threads t := by
    intro b ev b' t ht h
    split_ifs at h
    obtain ⟨w', hw, rfl⟩ := Option.map_eq_some_iff.mp h
    exact threads_of_next ht hw
  have hnone := not_issueLower (fun b : BoundWorld => b.world.threads) 5 hnext hb (fun _ => rfl)
    hall (by decide)
  exact ⟨b, e, hr, he, hx,
    ((nonceStore_bound hr).1 _ e he fun t rec ht => absurd ht (hnone t rec)).1⟩

end Aitp
