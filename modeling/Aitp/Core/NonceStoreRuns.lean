import Aitp.Core.NonceStore
import Aitp.Foundation.Tickets

/-! # Concurrent use of the nonce store

Threads call `issue`, `consume` and `sweep` on one store. A step is one critical
section or one atomic operation of one thread. Every run is a run of the tickets:
a record is issued, and consumed once or removed.
-/

namespace Aitp

open Expiring Transition InMemoryNonceStore

inductive NonceCall where
  | issue (rec : IssuedNonce)
  | consume (nonce : Nonce) (verifier : Aid) (now : Timestamp)
  | sweep (now : Timestamp)

inductive NonceResult where
  | issued (r : Except NonceStoreError Unit)
  | consumed (outcome : ConsumeOutcome)
  | swept (removed : ℕ)

/-- Where a thread is. A sweep made by an `issue` carries the record to be issued. -/
inductive Pc where
  | idle
  | issuePurge (rec : IssuedNonce)
  | issueRelease (rec : IssuedNonce) (freed : ℕ)
  | issueReserve (rec : IssuedNonce)
  | issueClaimSweep (rec : IssuedNonce)
  | issueCountSweep (rec : IssuedNonce)
  | issueReserveAgain (rec : IssuedNonce)
  | issueRefuse (rec : IssuedNonce)
  | issueInsert (rec : IssuedNonce)
  | issueDuplicate
  | issueLower (rec : IssuedNonce)
  | sweepShard (now : Timestamp) (i removed : ℕ) (earliest : Timestamp) (rec : Option IssuedNonce)
  | sweepRelease (removed : ℕ) (earliest : Timestamp) (rec : Option IssuedNonce)
  | sweepStore (removed : ℕ) (earliest : Timestamp) (rec : Option IssuedNonce)
  | consumeSection (nonce : Nonce) (verifier : Aid) (now : Timestamp)
  | consumeRelease (freed : ℕ) (outcome : ConsumeOutcome)
  | returned (r : NonceResult)

/-- The first step of a call. -/
def NonceCall.entry : NonceCall → Pc
  | .issue rec => .issuePurge rec
  | .consume nonce verifier now => .consumeSection nonce verifier now
  | .sweep now => .sweepShard now 0 0 i64Max none

variable (cfg : NonceStoreConfig)

/-- One step of a thread; a record inserted takes the serial number. -/
def Pc.step (st : InMemoryNonceStore) (serial : ℕ) : Pc → Option (InMemoryNonceStore × Pc)
  | .idle => none
  | .issuePurge rec =>
    let (st, freed) := st.issuePurge cfg rec
    some (st, .issueRelease rec freed)
  | .issueRelease rec freed => some (st.release freed, .issueReserve rec)
  | .issueReserve rec =>
    let (st, reserved) := st.tryReserve cfg
    some (st, if reserved then .issueInsert rec else .issueClaimSweep rec)
  | .issueClaimSweep rec =>
    let (st, claimed) := st.claimSweep rec.issuedAt
    some (st, if claimed then .issueCountSweep rec else .issueRefuse rec)
  | .issueCountSweep rec =>
    some ({ st with fullSweeps := st.fullSweeps + 1 },
      .sweepShard rec.issuedAt 0 0 i64Max (some rec))
  | .issueReserveAgain rec =>
    let (st, reserved) := st.tryReserve cfg
    some (st, if reserved then .issueInsert rec else .issueRefuse rec)
  | .issueRefuse rec =>
    some (st, .returned (.issued (.error (.atCapacity cfg.capacity (st.retryAfter rec.issuedAt)))))
  | .issueInsert rec =>
    let (st, inserted) := st.issueInsert cfg rec serial
    some (st, if inserted then .issueLower rec else .issueDuplicate)
  | .issueDuplicate => some (st.release 1, .returned (.issued (.error .duplicate)))
  | .issueLower rec =>
    some ({ st with nextExpiry := min st.nextExpiry rec.expiresAt }, .returned (.issued (.ok ())))
  | .sweepShard now i removed earliest rec =>
    if i < max cfg.shards 1 then
      let (st, n, first) := st.sweepShard i now
      some (st, .sweepShard now (i + 1) (removed + n) (first.elim earliest (min earliest)) rec)
    else some (st, .sweepRelease removed earliest rec)
  | .sweepRelease removed earliest rec => some (st.release removed, .sweepStore removed earliest rec)
  | .sweepStore removed earliest rec =>
    some ({ st with nextExpiry := earliest },
      rec.elim (.returned (.swept removed)) .issueReserveAgain)
  | .consumeSection nonce verifier now =>
    let (st, outcome, freed) := st.consumeSection cfg nonce verifier now
    some (st, .consumeRelease freed outcome)
  | .consumeRelease freed outcome => some (st.release freed, .returned (.consumed outcome))
  | .returned _ => none

/-- What a `consume` found under its nonce, and what it answers. -/
structure Answer where
  nonce : Nonce
  verifier : Aid
  now : Timestamp
  found : Option Entry
  outcome : ConsumeOutcome

/-- A store with its threads, how many records it was given, and the answers of `consume` so far,
newest first. -/
structure NonceWorld where
  store : InMemoryNonceStore
  threads : ℕ → Pc
  issued : ℕ
  answers : List Answer

inductive NonceEvent where
  | call (t : ℕ) (c : NonceCall)
  | run (t : ℕ)

namespace NonceWorld

/-- The records inserted by a step from here. -/
def inserted (w : NonceWorld) : Pc → ℕ
  | .issueInsert rec => if (w.store.issueInsert cfg rec w.issued).2 then 1 else 0
  | _ => 0

/-- The answer a step from here decides. -/
def answered (w : NonceWorld) : Pc → List Answer
  | .consumeSection nonce verifier now =>
    [⟨nonce, verifier, now, w.store.held cfg nonce,
      (w.store.consumeSection cfg nonce verifier now).2.1⟩]
  | _ => []

/-- A thread that is not in a call starts one, or a thread takes a step. -/
def next (w : NonceWorld) : NonceEvent → Option NonceWorld
  | .call t c =>
    match w.threads t with
    | .idle | .returned _ => some { w with threads := Function.update w.threads t c.entry }
    | _ => none
  | .run t =>
    ((w.threads t).step cfg w.store w.issued).map fun r =>
      ⟨r.1, Function.update w.threads t r.2, w.issued + w.inserted cfg (w.threads t),
        w.answered cfg (w.threads t) ++ w.answers⟩

def initial : NonceWorld := ⟨.new, fun _ => .idle, 0, []⟩

/-- Every interleaving of calls on a new store. -/
def interleaving : System NonceWorld NonceEvent :=
  .ofNext initial (next cfg)

end NonceWorld

/-- The record a `consume` that answers `Consumed` consumes. -/
def Answer.consumed (a : Answer) : Option Entry :=
  if a.outcome = .consumed then a.found else none

/-- The tickets of a store: the records held and those consumed. -/
def NonceWorld.tickets (w : NonceWorld) : Tickets.State Nonce Entry where
  held := w.store.held cfg
  next := w.issued
  redeemed := w.answers.filterMap Answer.consumed

/-- When a step from here may remove a record. -/
def Pc.MayRemove : Pc → Nonce → Entry → Prop
  | .issuePurge rec, _, e => e.expiresAt < rec.issuedAt
  | .sweepShard now .., _, e => e.expiresAt < now
  | .consumeSection nonce verifier now, n, e =>
    n = nonce ∧ e.verifier = verifier ∨ e.expiresAt < now
  | _, _, _ => False

/-- A `Consumed` answer names the verifier of a record that was held and not expired. -/
structure Answer.Sound (a : Answer) : Prop where
  found : a.outcome = .consumed →
    ∃ e, a.found = some e ∧ e.verifier = a.verifier ∧ a.now ≤ e.expiresAt

variable {cfg}

/-- What one step of a thread does to the records. -/
theorem step_records {st st' : InMemoryNonceStore} {serial : ℕ} {pc pc' : Pc}
    (h : pc.step cfg st serial = some (st', pc')) :
    (∃ rec, pc = .issueInsert rec ∧
      st'.held cfg = (st.issueInsert cfg rec serial).1.held cfg) ∨
    (∃ nonce verifier now, pc = .consumeSection nonce verifier now ∧
      st'.held cfg = (st.consumeSection cfg nonce verifier now).1.held cfg) ∨
    (∀ rec, pc ≠ .issueInsert rec) ∧ (∀ n v now, pc ≠ .consumeSection n v now) ∧
      Thins (st.held cfg) (st'.held cfg) pc.MayRemove := by
  have hsame : st'.held cfg = st.held cfg → Thins (st.held cfg) (st'.held cfg) pc.MayRemove :=
    fun he n => .inl (congrFun he n)
  cases pc with
  | idle => simp [Pc.step] at h
  | returned r => simp [Pc.step] at h
  | issueInsert rec =>
    simp only [Pc.step, Option.some.injEq, Prod.mk.injEq] at h
    exact .inl ⟨rec, rfl, by rw [← h.1]⟩
  | consumeSection nonce verifier now =>
    simp only [Pc.step, Option.some.injEq, Prod.mk.injEq] at h
    exact .inr (.inl ⟨nonce, verifier, now, rfl, by rw [← h.1]⟩)
  | issuePurge rec =>
    simp only [Pc.step, Option.some.injEq, Prod.mk.injEq] at h
    refine .inr (.inr ⟨nofun, nofun, ?_⟩)
    rw [← h.1]
    exact thins_issuePurge rec
  | sweepShard now i removed earliest rec =>
    refine .inr (.inr ⟨nofun, nofun, ?_⟩)
    simp only [Pc.step] at h
    split_ifs at h with hi
    · obtain ⟨rfl, -⟩ := Prod.mk.inj (Option.some.inj h)
      exact thins_sweepShard i now
    · obtain ⟨rfl, -⟩ := Prod.mk.inj (Option.some.inj h)
      exact hsame rfl
  | issueReserve rec =>
    simp only [Pc.step, Option.some.injEq, Prod.mk.injEq] at h
    refine .inr (.inr ⟨nofun, nofun, hsame ?_⟩)
    rw [← h.1]
    unfold tryReserve
    split_ifs <;> rfl
  | issueReserveAgain rec =>
    simp only [Pc.step, Option.some.injEq, Prod.mk.injEq] at h
    refine .inr (.inr ⟨nofun, nofun, hsame ?_⟩)
    rw [← h.1]
    unfold tryReserve
    split_ifs <;> rfl
  | _ =>
    simp only [Pc.step, Option.some.injEq, Prod.mk.injEq] at h
    refine .inr (.inr ⟨nofun, nofun, hsame ?_⟩)
    exact h.1 ▸ rfl

theorem inserted_of_ne {w : NonceWorld} {pc : Pc} (h : ∀ rec, pc ≠ .issueInsert rec) :
    w.inserted cfg pc = 0 := by
  cases pc with
  | issueInsert rec => exact absurd rfl (h rec)
  | _ => rfl

theorem answered_of_ne {w : NonceWorld} {pc : Pc} (h : ∀ n v now, pc ≠ .consumeSection n v now) :
    w.answered cfg pc = [] := by
  cases pc with
  | consumeSection n v now => exact absurd rfl (h n v now)
  | _ => rfl

theorem next_call {w w' : NonceWorld} {t : ℕ} {c : NonceCall}
    (h : w.next cfg (.call t c) = some w') :
    w'.store = w.store ∧ w'.issued = w.issued ∧ w'.answers = w.answers := by
  simp only [NonceWorld.next] at h
  split at h
  · obtain rfl := Option.some.inj h
    exact ⟨rfl, rfl, rfl⟩
  · obtain rfl := Option.some.inj h
    exact ⟨rfl, rfl, rfl⟩
  · simp at h

theorem tickets_step {w w' : NonceWorld} {ev : NonceEvent} (h : w.next cfg ev = some w') :
    (Tickets.tickets Entry.serial).Run (w.tickets cfg) (w'.tickets cfg) := by
  cases ev with
  | call t c =>
    obtain ⟨hs, hi, ha⟩ := next_call h
    simp only [NonceWorld.tickets, hs, hi, ha]
    exact .refl
  | run t =>
    obtain ⟨⟨st', pc'⟩, hr, rfl⟩ := Option.map_eq_some_iff.mp h
    rcases step_records hr with ⟨rec, hpc, hh⟩ | ⟨nonce, v, now, hpc, hh⟩ | ⟨hi, hc, hh⟩
    · have hn : w.issued + w.inserted cfg (.issueInsert rec) =
          if (w.store.issueInsert cfg rec w.issued).2 then w.issued + 1 else w.issued := by
        simp only [NonceWorld.inserted]
        split_ifs <;> rfl
      simp only [NonceWorld.tickets, hpc, hh, hn, NonceWorld.answered, List.nil_append]
      exact run_issueInsert rec
    · simp only [NonceWorld.tickets, hpc, hh, NonceWorld.inserted, NonceWorld.answered,
        Nat.add_zero, List.filterMap_append, List.filterMap_cons, List.filterMap_nil]
      exact run_consumeSection nonce v now
    · simp only [NonceWorld.tickets, inserted_of_ne hi, answered_of_ne hc, Nat.add_zero,
        List.nil_append]
      exact run_of_thins hh

theorem tickets_reachable {w : NonceWorld} (h : (NonceWorld.interleaving cfg).Reachable w) :
    (Tickets.tickets Entry.serial).Reachable (w.tickets cfg) := by
  refine h.simulate ?_ fun _ _ _ => tickets_step
  rintro w rfl
  rfl

theorem answers_sound {w : NonceWorld} (h : (NonceWorld.interleaving cfg).Reachable w) :
    ∀ a ∈ w.answers, a.Sound := by
  induction h with
  | init hi =>
    obtain rfl := hi
    exact nofun
  | @step w ev w' _ hs ih =>
    cases ev with
    | call t c =>
      rw [(next_call hs).2.2]
      exact ih
    | run t =>
      obtain ⟨⟨st', pc'⟩, hr, rfl⟩ := Option.map_eq_some_iff.mp hs
      intro a ha
      rcases List.mem_append.mp ha with ha | ha
      · rcases step_records hr with ⟨rec, hpc, -⟩ | ⟨nonce, v, now, hpc, -⟩ | ⟨-, hc, -⟩
        · simp [hpc, NonceWorld.answered] at ha
        · rw [hpc] at ha
          obtain rfl := List.mem_singleton.mp ha
          exact ⟨held_of_consumed⟩
        · simp [answered_of_ne hc] at ha
      · exact ih a ha

theorem mayRemove_of_removed {w w' : NonceWorld} {t : ℕ} (h : w.next cfg (.run t) = some w')
    {n : Nonce} {e : Entry} (he : w.store.held cfg n = some e)
    (hn : w'.store.held cfg n ≠ some e) : (w.threads t).MayRemove n e := by
  obtain ⟨⟨st', pc'⟩, hr, rfl⟩ := Option.map_eq_some_iff.mp h
  rcases step_records hr with ⟨rec, hpc, hh⟩ | ⟨nonce, v, now, hpc, hh⟩ | ⟨-, -, hh⟩
  · simp only [hh] at hn
    cases hins : (w.store.issueInsert cfg rec w.issued).2 with
    | true =>
      obtain ⟨hvac, hu⟩ := issueInsert_of_true hins
      rw [hu] at hn
      by_cases hk : n = rec.nonce
      · subst hk
        simp [hvac] at he
      · rw [Function.update_of_ne hk] at hn
        exact absurd he hn
    | false =>
      rw [issueInsert_of_false hins] at hn
      exact absurd he hn
  · simp only [hh] at hn
    rw [hpc]
    rcases @consumeSection_cases cfg w.store nonce v now with
      ⟨e', he', hv, hu, -⟩ | ⟨ht, -⟩
    · left
      rw [hu] at hn
      by_cases hk : n = nonce
      · subst hk
        exact ⟨rfl, Option.some.inj (he'.symm.trans he) ▸ hv⟩
      · rw [Function.update_of_ne hk] at hn
        exact absurd he hn
    · exact .inr (ht.removed he hn)
  · exact hh.removed he hn

/-- In every interleaving each record yields at most one `Consumed`, to its own verifier and while
it is not expired, and no step removes a record but as it may. -/
theorem nonceStore_singleUse {w : NonceWorld} (h : (NonceWorld.interleaving cfg).Reachable w) :
    ((w.answers.filterMap Answer.consumed).map Entry.serial).Nodup ∧
      (∀ a ∈ w.answers, a.outcome = .consumed → ∃ e, a.found = some e ∧ e.serial < w.issued ∧
        e.verifier = a.verifier ∧ a.now ≤ e.expiresAt) ∧
      ∀ t w', w.next cfg (.run t) = some w' → ∀ n e, w.store.held cfg n = some e →
        w'.store.held cfg n ≠ some e → (w.threads t).MayRemove n e := by
  have hn := Tickets.numbered_of_reachable (tickets_reachable h)
  refine ⟨Tickets.redeemed_nodup (tickets_reachable h), fun a ha ho => ?_,
    fun t w' hs n e he => mayRemove_of_removed hs he⟩
  obtain ⟨e, he, hv, hx⟩ := (answers_sound h a ha).found ho
  refine ⟨e, he, hn.redeemed_lt e (List.mem_filterMap.mpr ⟨a, ha, ?_⟩), hv, hx⟩
  rw [Answer.consumed, if_pos ho, he]

/-- A challenge issued by one thread while two others try to consume it. -/
def contestedRun (rec : IssuedNonce) : List NonceEvent :=
  [.call 0 (.issue rec), .call 1 (.consume rec.nonce rec.verifier rec.expiresAt),
    .call 2 (.consume rec.nonce rec.verifier rec.expiresAt), .run 0, .run 0, .run 0, .run 0,
    .run 1, .run 0, .run 2, .run 1]

/-- A store of four shards and a nonce for it. -/
def fourShards : NonceStoreConfig := ⟨4, 2, fun n => n.bytes.length⟩

theorem valid_zeroAid :
    Aid.isValid "aid:pubkey:AAAAAAAAAAAAAAAAAAAAAAAAAAAAAAAAAAAAAAAAAAA" = true := by
  decide

def zeroRecord : IssuedNonce :=
  ⟨⟨List.replicate 16 0, length_zeroes⟩,
    ⟨"aid:pubkey:AAAAAAAAAAAAAAAAAAAAAAAAAAAAAAAAAAAAAAAAAAA", valid_zeroAid⟩, 100, 160⟩

theorem nonceStore_singleUse_contested :
    ∃ w, (NonceWorld.interleaving fourShards).Reachable w ∧
      w.answers.map Answer.outcome = [.unknown, .consumed] ∧
      ((w.answers.filterMap Answer.consumed).map Entry.serial).Nodup := by
  have hs : ((System.runNext (NonceWorld.next fourShards) .initial (contestedRun zeroRecord)).map
      fun w => w.answers.map Answer.outcome) = some [.unknown, .consumed] := by
    decide +kernel
  obtain ⟨w, hw, ho⟩ := Option.map_eq_some_iff.mp hs
  have hr : (NonceWorld.interleaving fourShards).Reachable w :=
    System.reachable_of_runNext (.init rfl) hw
  exact ⟨w, hr, ho, (nonceStore_singleUse hr).1⟩

end Aitp
