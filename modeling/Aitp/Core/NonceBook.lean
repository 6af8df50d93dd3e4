import Aitp.Core.NonceStore

/-! # What a nonce store issued

A nonce store beside the records that were issued from it and those that were consumed. Whatever
the order of its operations, what is held was issued, and no record is consumed twice. A record
stays until it is consumed or has expired.
-/

namespace Aitp

open Expiring InMemoryNonceStore

/-- A store, the records issued, oldest first, and those consumed, newest first. -/
structure NonceBook where
  store : InMemoryNonceStore
  issued : List IssuedNonce
  consumed : List Entry

namespace NonceBook

variable (cfg : NonceStoreConfig) (b : NonceBook)

def new : NonceBook := ⟨.new, [], []⟩

/-- The record held under a nonce. -/
def held : Nonce → Option Entry := b.store.held cfg

def issue (rec : IssuedNonce) : NonceBook × Except NonceStoreError Unit :=
  let r := b.store.issueSync cfg rec b.issued.length
  ({ b with
    store := r.1
    issued := if r.2 = .ok () then b.issued ++ [rec] else b.issued }, r.2)

def consume (nonce : Nonce) (verifier : Aid) (now : Timestamp) : NonceBook × ConsumeOutcome :=
  let r := b.store.consumeSync cfg nonce verifier now
  ({ b with
    store := r.1
    consumed := (if r.2 = .consumed then b.held cfg nonce else none).toList ++ b.consumed }, r.2)

/-- A record as it was issued. -/
def Issued (nonce : Nonce) (e : Entry) : Prop :=
  ∃ rec, b.issued[e.serial]? = some rec ∧ rec.nonce = nonce ∧ rec.verifier = e.verifier ∧
    rec.expiresAt = e.expiresAt

/-- The records are tickets, and what is held was issued. -/
structure Sound : Prop where
  tickets : (Tickets.tickets Entry.serial).Reachable ⟨b.held cfg, b.issued.length, b.consumed⟩
  issued : ∀ n e, b.held cfg n = some e → b.Issued n e

variable {cfg b} {nonce : Nonce} {verifier : Aid} {now : Timestamp} {e : Entry} {rec : IssuedNonce}

theorem Issued.mono {b' : NonceBook} (h : b.Issued nonce e) (hp : b.issued <+: b'.issued) :
    b'.Issued nonce e := by
  obtain ⟨rec, hr, hrest⟩ := h
  obtain ⟨more, hm⟩ := hp
  refine ⟨rec, ?_, hrest⟩
  rw [← hm, List.getElem?_append_left (List.getElem?_eq_some_iff.mp hr).1, hr]

theorem issued_issue_eq (rec : IssuedNonce) : (b.issue cfg rec).1.issued =
    if (b.issue cfg rec).2 = .ok () then b.issued ++ [rec] else b.issued :=
  rfl

theorem issued_issue (rec : IssuedNonce) : b.issued <+: (b.issue cfg rec).1.issued := by
  rw [issued_issue_eq]
  split_ifs
  · exact List.prefix_append _ _
  · exact List.prefix_rfl

theorem held_issue {n : Nonce} (h : (b.issue cfg rec).1.held cfg n = some e) :
    b.held cfg n = some e ∨ (b.issue cfg rec).2 = .ok () ∧ n = rec.nonce ∧
      e = ⟨rec.verifier, rec.expiresAt, b.issued.length⟩ := by
  obtain ⟨held₁, ht, ⟨hr, -, hu⟩ | ⟨-, hu⟩⟩ := @issueSync_cases cfg b.store rec b.issued.length
  · have he := (congrFun hu n).symm.trans h
    by_cases hn : n = rec.nonce
    · subst hn
      rw [Function.update_self] at he
      exact .inr ⟨hr, rfl, (Option.some.inj he).symm⟩
    · rw [Function.update_of_ne hn] at he
      exact .inl (ht.kept he)
  · exact .inl (ht.kept ((congrFun hu n).symm.trans h))

theorem held_of_issue (h : (b.issue cfg rec).2 = .ok ()) :
    (b.issue cfg rec).1.held cfg rec.nonce =
      some ⟨rec.verifier, rec.expiresAt, b.issued.length⟩ := by
  obtain ⟨held₁, -, ⟨-, -, hu⟩ | ⟨hr, -⟩⟩ := @issueSync_cases cfg b.store rec b.issued.length
  · exact (congrFun hu rec.nonce).trans (Function.update_self ..)
  · exact absurd h hr

theorem held_issue_of_held (h : b.held cfg nonce = some e) (hn : rec.issuedAt ≤ e.expiresAt) :
    (b.issue cfg rec).1.held cfg nonce = some e := by
  obtain ⟨held₁, ht, hc⟩ := @issueSync_cases cfg b.store rec b.issued.length
  have h₁ : held₁ nonce = some e := by
    by_contra hne
    exact absurd (ht.removed h hne) (not_lt.mpr hn)
  rcases hc with ⟨-, hv, hu⟩ | ⟨-, hu⟩
  · have hne : nonce ≠ rec.nonce := by
      rintro rfl
      rw [hv] at h₁
      cases h₁
    exact (congrFun hu nonce).trans ((Function.update_of_ne hne _ _).trans h₁)
  · exact (congrFun hu nonce).trans h₁

theorem held_consume_of_held {n : Nonce} (h : b.held cfg nonce = some e) (hne : nonce ≠ n)
    (hn : now ≤ e.expiresAt) : (b.consume cfg n verifier now).1.held cfg nonce = some e := by
  rcases @consumeSection_cases cfg b.store n verifier now with ⟨_, -, -, hu, -⟩ | ⟨ht, -⟩
  · exact (congrFun hu nonce).trans ((Function.update_of_ne hne _ _).trans h)
  · by_contra hk
    exact absurd (ht.removed h hk) (not_lt.mpr hn)

theorem consume_of_held (h : b.held cfg nonce = some e) (hn : now ≤ e.expiresAt) :
    (b.consume cfg nonce e.verifier now).2 = .consumed := by
  have hl : (b.store.shards (shardOf cfg nonce)).map.lookup nonce = some e := h
  have ho : (b.consume cfg nonce e.verifier now).2 =
      (NonceShard.consume (b.store.shards (shardOf cfg nonce)) nonce e.verifier now).2.1 := rfl
  rw [ho, NonceShard.consume, hl]
  simp only [ne_eq, not_true_eq_false, if_false, Timestamp.isInThePast_eq_false.mpr hn,
    Bool.false_eq_true]

theorem held_of_consume (h : (b.consume cfg nonce verifier now).2 = .consumed) :
    ∃ e, b.held cfg nonce = some e ∧ e.verifier = verifier ∧ now ≤ e.expiresAt ∧
      (b.consume cfg nonce verifier now).1.consumed = e :: b.consumed := by
  have hs : (b.store.consumeSync cfg nonce verifier now).2 = .consumed := h
  obtain ⟨e, he, hv, hx⟩ := held_of_consumed h
  refine ⟨e, he, hv, hx, ?_⟩
  have hb : b.held cfg nonce = some e := he
  simp only [consume, hs, if_true, hb]
  rfl

theorem consumed_consume_of_ne (h : (b.consume cfg nonce verifier now).2 ≠ .consumed) :
    (b.consume cfg nonce verifier now).1.consumed = b.consumed := by
  have hs : (b.store.consumeSync cfg nonce verifier now).2 ≠ .consumed := h
  simp only [consume, if_neg hs]
  rfl

theorem sound_new : Sound cfg new := by
  constructor
  · exact .init rfl
  · rintro n e ⟨⟩

theorem Sound.issue (h : Sound cfg b) (rec : IssuedNonce) : Sound cfg (b.issue cfg rec).1 := by
  constructor
  · have hl : (b.issue cfg rec).1.issued.length =
        if (b.store.issueSync cfg rec b.issued.length).2 = .ok () then b.issued.length + 1
          else b.issued.length := by
      simp only [NonceBook.issue]
      split_ifs <;> simp
    rw [hl]
    exact h.tickets.run (run_issueSync rec)
  · intro n e he
    rcases held_issue he with he | ⟨hok, rfl, rfl⟩
    · exact (h.issued n e he).mono (issued_issue rec)
    · have hs : (b.store.issueSync cfg rec b.issued.length).2 = .ok () := hok
      refine ⟨rec, ?_, rfl, rfl, rfl⟩
      simp [NonceBook.issue, hs]

theorem Sound.consume (h : Sound cfg b) (nonce : Nonce) (verifier : Aid) (now : Timestamp) :
    Sound cfg (b.consume cfg nonce verifier now).1 := by
  constructor
  · exact h.tickets.run (run_consumeSection nonce verifier now)
  · intro n e he
    exact h.issued n e (held_of_held_consumeSync he)

end NonceBook

end Aitp
