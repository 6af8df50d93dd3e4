import Aitp.Foundation.Transition
import Aitp.Interop.Echo

/-! # Runs of the echo route

Requests to the echo routes of the interop peer, in any order. What the peer echoes are claims that
it signed itself, to their subject, once for each challenge; and a holder that answers its challenge
in time is answered.
-/

namespace Aitp

open Transition

/-- A request that was answered with its claims, at some reading of the clock, and the record that
the store had of its challenge. -/
structure EchoAnswered where
  presented : EchoPresented
  now : Timestamp
  entry : Entry

/-- The store, what was challenged, oldest first, and what was answered, newest first. -/
structure EchoWorld where
  nonces : NonceBook
  asked : List EchoChallengePayload
  answered : List EchoAnswered

/-- A route is called at a reading of the clock. The answers of the limiters and the nonces drawn
are part of the event. -/
inductive EchoEvent where
  | challenge (now : Timestamp) (limiter : Option ℕ) (body : Bytes) (drawn : Option Nonce)
  | echo (now : Timestamp) (limiter : Option ℕ) (body : Bytes)

namespace Interop

variable (P : Primitives) (peer : Interop)

/-- The section of `echo_challenge` on the nonce store. -/
def askEcho (w : EchoWorld) (payload : EchoChallengePayload) (now : Timestamp) :
    EchoWorld × Except Refusal Unit :=
  let r := w.nonces.issue peer.echoNonces (peer.echoRecord P payload now)
  ({ w with
    nonces := r.1
    asked := if r.2 = .ok () then w.asked ++ [payload] else w.asked },
    mapErr (Refusal.busy "echo_busy") r.2)

/-- `check_echo` from the nonce store on, with what it answers. -/
def finishEcho (w : EchoWorld) (p : EchoPresented) (now : Timestamp) :
    EchoWorld × Except Refusal TctClaims :=
  let slot := echoSlot P p.claims.jti p.response.nonceEcho
  let r := w.nonces.consume peer.echoNonces slot peer.aid now
  match r.2, w.nonces.held peer.echoNonces slot with
  | .consumed, some entry =>
    match proveEcho P p now with
    | .ok () =>
      ({ w with nonces := r.1, answered := ⟨p, now, entry⟩ :: w.answered }, .ok p.claims)
    | .error e => ({ w with nonces := r.1 }, .error e)
  | outcome, _ => ({ w with nonces := r.1 }, .error (echoRefused outcome))

/-- One request. -/
def echoNext (w : EchoWorld) : EchoEvent → EchoWorld
  | .challenge now limiter body drawn =>
    match peer.prepareEchoChallenge P limiter body drawn now with
    | .ok (claims, nonce) => (peer.askEcho P w (echoPayload claims nonce) now).1
    | .error _ => w
  | .echo now limiter body =>
    match peer.readEcho P limiter body now with
    | .ok p => (peer.finishEcho P w p now).1
    | .error _ => w

/-- Any requests to a peer that has started. -/
def echoes : System EchoWorld EchoEvent where
  init w := w = ⟨.new, [], []⟩
  step w ev w' := w' = peer.echoNext P w ev

end Interop

variable {P : Primitives} {peer : Interop} {w w' : EchoWorld} {p : EchoPresented}
  {now : Timestamp}

/-! ## Whom the peer answers -/

/-- A token that the peer itself signed for its subject, live, with the capability. -/
structure OwnToken (P : Primitives) (peer : Interop) (token : String) (claims : TctClaims)
    (now : Timestamp) : Prop where
  context : GrantContext P token (ownTctContext peer.aid claims.sub now) claims
  live : now.Fits → now ≤ claims.exp
  grants : echoCap ∈ claims.grants

theorem verifyOwnTct_ok {token : String} {claims : TctClaims}
    (h : Interop.verifyOwnTct P token peer.aid now = .ok claims) :
    OwnToken P peer token claims now := by
  simp only [Interop.verifyOwnTct, verifyTct, bind_eq_ok, mapErr_eq_ok, okOr_eq_ok, ensure_eq_ok,
    pure_eq_ok, exists_const] at h
  obtain ⟨payload, -, sub, -, v, ⟨c, hb, effective, -, rfl⟩, hg, rfl⟩ := h
  have hc := verifyTctBeforeRevocation_ok hb
  obtain hsub : c.sub = sub := hc.sub
  subst hsub
  exact ⟨hc, fun hn => (verifyTctBeforeRevocation_live hn rfl hb).1, by simpa using hg⟩

/-- The subject of a token signed the envelope, and the proof in it over the bytes of a nonce. -/
structure Possesses (P : Primitives) (p : EchoPresented) : Prop where
  type : p.envelope.messageType = .popResponse
  sender : p.envelope.sender = p.claims.sub
  jti : p.response.tctJti = p.claims.jti
  signed : ∃ key bytes, VerifyingKey.fromAid P p.claims.sub = .ok key ∧
    p.claims.jkt = key.toJwkThumbprintSha256 P ∧
    decodeStrict p.response.nonceEcho = some bytes ∧
    key.verifyJcs P bytes p.response.popSignature = .ok () ∧
    verifyEnvelopeSignature P p.envelope key = .ok ()

theorem proveEcho_ok {u : Unit} (h : Interop.proveEcho P p now = .ok u) : Possesses P p := by
  simp only [Interop.proveEcho, verifyPopResponse, bind_eq_ok, mapErr_eq_ok, ensure_eq_ok,
    exists_const, decide_eq_true_eq, Bool.and_eq_true, beq_iff_eq] at h
  obtain ⟨ht, hs, key, hk, _, he, ⟨hj, -⟩, -, -, holder, hh, hjkt, hn⟩ := h
  obtain rfl := Except.ok.inj (hk.symm.trans hh)
  obtain ⟨bytes, hb, -, hv⟩ := verifyNonce_eq_ok.mp hn
  exact ⟨ht, hs, hj, key, bytes, hk, hjkt, hb, hv, he⟩

/-- A nonce was drawn for a token of the peer's own. -/
def EchoChallengePayload.Drawn (P : Primitives) (peer : Interop) (payload : EchoChallengePayload) :
    Prop :=
  ∃ token claims nonce t, OwnToken P peer token claims t ∧
    payload = Interop.echoPayload claims nonce

theorem prepareEchoChallenge_ok {limiter : Option ℕ} {body : Bytes} {drawn : Option Nonce}
    {claims : TctClaims} {nonce : Nonce}
    (h : peer.prepareEchoChallenge P limiter body drawn now = .ok (claims, nonce)) :
    (Interop.echoPayload claims nonce).Drawn P peer := by
  simp only [Interop.prepareEchoChallenge, bind_eq_ok, okOr_eq_ok, pure_eq_ok,
    Prod.mk.injEq] at h
  obtain ⟨-, -, token, -, _, hc, _, -, rfl, rfl⟩ := h
  exact ⟨token, _, _, now, verifyOwnTct_ok hc, rfl⟩

/-- A challenge was drawn for the token with this `jti`, over this nonce, and had not expired: for
another token or nonce only if their slots collide. -/
def EchoWorld.Challenged (P : Primitives) (peer : Interop) (w : EchoWorld) (jti : Uuid)
    (nonce : String) (now : Timestamp) (serial : ℕ) : Prop :=
  ∃ rec payload, w.nonces.issued[serial]? = some rec ∧ w.asked[serial]? = some payload ∧
    rec.nonce = echoSlot P jti nonce ∧ rec.verifier = peer.aid ∧ now ≤ rec.expiresAt ∧
    payload.Drawn P peer ∧
    ((payload.tctJti = jti ∧ payload.nonce = nonce) ∨
      SlotsCollide P payload.tctJti jti payload.nonce nonce)

/-- An answer went to the subject of a token of the peer's own, over a challenge of the peer. -/
structure EchoAnswered.Earned (P : Primitives) (peer : Interop) (w : EchoWorld)
    (a : EchoAnswered) : Prop where
  token : OwnToken P peer a.presented.token a.presented.claims a.now
  possesses : Possesses P a.presented
  challenged : w.Challenged P peer a.presented.claims.jti a.presented.response.nonceEcho a.now
    a.entry.serial

/-- Every answer was earned, over a challenge of its own. -/
structure EchoLaw (P : Primitives) (peer : Interop) (w : EchoWorld) : Prop where
  earned : ∀ a ∈ w.answered, a.Earned P peer w
  single : (w.answered.map fun a => a.entry.serial).Nodup

/-- What was answered was consumed, and what was issued was asked. -/
structure EchoWorld.Kept (P : Primitives) (peer : Interop) (w : EchoWorld) : Prop where
  nonces : w.nonces.Sound peer.echoNonces
  consumed : (w.answered.map EchoAnswered.entry).Sublist w.nonces.consumed
  asked : w.nonces.issued.map IssuedNonce.nonce =
    w.asked.map fun q => echoSlot P q.tctJti q.nonce
  drawn : ∀ q ∈ w.asked, q.Drawn P peer
  earned : ∀ a ∈ w.answered, a.Earned P peer w

theorem EchoWorld.Challenged.mono {jti : Uuid} {nonce : String} {serial : ℕ}
    (h : w.Challenged P peer jti nonce now serial) (hi : w.nonces.issued <+: w'.nonces.issued)
    (ha : w.asked <+: w'.asked) : w'.Challenged P peer jti nonce now serial := by
  obtain ⟨rec, payload, hr, hq, hrest⟩ := h
  obtain ⟨more, hm⟩ := hi
  obtain ⟨more', hm'⟩ := ha
  refine ⟨rec, payload, ?_, ?_, hrest⟩
  · rw [← hm, List.getElem?_append_left (List.getElem?_eq_some_iff.mp hr).1, hr]
  · rw [← hm', List.getElem?_append_left (List.getElem?_eq_some_iff.mp hq).1, hq]

theorem EchoAnswered.Earned.mono {a : EchoAnswered} (h : a.Earned P peer w)
    (hi : w.nonces.issued <+: w'.nonces.issued) (ha : w.asked <+: w'.asked) :
    a.Earned P peer w' :=
  ⟨h.token, h.possesses, h.challenged.mono hi ha⟩

theorem EchoWorld.Kept.challenged (h : w.Kept P peer) {jti : Uuid} {nonce : String} {e : Entry}
    (he : w.nonces.held peer.echoNonces (echoSlot P jti nonce) = some e)
    (hv : e.verifier = peer.aid) (hn : now ≤ e.expiresAt) :
    w.Challenged P peer jti nonce now e.serial := by
  obtain ⟨rec, hrec, hslot, hver, hexp⟩ := h.nonces.issued _ e he
  have hq := congrArg (fun l => l[e.serial]?) h.asked
  simp only [List.getElem?_map, hrec, Option.map_some] at hq
  obtain ⟨payload, hp, hs⟩ := Option.map_eq_some_iff.mp hq.symm
  exact ⟨rec, payload, hrec, hp, hslot, hver.trans hv, hn.trans_eq hexp.symm,
    h.drawn _ (List.mem_of_getElem? hp), eq_or_slotsCollide (hs.trans hslot)⟩

namespace Interop

/-- What becomes of a request whose claims and envelope were read. -/
theorem finishEcho_cases (w : EchoWorld) (p : EchoPresented) (now : Timestamp) :
    (∃ e, w.nonces.held peer.echoNonces (echoSlot P p.claims.jti p.response.nonceEcho) = some e ∧
      e.verifier = peer.aid ∧ now ≤ e.expiresAt ∧ proveEcho P p now = .ok () ∧
      peer.finishEcho P w p now =
        ({ w with
          nonces := (w.nonces.consume peer.echoNonces
            (echoSlot P p.claims.jti p.response.nonceEcho) peer.aid now).1
          answered := ⟨p, now, e⟩ :: w.answered }, .ok p.claims) ∧
      (w.nonces.consume peer.echoNonces (echoSlot P p.claims.jti p.response.nonceEcho) peer.aid
        now).1.consumed = e :: w.nonces.consumed) ∨
    (peer.finishEcho P w p now).1 =
        { w with nonces := (w.nonces.consume peer.echoNonces
          (echoSlot P p.claims.jti p.response.nonceEcho) peer.aid now).1 } ∧
      w.nonces.consumed <:+ (w.nonces.consume peer.echoNonces
        (echoSlot P p.claims.jti p.response.nonceEcho) peer.aid now).1.consumed := by
  by_cases hc : (w.nonces.consume peer.echoNonces (echoSlot P p.claims.jti p.response.nonceEcho)
      peer.aid now).2 = .consumed
  · obtain ⟨e, he, hv, hn, hcons⟩ := NonceBook.held_of_consume hc
    cases hp : proveEcho P p now with
    | ok u =>
      refine .inl ⟨e, he, hv, hn, rfl, ?_, hcons⟩
      simp only [finishEcho, hc, he, hp]
    | error err =>
      refine .inr ⟨?_, hcons ▸ List.suffix_cons _ _⟩
      simp only [finishEcho, hc, he, hp]
  · refine .inr ⟨?_, (NonceBook.consumed_consume_of_ne hc).symm ▸ List.suffix_rfl⟩
    simp only [finishEcho]
    split
    · next h _ => exact absurd h hc
    · rfl

end Interop

theorem EchoWorld.Kept.ask (h : w.Kept P peer) {payload : EchoChallengePayload}
    (hd : payload.Drawn P peer) (now : Timestamp) : (peer.askEcho P w payload now).1.Kept P peer := by
  have hi : w.nonces.issued <+: (peer.askEcho P w payload now).1.nonces.issued :=
    NonceBook.issued_issue _
  have ha : w.asked <+: (peer.askEcho P w payload now).1.asked := by
    simp only [Interop.askEcho]
    split_ifs
    · exact List.prefix_append _ _
    · exact List.prefix_rfl
  constructor
  · exact h.nonces.issue _
  · exact h.consumed
  · simp only [Interop.askEcho, NonceBook.issued_issue_eq]
    split_ifs
    · rw [List.map_append, List.map_append, h.asked]
      rfl
    · exact h.asked
  · simp only [Interop.askEcho]
    split_ifs
    · exact List.forall_mem_append.mpr ⟨h.drawn, List.forall_mem_singleton.mpr hd⟩
    · exact h.drawn
  · exact fun a hm => (h.earned a hm).mono hi ha

theorem EchoWorld.Kept.finish (h : w.Kept P peer) (ht : OwnToken P peer p.token p.claims now) :
    (peer.finishEcho P w p now).1.Kept P peer := by
  have hs := h.nonces.consume (echoSlot P p.claims.jti p.response.nonceEcho) peer.aid now
  rcases @Interop.finishEcho_cases P peer w p now with
    ⟨e, he, hv, hn, hp, hr, hc⟩ | ⟨hr, hc⟩
  · rw [hr]
    constructor
    · exact hs
    · rw [hc]
      exact h.consumed.cons_cons e
    · exact h.asked
    · exact h.drawn
    · intro a hm
      rcases List.mem_cons.mp hm with rfl | hm
      · exact ⟨ht, proveEcho_ok hp, h.challenged he hv hn⟩
      · exact (h.earned a hm).mono List.prefix_rfl List.prefix_rfl
  · rw [hr]
    constructor
    · exact hs
    · exact h.consumed.trans hc.sublist
    · exact h.asked
    · exact h.drawn
    · exact fun a hm => (h.earned a hm).mono List.prefix_rfl List.prefix_rfl

theorem readEcho_ok {limiter : Option ℕ} {body : Bytes}
    (h : peer.readEcho P limiter body now = .ok p) : OwnToken P peer p.token p.claims now := by
  simp only [Interop.readEcho, bind_eq_ok, okOr_eq_ok, mapErr_eq_ok, pure_eq_ok] at h
  obtain ⟨-, -, request, -, claims, hc, _, -, _, -, _, -, rfl⟩ := h
  exact verifyOwnTct_ok hc

theorem echoKept_of_reachable (h : (peer.echoes P).Reachable w) : w.Kept P peer := by
  refine h.invariant ?_ ?_
  · rintro w rfl
    exact ⟨NonceBook.sound_new, List.Sublist.refl _, rfl, List.forall_mem_nil _,
      List.forall_mem_nil _⟩
  · rintro w ev _ hk rfl
    cases ev with
    | challenge now limiter body drawn =>
      simp only [Interop.echoNext]
      split
      · next hp => exact hk.ask (prepareEchoChallenge_ok hp) now
      · exact hk
    | echo now limiter body =>
      simp only [Interop.echoNext]
      split
      · next p hp => exact hk.finish (readEcho_ok hp)
      · exact hk

/-- In every run the peer answers only the subjects of its own tokens, each challenge once. -/
theorem echoes_law (h : (peer.echoes P).Reachable w) : EchoLaw P peer w := by
  have hk := echoKept_of_reachable h
  refine ⟨hk.earned, ?_⟩
  have hnd : (w.nonces.consumed.map Entry.serial).Nodup :=
    Tickets.redeemed_nodup hk.nonces.tickets
  have hsub := (hk.consumed.map Entry.serial).nodup hnd
  rwa [List.map_map] at hsub

/-! ## Whoever answers is answered -/

/-- While a challenge is outstanding no clock is past its expiry, and nobody else presents what its
slot is of. -/
def EchoEvent.Spares (P : Primitives) (peer : Interop) (slot : Nonce) (expiresAt : Timestamp) :
    EchoEvent → Prop
  | .challenge now _ _ _ => now ≤ expiresAt
  | .echo now limiter body => now ≤ expiresAt ∧
      ∀ p, peer.readEcho P limiter body now = .ok p →
        echoSlot P p.claims.jti p.response.nonceEcho ≠ slot

/-- A proof over a challenge that is held is answered. -/
theorem finishEcho_of_held {e : Entry}
    (hh : w.nonces.held peer.echoNonces (echoSlot P p.claims.jti p.response.nonceEcho) = some e)
    (hv : e.verifier = peer.aid) (hn : now ≤ e.expiresAt)
    (hp : Interop.proveEcho P p now = .ok ()) :
    peer.finishEcho P w p now =
      ({ w with
        nonces := (w.nonces.consume peer.echoNonces
          (echoSlot P p.claims.jti p.response.nonceEcho) peer.aid now).1
        answered := ⟨p, now, e⟩ :: w.answered }, .ok p.claims) := by
  have hc : (w.nonces.consume peer.echoNonces (echoSlot P p.claims.jti p.response.nonceEcho)
      peer.aid now).2 = .consumed :=
    hv ▸ NonceBook.consume_of_held hh hn
  simp only [Interop.finishEcho, hc, hh, hp]

namespace Toy

/-- A token that agent 0 issues to agent 1 for the echo route. -/
def echoBuilder : TctBuilder := { tctBuilder with grants := [echoCap] }

theorem exists_echoToken : ∃ issued,
    EchoToken primitives interop (signer (agent 1)) echoBuilder 0 issued ∧
      issued.claims.Exact ∧ ∀ now, 0 ≤ now → now ≤ 100 → issued.claims.LiveAt now none := by
  have hdraft : ∃ d, echoBuilder.draft primitives 0 = .ok d ∧
      d.claims = echoBuilder.claims primitives (agent 1) (agentKey 1) (uuid 1) 0 := by
    refine ⟨_, (TctBuilder.draft_eq_ok rfl).mpr ⟨agent 1, agentKey 1, uuid 1, rfl, rfl, rfl,
      resolve_tctBuilder, ?_, List.cons_ne_nil _ _, ?_, agent_ne, rfl, rfl⟩, rfl⟩
    · exact show attestationGrant ∉ [echoCap] by decide
    · exact show ∀ g ∈ [echoCap], g.toList.any isWhitespace = false by decide
  obtain ⟨d, hd, hc⟩ := hdraft
  obtain ⟨issued, hb, hi⟩ := TctBuilder.exists_build (b := echoBuilder) (signer_total (agent 0)) hd
  refine ⟨issued, ⟨?_, rfl, rfl, hb, rfl, List.mem_singleton_self _⟩, ?_, ?_⟩
  · exact ⟨wellTyped_tctBuilder.issuedAt, nofun, wellTyped_tctBuilder.subjectPubkey⟩
  · rw [hi, hc]
    exact show Timestamp.Exact 0 ∧ Timestamp.Exact (Timestamp.saturatingAdd 0 100) by decide
  · intro now hl hu
    rw [hi, hc]
    refine ⟨hl, hu.trans (by decide), ?_⟩
    rintro t ⟨⟩

def echoEnv : EchoEnv := ⟨uuid 3, 0, uuid 4, 30⟩

theorem valid_echoEnv : echoEnv.Valid :=
  ⟨checkV4_uuid 3, checkV4_uuid 4, by decide, by decide⟩

end Toy

open Toy

/-- The peer before its first request. -/
def noEchoes : EchoWorld := ⟨.new, [], []⟩

/-- The peer answers agent 1. -/
theorem echoes_law_toy :
    ∃ w : EchoWorld, w.answered ≠ [] ∧ EchoLaw primitives interop w := by
  obtain ⟨issued, htoken, hexact, hlive⟩ := exists_echoToken
  have hissuer := signer_total (agent 0)
  have hholder := signer_total (agent 1)
  have hprepare := htoken.prepareEchoChallenge readsText hissuer.lawful hholder.lawful
    hexact (hlive 0 (by decide) (by decide)) (octetNonce 0)
  obtain ⟨_, sig, envelope, -, hsig, henvelope, -⟩ := @answerEchoChallenge_signed primitives interop
    (signer (agent 1)) _ _ readsText hissuer hholder _ valid_echoEnv issued.token issued.claims.jti
    (octetNonce 0)
  obtain ⟨hread, hprove⟩ := htoken.readEcho readsText hissuer.lawful hholder.lawful
    hexact (hlive 60 (by decide) (by decide)) valid_echoEnv.responseTime.2 hsig henvelope
  let payload := Interop.echoPayload issued.claims (octetNonce 0)
  let asked := (interop.askEcho primitives noEchoes payload 0).1
  let e : Entry := ⟨interop.aid, Timestamp.saturatingAdd 0 challengeTtl, 0⟩
  let p : EchoPresented := ⟨issued.token, issued.claims.reread primitives, envelope,
    ⟨issued.claims.jti, encodeBase64Url (octetNonce 0).bytes, sig⟩⟩
  have hheld : asked.nonces.held interop.echoNonces
      (echoSlot primitives p.claims.jti p.response.nonceEcho) = some e :=
    NonceBook.held_of_issue rfl
  have hfinish := finishEcho_of_held hheld rfl (by decide) hprove
  have hasked : interop.echoNext primitives noEchoes (.challenge 0 none
      (utf8 (echoChallengeRequestValue issued.token).text) (some (octetNonce 0))) = asked := by
    simp only [Interop.echoNext, hprepare]
    rfl
  let last := interop.echoNext primitives asked (.echo 60 none
    (utf8 (EchoRequest.toValue ⟨issued.token, envelope.toValue⟩).text))
  have hanswered : last.answered = [⟨p, 60, e⟩] := by
    simp only [last, Interop.echoNext, hread]
    rw [hfinish]
    rfl
  have hreach : (interop.echoes primitives).Reachable asked :=
    hasked ▸ System.Reachable.step (System.Reachable.init rfl) rfl
  have hlast : (interop.echoes primitives).Reachable last := System.Reachable.step hreach rfl
  refine ⟨last, ?_, echoes_law hlast⟩
  rw [hanswered]
  exact List.cons_ne_nil _ _

end Aitp
