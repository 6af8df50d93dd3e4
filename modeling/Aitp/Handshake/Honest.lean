import Aitp.Handshake.StateMachine
import Aitp.Manifest.Builder

/-! # Honest handshakes

What an honest party builds is what an honest peer checks: its manifest, its
pinned-key proof, the token it issues, the voucher with it and its proof of
possession. An exchange between two such parties completes on both sides.
-/

namespace Aitp

variable {P : Primitives} {J : Jose} {cfg peer : PeerConfig} {key : VerifyingKey}

/-! ## Parties -/

/-- A party that holds the key of its manifest. -/
structure PeerConfig.Holds (P : Primitives) (cfg : PeerConfig) (key : VerifyingKey) : Prop where
  aid : cfg.signingKey.aid = cfg.manifest.aid
  total : cfg.signingKey.Total P key

/-- A party that accepts the pinned key and the manifest of another. -/
structure PeerConfig.Trusts (P : Primitives) (cfg peer : PeerConfig) (key : VerifyingKey) :
    Prop where
  pinned : cfg.pinnedKeyStore key = true
  accepts : checkIdentityTypeCompatibility cfg.manifest .pinnedKey = .ok ()
  manifest : ∃ t, verifyManifest P peer.manifest ⟨t, cfg.insecureLocalhost⟩ = .ok ()
  kind : peer.manifest.identityHint.kind = .pinnedKey

/-- A configuration at a clock reading. -/
def PeerConfig.at (cfg : PeerConfig) (t : Timestamp) : PeerConfig :=
  { cfg with now := t }

theorem PeerConfig.Holds.at (h : cfg.Holds P key) (t : Timestamp) : (cfg.at t).Holds P key :=
  ⟨h.aid, h.total⟩

namespace Signer.Total

variable {s : Signer}

theorem signNonce (h : s.Total P key) {ε : Type} (malformed : ε) (signing : CryptoError → ε)
    (bytes : Bytes) :
    ∃ sig, signNonce s (encodeBase64Url bytes) malformed signing = .ok sig := by
  obtain ⟨sig, hs⟩ := h.signJcs bytes
  exact ⟨sig, by simp [Aitp.signNonce, hs]⟩

end Signer.Total

/-! ## Pinned-key identities -/

theorem pinnedKeyProofInput_nonce (sender receiver : Aid) (messageId : Uuid)
    (timestamp : Timestamp) (n : Nonce) : ∃ input,
      pinnedKeyProofInput sender receiver messageId timestamp (encodeBase64Url n.bytes) =
        .ok input :=
  ⟨_, by simp [pinnedKeyProofInput, handshakeProofInput, n.length_eq, ensure]; rfl⟩

/-- A pinned-key identity is built from a proof over what its receiver checks. -/
theorem buildDescriptor_pinnedKey {s : Signer} (hs : s.Total P key) (subject : String)
    (receiver : Aid) (messageId : Uuid) (timestamp : Timestamp) (n : Nonce) :
    ∃ proof input,
      (PresentedIdentity.pinnedKey subject).buildDescriptor P
          ⟨s.aid, receiver, messageId, timestamp, encodeBase64Url n.bytes⟩ s =
        .ok (.pinnedKey subject (encodeBase64Url key.bytes) proof) ∧
      pinnedKeyProofInput s.aid receiver messageId timestamp (encodeBase64Url n.bytes) =
        .ok input ∧ s.signJcs input = .ok proof := by
  obtain ⟨input, hi⟩ := pinnedKeyProofInput_nonce s.aid receiver messageId timestamp n
  obtain ⟨proof, hp⟩ := hs.signJcs input
  refine ⟨proof, input, ?_, hi, hp⟩
  simp [PresentedIdentity.buildDescriptor, hs.lawful.1, signPinnedKeyProof, hi, hp]

/-- A pinned-key identity verifies under a store that trusts its key. -/
theorem verifyPinnedKey_pinnedKey {s : Signer} (hs : s.Lawful P key) (subject : String)
    {proof : String} {receiver : Aid} {messageId : Uuid} {timestamp : Timestamp} {popNonce : String}
    {input : Bytes}
    {store : PinnedKeyStore} (ht : store key = true)
    (hi : pinnedKeyProofInput s.aid receiver messageId timestamp popNonce = .ok input)
    (hp : s.signJcs input = .ok proof) :
    verifyPinnedKey P (.pinnedKey subject (encodeBase64Url key.bytes) proof)
      ⟨s.aid, receiver, messageId, timestamp, popNonce, .unchecked⟩ store =
        .ok ⟨s.aid.algorithm, key, s.aid⟩ := by
  obtain ⟨hl, hc⟩ := s.aid.pubkeyCompressedBytes_spec
  have hk : key.bytes = s.aid.pubkeyCompressedBytes := by
    rw [(VerifyingKey.fromAid_eq_ok.mp hs.1).1]
  have hf := VerifyingKey.fromCompressed_of_fromAid hs.1
  have hpt : (s.aid.algorithm != .p256 || key.bytes.head? == some 2 ||
      key.bytes.head? == some 3) = true := by
    cases ha : s.aid.algorithm with
    | ed25519 => rfl
    | p256 => simpa [hk, ha] using hc ha
  obtain ⟨hparse, hv⟩ := signJcs_verifies hs hp
  have hr : resolvePinnedKey P (.pinnedKey subject (encodeBase64Url key.bytes) proof)
      ⟨s.aid, receiver, messageId, timestamp, popNonce, .unchecked⟩ store =
        .ok ⟨s.aid.algorithm, key, s.aid⟩ := by
    simp only [resolvePinnedKey, IdentityDescriptor.pinnedKey, bind_eq_ok, ensure_eq_ok,
      okOr_eq_ok, mapErr_eq_ok, pure_eq_ok, exists_const]
    exact ⟨rfl, rfl, rfl, _, rfl, key.bytes, decodeStrict_encodeBase64Url _, by simp [hk, hl], hpt,
      by simp [hk], key, hk ▸ hf, ht, rfl⟩
  have hc : checkPinnedKeyProof P (.pinnedKey subject (encodeBase64Url key.bytes) proof)
      ⟨s.aid, receiver, messageId, timestamp, popNonce, .unchecked⟩
      ⟨s.aid.algorithm, key, s.aid⟩ = .ok () := by
    simp only [checkPinnedKeyProof, bind_eq_ok, mapErr_eq_ok]
    exact ⟨input, hi, proof, hparse, hv⟩
  simp only [verifyPinnedKey, bind_eq_ok, pure_eq_ok]
  exact ⟨_, hr, (), hc, rfl⟩

theorem verifyManifest_until {m : Manifest} {t t' : Timestamp} {insecure : Bool}
    (h : verifyManifest P m ⟨t, insecure⟩ = .ok ()) (ht : t' ≤ m.expiresAt) :
    verifyManifest P m ⟨t', insecure⟩ = .ok () := by
  simp only [verifyManifest, bind_eq_ok, ensure_eq_ok, Bool.not_eq_true',
    Timestamp.isInThePast_eq_false] at h ⊢
  obtain ⟨u, hv, u', hg, u'', -, hr⟩ := h
  exact ⟨u, hv, u', hg, u'', ht, hr⟩

variable (cfg) in
/-- A peer whose manifest and key are trusted bootstraps with the identity it builds. -/
theorem bootstrapVerifyPeer_honest (hp : peer.Holds P key) (ht : cfg.Trusts P peer key)
    (hx : cfg.now ≤ peer.manifest.expiresAt) {envelope : AitpEnvelope} {n : Nonce} {proof : String}
    {input : Bytes} (he : envelope.sender = peer.manifest.aid)
    (hi : pinnedKeyProofInput peer.signingKey.aid cfg.manifest.aid envelope.messageId
      envelope.timestamp (encodeBase64Url n.bytes) = .ok input)
    (hs : peer.signingKey.signJcs input = .ok proof) :
    bootstrapVerifyPeer P J envelope peer.manifest
      (.pinnedKey peer.manifest.identityHint.subject (encodeBase64Url key.bytes) proof)
      (encodeBase64Url n.bytes) cfg = .ok key := by
  obtain ⟨t, hm⟩ := ht.manifest
  have hm' := verifyManifest_until hm hx
  have hv := verifyPinnedKey_pinnedKey hp.total.lawful peer.manifest.identityHint.subject ht.pinned
    hi hs
  rw [hp.aid] at hv
  have hproof : verifyIdentityProof P J envelope peer.manifest
      (.pinnedKey peer.manifest.identityHint.subject (encodeBase64Url key.bytes) proof)
      (encodeBase64Url n.bytes) cfg = .ok key := by
    simp only [verifyIdentityProof, IdentityDescriptor.pinnedKey, bind_eq_ok, pure_eq_ok]
    exact ⟨_, hv, rfl⟩
  simp only [bootstrapVerifyPeer, bind_eq_ok, ensure_eq_ok, mapErr_eq_ok]
  exact ⟨(), decide_eq_true he.symm, (), hm', (), by simp [IdentityDescriptor.pinnedKey], (),
    by simp [IdentityDescriptor.pinnedKey, ht.kind], (), by simp [IdentityDescriptor.pinnedKey],
    hproof⟩

/-! ## Tokens -/

/-- Grants without spaces that leave nothing a party requires ungranted. -/
structure Covering (grants : List String) (required : Option (List String)) : Prop where
  nonempty : grants ≠ []
  spaceless : ∀ g ∈ grants, g.toList.any isWhitespace = false
  covers : required.getD [] ⊆ grants

/-- Such grants without the marker of an attestation. -/
structure Issuable (grants : List String) (required : Option (List String)) : Prop
    extends Covering grants required where
  unmarked : attestationGrant ∉ grants

/-- The claims that a party issues to a peer at its clock reading. -/
structure IssuedClaims (P : Primitives) (cfg : PeerConfig) (peerAid : Aid) (grants : List String)
    (c : TctClaims) : Prop where
  writable : c.Writable P
  ver : c.ver = protocolVersion
  iss : c.iss = cfg.signingKey.aid
  sub : c.sub = peerAid
  aud : c.aud = peerAid
  iat : c.iat = cfg.now
  exp : c.exp = min (cfg.now.saturatingAdd defaultTctTtl) cfg.manifest.expiresAt
  grants : c.grants = grants
  cnf : checkCnf P c.sub c.jkt = .ok ()
  ext : c.ext = none

variable (cfg) in
theorem issueTtl_eq (ht : cfg.now.Fits) (hx : cfg.manifest.expiresAt.Fits)
    (hn : cfg.now < cfg.manifest.expiresAt) :
    1 ≤ issueTtl cfg ∧ cfg.now.saturatingAdd (issueTtl cfg).toNat =
      min (cfg.now.saturatingAdd defaultTctTtl) cfg.manifest.expiresAt := by
  have hlt : cfg.now < cfg.now.saturatingAdd defaultTctTtl :=
    Timestamp.lt_saturatingAdd (hn.trans_le hx.2) (by decide)
  have hle := Timestamp.saturatingAdd_sub_le cfg.now ht defaultTctTtl
  unfold issueTtl
  generalize hm : min (cfg.now.saturatingAdd defaultTctTtl) cfg.manifest.expiresAt = m
  have hnm : cfg.now < m := hm ▸ lt_min hlt hn
  have hmf : m.Fits := by
    rw [← hm]
    exact ⟨le_min (saturate_fits _).1 hx.1, (min_le_right _ _).trans hx.2⟩
  have hd : m - cfg.now ≤ defaultTctTtl := by
    have := (min_le_left _ _).trans_eq' hm
    linarith
  have hd' : m - cfg.now ≤ i64Max := hd.trans (by decide)
  have hp : 1 ≤ m - cfg.now := by linarith [Int.add_one_le_iff.mpr hnm]
  have h0 : i64Min ≤ 1 := by decide
  have hs : saturate (m - cfg.now) = m - cfg.now := saturate_of_fits ⟨h0.trans hp, hd'⟩
  rw [hs]
  exact ⟨hp, Timestamp.saturatingAdd_toNat_sub hmf hnm.le hd'⟩

variable {peerAid : Aid} {peerKey : VerifyingKey} {grants requested : List String}
  {required : Option (List String)} {identity : IdentityDescriptor} {drawn : RandomV4}

variable (drawn) in
/-- A token is issued to a peer for what is left of its requests, with a voucher. -/
theorem issueTctForPeer_honest (hh : cfg.Holds P key) (ht : cfg.now.Fits)
    (hx : cfg.manifest.expiresAt.Fits) (hn : cfg.now < cfg.manifest.expiresAt)
    (hk : VerifyingKey.fromAid P peerAid = .ok peerKey) (hne : peerAid ≠ cfg.manifest.aid)
    (hg : grantsForPeer cfg identity peerAid requested = .ok grants)
    (hi : Issuable grants required) :
    ∃ issued voucher, issueTctForPeer P cfg identity peerAid peerKey requested drawn = .ok issued ∧
      IssuedClaims P cfg peerAid grants issued.claims ∧
      signCompact cfg.signingKey typTct issued.claims.toValue = .ok issued.token ∧
      issued.voucher = some voucher ∧
      signCompact cfg.signingKey typGrantVoucher issued.claims.voucher.toValue = .ok voucher := by
  obtain ⟨h1, hexp⟩ := issueTtl_eq cfg ht hx hn
  let b : TctBuilder :=
    { TctBuilder.new cfg.signingKey drawn with
      subject := some peerAid
      audience := some peerAid
      grants := grants
      ttl := (issueTtl cfg).toNat
      subjectPubkey := some peerKey
      nowOverride := some cfg.now }
  let c := b.claims P peerAid peerKey drawn.id cfg.now
  have hkey : peerKey.bytes = peerAid.pubkeyCompressedBytes := by
    rw [(VerifyingKey.fromAid_eq_ok.mp hk).1]
  have hd : b.draft P cfg.now = .ok ⟨c, some c.voucher⟩ :=
    (TctBuilder.draft_eq_ok rfl).mpr ⟨peerAid, peerKey, drawn.id, rfl, rfl, rfl, rfl, hi.unmarked,
      hi.nonempty, hi.spaceless, hh.aid ▸ hne, hkey, rfl⟩
  obtain ⟨token, htok⟩ := hh.total.signCompact (by decide : typNeedsNoEscape typTct = true) c.toValue
  obtain ⟨voucher, hv⟩ := hh.total.signCompact
    (by decide : typNeedsNoEscape typGrantVoucher = true) c.voucher.toValue
  have hb : b.build P cfg.now = .ok ⟨token, c, some voucher⟩ :=
    TctBuilder.build_eq_ok.mpr ⟨_, hd, htok, by simp [signVoucher, hv, b, TctBuilder.new], rfl⟩
  have hw : c.Writable P := TctClaims.writable_claims drawn.layout ht (by rintro _ ⟨⟩)
  have hcnf : checkCnf P c.sub c.jkt = .ok () := by
    simp [checkCnf, c, TctBuilder.claims, hk, ensure]
  refine ⟨⟨token, c, some voucher⟩, voucher, ?_,
    ⟨hw, rfl, rfl, rfl, rfl, rfl, hexp, rfl, hcnf, rfl⟩, htok, rfl, hv⟩
  simp only [issueTctForPeer, bind_eq_ok, ensure_eq_ok, mapErr_eq_ok]
  exact ⟨grants, hg, (), by simp [hi.nonempty], (), decide_eq_true h1, hb⟩

/-- A token issued to a party is accepted by it while it lasts. -/
theorem verifyReceivedTct_honest (hP : P.ReadsText) (hp : peer.Holds P key)
    {c : TctClaims} {token voucher : String} (hc : IssuedClaims P peer cfg.manifest.aid grants c)
    (hx : c.iat.Exact ∧ c.exp.Exact) (hi : Issuable grants cfg.manifest.requiredPeerCapabilities)
    (ho : grants ⊆ peer.manifest.offeredCapabilities)
    (hne : cfg.manifest.aid ≠ peer.manifest.aid) (ht : cfg.now.Fits) (hle : peer.now ≤ cfg.now)
    (hlife : cfg.now ≤ peer.now.saturatingAdd defaultTctTtl)
    (hexp : cfg.now ≤ peer.manifest.expiresAt) (hr : cfg.revocation.AnswersClear)
    (htok : signCompact peer.signingKey typTct c.toValue = .ok token)
    (hv : signCompact peer.signingKey typGrantVoucher c.voucher.toValue = .ok voucher) :
    verifyReceivedTct P token (some voucher) cfg peer.manifest.aid
      (some peer.manifest.expiresAt) peer.manifest.offeredCapabilities = .ok ⟨token, c, grants⟩ := by
  have hcan : c.reread P = c := by
    rw [TctClaims.reread, hc.ext, Option.map_none, ← hc.ext]
  have hpres : c.Presentable P
      { expectedAudience := cfg.manifest.aid
        issuer := peer.manifest.aid
        now := cfg.now
        issuerManifestExpiresAt := some peer.manifest.expiresAt
        revocation := cfg.revocation
        clockSkew := 0 } := by
    refine ⟨hc.writable, hx, hc.ver, hc.iss.trans hp.aid, hc.aud, hc.aud.trans hc.sub.symm, ?_, ?_, ?_,
      ?_, ?_, ?_, hc.cnf⟩
    · rw [hc.iss, hc.sub, hp.aid]
      exact hne.symm
    · rw [hc.grants]
      exact hi.unmarked
    · rw [Timestamp.saturatingSub_zero ht, hc.exp]
      exact le_min hlife hexp
    · rw [Timestamp.saturatingAdd_zero ht, hc.iat]
      exact hle
    · rintro t ⟨⟩
      rw [hc.exp]
      exact min_le_right _ _
    · rw [hc.grants]
      exact hi.nonempty
  have hver := verifyTctBeforeRevocation_signCompact hP hp.total.lawful hpres hp.aid.symm htok
  have hvou := verifyVoucher_signCompact hP hp.total.lawful hc.writable.voucher hx rfl hc.iss
    (by rw [TctClaims.voucher, hc.grants]; exact hi.nonempty) hv
  rw [hcan] at hver
  rw [hp.aid] at hvou
  have hrev := hr.check c cfg.now
  simp only [verifyReceivedTct, receivedRevocation, bind_eq_ok, mapErr_eq_ok, forEach_eq_ok,
    ensure_eq_ok, pure_eq_ok]
  refine ⟨c, hver, (), ?_, (), ?_, c.grants, hrev, (), ?_, by rw [hc.grants]⟩
  · simp [checkReceivedVoucher, hvou, TctClaims.voucher, ensure]
  · rintro g hg
    rw [hc.grants] at hg
    simpa using ho hg
  · cases hq : cfg.manifest.requiredPeerCapabilities with
    | none => rfl
    | some req =>
      have hcov := hi.covers
      rw [hq, Option.getD_some] at hcov
      rw [ifPresent_some, forEach_eq_ok]
      rintro r hm
      rw [hc.grants, ensure_eq_ok]
      simpa using hcov hm

theorem grantsForPeer_subset
    (h : grantsForPeer cfg identity peerAid requested = .ok grants) :
    grants ⊆ cfg.manifest.offeredCapabilities := by
  unfold grantsForPeer at h
  rintro g hg
  split at h
  · obtain rfl := Except.ok.inj h
    simpa using (List.mem_filter.mp hg).2
  · simp only [bind_eq_ok, pure_eq_ok] at h
    obtain ⟨permitted, -, rfl⟩ := h
    have hg := (List.mem_filter.mp (List.mem_filter.mp hg).1).2
    simpa using hg

/-! ## Commits -/

/-- A commit as a party makes it: a token and a voucher of the same claims, and a proof over the
peer's nonce. -/
structure CommitOf (P : Primitives) (cfg : PeerConfig) (peerAid : Aid) (grants : List String)
    (n : Nonce) (c : TctClaims) (m : MutualCommitPayload) : Prop where
  claims : IssuedClaims P cfg peerAid grants c
  tct : signCompact cfg.signingKey typTct c.toValue = .ok m.tct
  voucher : ∃ v, m.grantVoucher = some v ∧
    signCompact cfg.signingKey typGrantVoucher c.voucher.toValue = .ok v
  pop : signPop cfg.signingKey (encodeBase64Url n.bytes) = .ok m.popSignature
  echo : m.popNonceEcho = encodeBase64Url n.bytes

variable (cfg drawn) in
theorem commitTo_honest (hh : cfg.Holds P key) (ht : cfg.now.Fits)
    (hx : cfg.manifest.expiresAt.Fits) (hn : cfg.now < cfg.manifest.expiresAt)
    (hk : VerifyingKey.fromAid P peerAid = .ok peerKey) (hne : peerAid ≠ cfg.manifest.aid)
    (hg : grantsForPeer cfg identity peerAid requested = .ok grants)
    (hi : Issuable grants required) (n : Nonce) :
    ∃ c m, commitTo P cfg identity peerAid peerKey requested (encodeBase64Url n.bytes) drawn =
      .ok m ∧ CommitOf P cfg peerAid grants n c m := by
  obtain ⟨issued, voucher, his, hc, ht, hv, hvs⟩ :=
    issueTctForPeer_honest drawn hh ht hx hn hk hne hg hi
  obtain ⟨sig, hs⟩ := hh.total.signNonce
    (HandshakeError.invalidEnvelope "pop nonce is not valid base64url") .crypto n.bytes
  refine ⟨issued.claims, ⟨issued.token, issued.voucher, sig, encodeBase64Url n.bytes, none⟩, ?_,
    hc, ht, ⟨voucher, hv, hvs⟩, hs, rfl⟩
  simp only [commitTo, signPop, bind_eq_ok, pure_eq_ok]
  exact ⟨issued, his, sig, hs, rfl⟩

variable (cfg) in
/-- A commit is accepted by the party it was made for while its token lasts. -/
theorem acceptCommit_honest (hP : P.ReadsText) (hp : peer.Holds P key) {c : TctClaims}
    {n : Nonce} {m : MutualCommitPayload} (hm : CommitOf P peer cfg.manifest.aid grants n c m)
    (hx : c.iat.Exact ∧ c.exp.Exact) (hi : Issuable grants cfg.manifest.requiredPeerCapabilities)
    (ho : grants ⊆ peer.manifest.offeredCapabilities)
    (hne : cfg.manifest.aid ≠ peer.manifest.aid) (ht : cfg.now.Fits) (hle : peer.now ≤ cfg.now)
    (hlife : cfg.now ≤ peer.now.saturatingAdd defaultTctTtl)
    (hexp : cfg.now ≤ peer.manifest.expiresAt) (hr : cfg.revocation.AnswersClear) :
    acceptCommit P (encodeBase64Url n.bytes) (.ofManifest peer.manifest key) m cfg =
      .ok ⟨⟨m.tct, c, grants⟩, m.grantVoucher, grants⟩ := by
  obtain ⟨voucher, hv, hvs⟩ := hm.voucher
  have hver := verifyReceivedTct_honest hP hp hm.claims hx hi ho hne ht hle hlife hexp hr hm.tct hvs
  have hpop : verifyPop P key (encodeBase64Url n.bytes) m.popSignature = .ok () :=
    verifyNonce_signNonce hp.total.lawful hm.pop
  simp only [acceptCommit, bind_eq_ok, pure_eq_ok]
  exact ⟨(), hpop, _, hv ▸ hver, rfl⟩

/-! ## A whole exchange -/

/-- The inputs of one exchange: both parties, their messages' envelopes and the clock readings. -/
structure Exchange where
  initiator : PeerConfig
  responder : PeerConfig
  initiatorSubject : String
  responderSubject : String
  initiatorRequests : List String
  responderRequests : List String
  helloEnvelope : AitpEnvelope
  helloAckEnvelope : AitpEnvelope
  commitEnvelope : AitpEnvelope
  commitAckEnvelope : AitpEnvelope
  initiatorNonce : Nonce
  responderNonce : Nonce
  initiatorDraw : RandomV4
  responderDraw : RandomV4
  startAt : Timestamp
  helloAt : Timestamp
  helloAckAt : Timestamp
  commitAt : Timestamp
  commitAckAt : Timestamp

/-- What an exchange leaves. -/
structure Exchanged where
  initiator : Initiator
  responder : Responder
  commit : MutualCommitPayload
  commitAck : MutualCommitAckPayload
  initiatorHolds : CompletedHandshake
  responderHolds : CompletedHandshake

namespace Exchange

variable (P J) (x : Exchange)

def start : Except HandshakeError (Initiator × MutualHelloPayload) :=
  Initiator.start P (x.initiator.at x.startAt) (.pinnedKey x.initiatorSubject)
    x.responder.manifest.aid x.helloEnvelope.messageId x.helloEnvelope.timestamp
    x.initiatorRequests (some x.initiatorNonce)

def answer (hello : MutualHelloPayload) : Except HandshakeError (Responder × MutualHelloAckPayload) :=
  Responder.onHello P J x.helloEnvelope hello (.pinnedKey x.responderSubject)
    x.helloAckEnvelope.messageId x.helloAckEnvelope.timestamp (x.responder.at x.helloAt)
    x.responderRequests (some x.responderNonce)

/-- The five calls, each on the message that the one before it returned. -/
def play : Except HandshakeError Exchanged := do
  let (i₀, hello) ← x.start P
  let (r₀, ack) ← x.answer P J hello
  let (i₁, committed) := i₀.onHelloAck P J x.helloAckEnvelope ack (x.initiator.at x.helloAckAt)
    x.initiatorDraw
  let commit ← committed
  let (r₁, answered) := r₀.onCommit P x.commitEnvelope commit (x.responder.at x.commitAt)
    x.responderDraw
  let (commitAck, responderHolds) ← answered
  let (i₂, completed) := i₁.onCommitAck P x.commitAckEnvelope commitAck
    (x.initiator.at x.commitAckAt)
  let initiatorHolds ← completed
  return ⟨i₂, r₁, commit, commitAck, initiatorHolds, responderHolds⟩

/-- An exchange of two parties that trust each other, in which `G` holds of the grants that are left
of each party's requests and of what it requires. -/
structure Honest (G : List String → Option (List String) → Prop)
    (initiatorKey responderKey : VerifyingKey) : Prop where
  initiatorHolds : x.initiator.Holds P initiatorKey
  responderHolds : x.responder.Holds P responderKey
  distinct : initiatorKey ≠ responderKey
  initiatorTrusts : x.initiator.Trusts P x.responder responderKey
  responderTrusts : x.responder.Trusts P x.initiator initiatorKey
  initiatorSubject : x.initiatorSubject = x.initiator.manifest.identityHint.subject
  responderSubject : x.responderSubject = x.responder.manifest.identityHint.subject
  helloSender : x.helloEnvelope.sender = x.initiator.manifest.aid
  helloAckSender : x.helloAckEnvelope.sender = x.responder.manifest.aid
  commitSender : x.commitEnvelope.sender = x.initiator.manifest.aid
  commitAckSender : x.commitAckEnvelope.sender = x.responder.manifest.aid
  ordered : x.startAt ≤ x.helloAt ∧ x.helloAt ≤ x.helloAckAt ∧ x.helloAckAt ≤ x.commitAt ∧
    x.commitAt ≤ x.commitAckAt
  fits : x.startAt.Fits ∧ x.initiator.manifest.expiresAt.Fits ∧
    x.responder.manifest.expiresAt.Fits
  expiry : x.commitAckAt < x.initiator.manifest.expiresAt ∧
    x.commitAckAt < x.responder.manifest.expiresAt
  gaps : x.commitAt < x.helloAckAt + defaultTctTtl ∧ x.commitAckAt < x.commitAt + defaultTctTtl
  clear : x.initiator.revocation.AnswersClear ∧ x.responder.revocation.AnswersClear
  initiatorGrants : ∀ s hello, x.start P = .ok (s, hello) → ∃ grants,
    grantsForPeer (x.responder.at x.commitAt) hello.identity x.initiator.manifest.aid
      x.initiatorRequests = .ok grants ∧ G grants x.initiator.manifest.requiredPeerCapabilities
  responderGrants : ∀ s hello r ack, x.start P = .ok (s, hello) →
    x.answer P J hello = .ok (r, ack) → ∃ grants,
    grantsForPeer (x.initiator.at x.helloAckAt) ack.identity x.responder.manifest.aid
      x.responderRequests = .ok grants ∧ G grants x.responder.manifest.requiredPeerCapabilities

/-- The exchange starts, and what is issued in it ends, at times that are signed as they are. -/
structure ExactTimes : Prop where
  start : x.startAt.Exact
  byInitiator : Timestamp.Exact
    (min (x.helloAckAt.saturatingAdd defaultTctTtl) x.initiator.manifest.expiresAt)
  byResponder : Timestamp.Exact
    (min (x.commitAt.saturatingAdd defaultTctTtl) x.responder.manifest.expiresAt)

namespace Honest

variable {P J x} {G : List String → Option (List String) → Prop} {ki kr : VerifyingKey}

theorem aid_ne (h : x.Honest P J G ki kr) :
    x.initiator.manifest.aid ≠ x.responder.manifest.aid := by
  rintro he
  have hi := h.initiatorHolds.total.lawful.1
  have hr := h.responderHolds.total.lawful.1
  rw [h.initiatorHolds.aid, he] at hi
  rw [h.responderHolds.aid, hi] at hr
  exact h.distinct (Except.ok.inj hr)

theorem fromAid_initiator (h : x.Honest P J G ki kr) :
    VerifyingKey.fromAid P x.initiator.manifest.aid = .ok ki :=
  h.initiatorHolds.aid ▸ h.initiatorHolds.total.lawful.1

theorem fromAid_responder (h : x.Honest P J G ki kr) :
    VerifyingKey.fromAid P x.responder.manifest.aid = .ok kr :=
  h.responderHolds.aid ▸ h.responderHolds.total.lawful.1

/-- The HELLO that starts the exchange. -/
theorem start_ok (h : x.Honest P J G ki kr) : ∃ proof input,
    x.start P = .ok (.awaitingHelloAck (encodeBase64Url x.initiatorNonce.bytes)
        x.responder.manifest.aid,
      ⟨.pinnedKey x.initiator.manifest.identityHint.subject (encodeBase64Url ki.bytes) proof,
        x.initiator.manifest, x.initiatorRequests, encodeBase64Url x.initiatorNonce.bytes, none⟩) ∧
    pinnedKeyProofInput x.initiator.signingKey.aid x.responder.manifest.aid
      x.helloEnvelope.messageId x.helloEnvelope.timestamp
      (encodeBase64Url x.initiatorNonce.bytes) = .ok input ∧
    x.initiator.signingKey.signJcs input = .ok proof := by
  obtain ⟨proof, input, hd, hi, hs⟩ := buildDescriptor_pinnedKey h.initiatorHolds.total
    x.initiatorSubject x.responder.manifest.aid x.helloEnvelope.messageId
    x.helloEnvelope.timestamp x.initiatorNonce
  refine ⟨proof, input, ?_, hi, hs⟩
  rw [h.initiatorSubject] at hd
  simp only [start, Initiator.start, freshNonce, Option.map_some, okOr_some, ok_bind,
    PeerConfig.at, h.initiatorSubject, hd]
  rfl

theorem answer_ok (h : x.Honest P J G ki kr) {s : Initiator} {hello : MutualHelloPayload}
    (hs : x.start P = .ok (s, hello)) : ∃ proof input,
    x.answer P J hello = .ok (.awaitingCommit
        { myPopNonce := encodeBase64Url x.responderNonce.bytes
          peerPopNonce := encodeBase64Url x.initiatorNonce.bytes
          peer := .ofManifest x.initiator.manifest ki
          peerRequestedGrants := x.initiatorRequests
          peerIdentity := hello.identity },
      ⟨.pinnedKey x.responder.manifest.identityHint.subject (encodeBase64Url kr.bytes) proof,
        x.responder.manifest, x.responderRequests, encodeBase64Url x.responderNonce.bytes,
        encodeBase64Url x.initiatorNonce.bytes, none⟩) ∧
    pinnedKeyProofInput x.responder.signingKey.aid x.initiator.manifest.aid
      x.helloAckEnvelope.messageId x.helloAckEnvelope.timestamp
      (encodeBase64Url x.responderNonce.bytes) = .ok input ∧
    x.responder.signingKey.signJcs input = .ok proof := by
  obtain ⟨proof₀, input₀, hs₀, hi₀, hp₀⟩ := h.start_ok
  obtain ⟨rfl, rfl⟩ := Prod.mk.inj (Except.ok.inj (hs.symm.trans hs₀))
  obtain ⟨proof, input, hd, hi, hp⟩ := buildDescriptor_pinnedKey h.responderHolds.total
    x.responderSubject x.initiator.manifest.aid x.helloAckEnvelope.messageId
    x.helloAckEnvelope.timestamp x.responderNonce
  have hnow : x.helloAt ≤ x.initiator.manifest.expiresAt := by
    obtain ⟨-, h₁, h₂, h₃⟩ := h.ordered
    exact (h₁.trans (h₂.trans h₃)).trans h.expiry.1.le
  have hb : bootstrapVerifyPeer P J x.helloEnvelope x.initiator.manifest
      (.pinnedKey x.initiator.manifest.identityHint.subject (encodeBase64Url ki.bytes) proof₀)
      (encodeBase64Url x.initiatorNonce.bytes) (x.responder.at x.helloAt) = .ok ki :=
    bootstrapVerifyPeer_honest (x.responder.at x.helloAt) h.initiatorHolds
      ⟨h.responderTrusts.1, h.responderTrusts.2, h.responderTrusts.3, h.responderTrusts.4⟩ hnow
      h.helloSender hi₀ hp₀
  have ha : applyPeerPolicy
      (.pinnedKey x.initiator.manifest.identityHint.subject (encodeBase64Url ki.bytes) proof₀)
      (x.responder.at x.helloAt) = .ok () :=
    mapErr_eq_ok.mpr h.responderTrusts.accepts
  refine ⟨proof, input, ?_, hi, hp⟩
  simp only [answer, Responder.onHello, bind_eq_ok, pure_eq_ok]
  rw [h.responderSubject] at hd ⊢
  exact ⟨ki, hb, (), ha, _, rfl, _, hd, rfl⟩

/-- The initiator binds itself to the responder. -/
theorem bindPeer_ok (h : x.Honest P J G ki kr) {s : Initiator} {hello : MutualHelloPayload}
    {r : Responder} {ack : MutualHelloAckPayload} (hs : x.start P = .ok (s, hello))
    (ha : x.answer P J hello = .ok (r, ack)) :
    Initiator.bindPeer P J (encodeBase64Url x.initiatorNonce.bytes) x.responder.manifest.aid
      x.helloAckEnvelope ack (x.initiator.at x.helloAckAt) = .ok kr := by
  obtain ⟨proof, input, ha₀, hi, hp⟩ := h.answer_ok hs
  obtain ⟨rfl, rfl⟩ := Prod.mk.inj (Except.ok.inj (ha.symm.trans ha₀))
  have hnow : x.helloAckAt ≤ x.responder.manifest.expiresAt := by
    obtain ⟨-, -, h₂, h₃⟩ := h.ordered
    exact (h₂.trans h₃).trans h.expiry.2.le
  have hb : bootstrapVerifyPeer P J x.helloAckEnvelope x.responder.manifest
      (.pinnedKey x.responder.manifest.identityHint.subject (encodeBase64Url kr.bytes) proof)
      (encodeBase64Url x.responderNonce.bytes) (x.initiator.at x.helloAckAt) = .ok kr :=
    bootstrapVerifyPeer_honest (x.initiator.at x.helloAckAt) h.responderHolds
      ⟨h.initiatorTrusts.1, h.initiatorTrusts.2, h.initiatorTrusts.3, h.initiatorTrusts.4⟩ hnow
      h.helloAckSender hi hp
  have hpol : applyPeerPolicy
      (.pinnedKey x.responder.manifest.identityHint.subject (encodeBase64Url kr.bytes) proof)
      (x.initiator.at x.helloAckAt) = .ok () :=
    mapErr_eq_ok.mpr h.initiatorTrusts.accepts
  simp only [Initiator.bindPeer, bind_eq_ok, ensure_eq_ok, pure_eq_ok]
  exact ⟨(), by simpa using h.helloAckSender, (), by simp, (), by simp, kr, hb, (), hpol, rfl⟩

theorem readings (h : x.Honest P J G ki kr) :
    (x.helloAckAt.Fits ∧ x.commitAt.Fits ∧ x.commitAckAt.Fits) ∧
      x.helloAckAt < x.initiator.manifest.expiresAt ∧ x.commitAt < x.responder.manifest.expiresAt ∧
      x.commitAt ≤ x.initiator.manifest.expiresAt ∧
      x.commitAt ≤ x.helloAckAt.saturatingAdd defaultTctTtl ∧
      x.commitAckAt ≤ x.commitAt.saturatingAdd defaultTctTtl := by
  obtain ⟨h₀, h₁, h₂, h₃⟩ := h.ordered
  obtain ⟨hs, hi, hr⟩ := h.fits
  obtain ⟨hxi, hxr⟩ := h.expiry
  obtain ⟨hg₂, hg₃⟩ := h.gaps
  have fits : ∀ t : Timestamp, x.startAt ≤ t → t ≤ x.commitAckAt → t.Fits := fun t hl hu =>
    ⟨hs.1.trans hl, hu.trans (hxi.le.trans hi.2)⟩
  have lasts : ∀ t t' : Timestamp, t'.Fits → t' < t + defaultTctTtl →
      t' ≤ t.saturatingAdd defaultTctTtl := by
    rintro t t' ht' hlt
    have hd : durationSecs defaultTctTtl = defaultTctTtl := rfl
    exact le_max_of_le_right (le_min ht'.2 (hd ▸ hlt.le))
  have f₂ := fits x.helloAckAt (h₀.trans h₁) (h₂.trans h₃)
  have f₃ := fits x.commitAt (h₀.trans (h₁.trans h₂)) h₃
  have f₄ := fits x.commitAckAt (h₀.trans (h₁.trans (h₂.trans h₃))) le_rfl
  exact ⟨⟨f₂, f₃, f₄⟩, (h₂.trans h₃).trans_lt hxi, h₃.trans_lt hxr, h₃.trans hxi.le,
    lasts _ _ f₃ hg₂, lasts _ _ f₄ hg₃⟩

/-- A party's clock reading is no later than the expiry of what it issues then, so the text of both
reads back. -/
theorem iat_exact (h : x.Honest P J G ki kr) (hx : x.ExactTimes) :
    x.helloAckAt.Exact ∧ x.commitAt.Exact := by
  obtain ⟨h₀, h₁, h₂, -⟩ := h.ordered
  obtain ⟨hs, hi, hr⟩ := hx
  obtain ⟨⟨f₂, f₃, -⟩, hx₂, hx₃, -, -, -⟩ := h.readings
  have l₂ : x.helloAckAt ≤ x.helloAckAt.saturatingAdd defaultTctTtl :=
    (Timestamp.lt_saturatingAdd (hx₂.trans_le h.fits.2.1.2) (by decide)).le
  have l₃ : x.commitAt ≤ x.commitAt.saturatingAdd defaultTctTtl :=
    (Timestamp.lt_saturatingAdd (hx₃.trans_le h.fits.2.2.2) (by decide)).le
  exact ⟨⟨hs.1.trans (h₀.trans h₁), (le_min l₂ hx₂.le).trans hi.2⟩,
    hs.1.trans (h₀.trans (h₁.trans h₂)), (le_min l₃ hx₃.le).trans hr.2⟩

end Honest

end Exchange

theorem Exchange.play_of_stages {x : Exchange} {i₀ i₁ i₂ : Initiator} {r₀ r₁ : Responder}
    {hello : MutualHelloPayload} {ack : MutualHelloAckPayload}
    {commit commitAck : MutualCommitPayload}
    {initiatorHolds responderHolds : CompletedHandshake} (hs : x.start P = .ok (i₀, hello))
    (ha : x.answer P J hello = .ok (r₀, ack))
    (h₂ : i₀.onHelloAck P J x.helloAckEnvelope ack (x.initiator.at x.helloAckAt) x.initiatorDraw =
      (i₁, .ok commit))
    (h₃ : r₀.onCommit P x.commitEnvelope commit (x.responder.at x.commitAt) x.responderDraw =
      (r₁, .ok (commitAck, responderHolds)))
    (h₄ : i₁.onCommitAck P x.commitAckEnvelope commitAck (x.initiator.at x.commitAckAt) =
      (i₂, .ok initiatorHolds)) :
    x.play P J = .ok ⟨i₂, r₁, commit, commitAck, initiatorHolds, responderHolds⟩ := by
  simp only [Exchange.play, hs, ok_bind, ha, h₂, h₃, h₄]
  rfl

theorem Exchange.stages_of_play {x : Exchange} {i₀ : Initiator} {r₀ : Responder}
    {hello : MutualHelloPayload} {ack : MutualHelloAckPayload} {o : Exchanged}
    (hs : x.start P = .ok (i₀, hello)) (ha : x.answer P J hello = .ok (r₀, ack))
    (h : x.play P J = .ok o) : ∃ i₁ r₁ i₂,
      i₀.onHelloAck P J x.helloAckEnvelope ack (x.initiator.at x.helloAckAt) x.initiatorDraw =
        (i₁, .ok o.commit) ∧
      r₀.onCommit P x.commitEnvelope o.commit (x.responder.at x.commitAt) x.responderDraw =
        (r₁, .ok (o.commitAck, o.responderHolds)) ∧
      i₁.onCommitAck P x.commitAckEnvelope o.commitAck (x.initiator.at x.commitAckAt) =
        (i₂, .ok o.initiatorHolds) := by
  simp only [Exchange.play, hs, ok_bind, ha, bind_eq_ok, pure_eq_ok, Prod.exists] at h
  obtain ⟨commit, h₂, commitAck, held, h₃, held', h₄, rfl⟩ := h
  exact ⟨_, _, _, Prod.ext rfl h₂, Prod.ext rfl h₃, Prod.ext rfl h₄⟩

/-- An honest exchange whose grants tokens can carry completes: both parties are done, and each
holds the token that the other issued to it. -/
theorem Exchange.play_of_honest {x : Exchange} {ki kr : VerifyingKey} (hP : P.ReadsText)
    (h : x.Honest P J Issuable ki kr) (hx : x.ExactTimes) : ∃ s hello r ack o,
      x.start P = .ok (s, hello) ∧ x.answer P J hello = .ok (r, ack) ∧ x.play P J = .ok o ∧
      o.initiator = .done ∧ o.responder = .done ∧
      o.initiatorHolds.tct.token = o.commitAck.tct ∧ o.responderHolds.tct.token = o.commit.tct := by
  obtain ⟨⟨f₂, f₃, f₄⟩, hx₂, hx₃, hx₃', hl₃, hl₄⟩ := h.readings
  obtain ⟨proof₀, -, hs, -, -⟩ := h.start_ok
  obtain ⟨proof₁, -, ha, -, -⟩ := h.answer_ok hs
  have hb := h.bindPeer_ok hs ha
  obtain ⟨grantsR, hgR, hiR⟩ := h.responderGrants _ _ _ _ hs ha
  obtain ⟨grantsI, hgI, hiI⟩ := h.initiatorGrants _ _ hs
  obtain ⟨c, m, hm, hmo⟩ := commitTo_honest (x.initiator.at x.helloAckAt)
    x.initiatorDraw (h.initiatorHolds.at _) f₂ h.fits.2.1 hx₂ h.fromAid_responder
    h.aid_ne.symm hgR hiR x.responderNonce
  have h₂ := Initiator.onHelloAck_eq_ok.mpr ⟨_, _, kr, rfl, hb, hm, rfl⟩
  have hxc : c.iat.Exact ∧ c.exp.Exact :=
    ⟨hmo.claims.iat ▸ (h.iat_exact hx).1, hmo.claims.exp ▸ hx.byInitiator⟩
  have hacc := acceptCommit_honest (x.responder.at x.commitAt) hP
    (h.initiatorHolds.at x.helloAckAt) hmo hxc hiR (grantsForPeer_subset hgR) h.aid_ne.symm f₃
    h.ordered.2.2.1 hl₃ hx₃' h.clear.2
  obtain ⟨c', m', hm', hmo'⟩ := commitTo_honest (x.responder.at x.commitAt)
    x.responderDraw (h.responderHolds.at _) f₃ h.fits.2.2 hx₃ h.fromAid_initiator
    h.aid_ne hgI hiI x.initiatorNonce
  have h₃ : (Responder.awaitingCommit
        { myPopNonce := encodeBase64Url x.responderNonce.bytes
          peerPopNonce := encodeBase64Url x.initiatorNonce.bytes
          peer := .ofManifest x.initiator.manifest ki
          peerRequestedGrants := x.initiatorRequests
          peerIdentity := .pinnedKey x.initiator.manifest.identityHint.subject
            (encodeBase64Url ki.bytes) proof₀ }).onCommit P x.commitEnvelope m
        (x.responder.at x.commitAt) x.responderDraw =
      (.done, .ok (m', ⟨⟨m.tct, c, grantsR⟩, m.grantVoucher, grantsR⟩)) :=
    Responder.onCommit_eq_ok.mpr ⟨_, rfl, checkBound_eq_ok.mpr ⟨h.commitSender, hmo.echo⟩, hacc,
      hm', rfl⟩
  have hxc' : c'.iat.Exact ∧ c'.exp.Exact :=
    ⟨hmo'.claims.iat ▸ (h.iat_exact hx).2, hmo'.claims.exp ▸ hx.byResponder⟩
  have hacc' := acceptCommit_honest (x.initiator.at x.commitAckAt) hP
    (h.responderHolds.at x.commitAt) hmo' hxc' hiI (grantsForPeer_subset hgI) h.aid_ne f₄
    h.ordered.2.2.2 hl₄ h.expiry.2.le h.clear.1
  have h₄ := Initiator.onCommitAck_eq_ok.mpr ⟨_, _, rfl,
    checkBound_eq_ok.mpr ⟨h.commitAckSender, hmo'.echo⟩, hacc', rfl⟩
  exact ⟨_, _, _, _, ⟨.done, .done, m, m', _, _⟩, hs, ha, play_of_stages hs ha h₂ h₃ h₄, rfl, rfl,
    rfl, rfl⟩

/-- An exchange in which the marker is left among the responder's grants is refused by the
initiator when it issues the responder's token. -/
theorem Exchange.play_of_marked {x : Exchange} {ki kr : VerifyingKey}
    (h : x.Honest P J Covering ki kr)
    (hm : ∀ identity grants, grantsForPeer (x.initiator.at x.helloAckAt) identity
      x.responder.manifest.aid x.responderRequests = .ok grants → attestationGrant ∈ grants) :
    x.play P J = .error (.tct .attestationMarker) := by
  obtain ⟨⟨f₂, -, -⟩, hx₂, -, -, -, -⟩ := h.readings
  obtain ⟨proof₀, -, hs, -, -⟩ := h.start_ok
  obtain ⟨proof₁, -, ha, -, -⟩ := h.answer_ok hs
  have hb := h.bindPeer_ok hs ha
  obtain ⟨grants, hg, hi⟩ := h.responderGrants _ _ _ _ hs ha
  have hmem := hm _ _ hg
  have hne := hi.nonempty
  have ht := (issueTtl_eq (x.initiator.at x.helloAckAt) f₂ h.fits.2.1 hx₂).1
  have hc : commitTo P (x.initiator.at x.helloAckAt)
      (.pinnedKey x.responder.manifest.identityHint.subject (encodeBase64Url kr.bytes) proof₁)
      x.responder.manifest.aid kr x.responderRequests (encodeBase64Url x.responderNonce.bytes)
      x.initiatorDraw = .error (.tct .attestationMarker) := by
    simp [commitTo, issueTctForPeer, hg, hne, ht, ensure, TctBuilder.build, TctBuilder.draft,
      TctBuilder.settle, TctBuilder.new, hmem]
  simp only [Exchange.play, hs, ok_bind, ha, Initiator.onHelloAck, hb, hc]
  rfl

/-- An exchange in which the responder refuses whatever the initiator issues to it fails so. -/
theorem Exchange.play_of_refused {x : Exchange} {ki kr : VerifyingKey} {e : HandshakeError}
    (h : x.Honest P J Issuable ki kr)
    (hr : ∀ identity grants c m, grantsForPeer (x.initiator.at x.helloAckAt) identity
      x.responder.manifest.aid x.responderRequests = .ok grants →
      CommitOf P (x.initiator.at x.helloAckAt) x.responder.manifest.aid grants
        x.responderNonce c m → acceptCommit P (encodeBase64Url x.responderNonce.bytes)
        (.ofManifest x.initiator.manifest ki) m (x.responder.at x.commitAt) = .error e) :
    x.play P J = .error e := by
  obtain ⟨⟨f₂, -, -⟩, hx₂, -, -, -, -⟩ := h.readings
  obtain ⟨proof₀, -, hs, -, -⟩ := h.start_ok
  obtain ⟨proof₁, -, ha, -, -⟩ := h.answer_ok hs
  have hb := h.bindPeer_ok hs ha
  obtain ⟨grants, hg, hi⟩ := h.responderGrants _ _ _ _ hs ha
  obtain ⟨c, m, hm, hmo⟩ := commitTo_honest (x.initiator.at x.helloAckAt)
    x.initiatorDraw (h.initiatorHolds.at _) f₂ h.fits.2.1 hx₂ h.fromAid_responder
    h.aid_ne.symm hg hi x.responderNonce
  have h₂ := Initiator.onHelloAck_eq_ok.mpr ⟨_, _, kr, rfl, hb, hm, rfl⟩
  have hc : checkBound "commit sender mismatch" (encodeBase64Url x.responderNonce.bytes)
      (.ofManifest x.initiator.manifest ki) x.commitEnvelope m = .ok () :=
    checkBound_eq_ok.mpr ⟨h.commitSender, hmo.echo⟩
  simp only [Exchange.play, hs, ok_bind, ha, h₂, Responder.onCommit, hc, hr _ grants c m hg hmo]
  rfl

/-- An honest exchange completes: the five calls succeed, both parties are done, and each holds the
token that the other issued to it. -/
theorem honest_exchange_completes {x : Exchange} {ki kr : VerifyingKey} (hP : P.ReadsText)
    (h : x.Honest P J Issuable ki kr) (hx : x.ExactTimes) : ∃ o, x.play P J = .ok o ∧
      o.initiator = .done ∧ o.responder = .done ∧
      o.initiatorHolds.tct.token = o.commitAck.tct ∧ o.responderHolds.tct.token = o.commit.tct := by
  obtain ⟨_, _, _, _, o, -, -, ho⟩ := Exchange.play_of_honest hP h hx
  exact ⟨o, ho⟩

/-! ## Two parties that pin each other's keys -/

namespace Toy

def jose : Jose := ⟨fun _ => true, fun _ _ _ _ => true⟩

/-- A party that offers and requires one capability and trusts every key. -/
def party (n : Fin 4) (capability : String) : PeerConfig where
  signingKey := signer (agent n)
  manifest := manifest (agent n) [capability] [capability] 0
  trustAnchors := []
  jwksResolver _ := none
  pinnedKeyStore _ := true
  grantPolicy := none
  revocation := .failOpen
  identityVerifier := none
  now := 0
  insecureLocalhost := false

def nonce (n : ℕ) : Nonce := ⟨List.replicate 16 (UInt8.ofNat n), by simp [nonceLen]⟩

/-- Two parties that request one capability of each other. -/
def exchange (capability : String) : Exchange where
  initiator := party 0 capability
  responder := party 1 capability
  initiatorSubject := "agent"
  responderSubject := "agent"
  initiatorRequests := [capability]
  responderRequests := [capability]
  helloEnvelope := .unsigned (agent 0) .mutualHello .null (uuid 0) 10
  helloAckEnvelope := .unsigned (agent 1) .mutualHelloAck .null (uuid 1) 11
  commitEnvelope := .unsigned (agent 0) .mutualCommit .null (uuid 2) 12
  commitAckEnvelope := .unsigned (agent 1) .mutualCommitAck .null (uuid 3) 13
  initiatorNonce := nonce 1
  responderNonce := nonce 2
  initiatorDraw := ⟨uuid 4, checkV4_uuid 4⟩
  responderDraw := ⟨uuid 5, checkV4_uuid 5⟩
  startAt := 10
  helloAt := 11
  helloAckAt := 12
  commitAt := 13
  commitAckAt := 14

theorem party_holds (n : Fin 4) (capability : String) :
    (party n capability).Holds primitives (agentKey n) :=
  ⟨rfl, signer_lawful _, fun _ => rfl⟩

theorem party_trusts (n m : Fin 4) {capability : String}
    (h : isCapabilityList [capability] = true) :
    (party n capability).Trusts primitives (party m capability) (agentKey m) :=
  have hn : (0 : Timestamp) ≤ (0 : Timestamp).saturatingAdd defaultManifestTtl := by decide
  ⟨rfl, rfl, ⟨0, verifyManifest_manifest m h h (by decide) hn⟩, rfl⟩

theorem grantsForPeer_party (n : Fin 4) (capability : String) (t : Timestamp)
    (identity : IdentityDescriptor) (aid : Aid) :
    grantsForPeer ((party n capability).at t) identity aid [capability] = .ok [capability] := by
  simp [grantsForPeer, PeerConfig.at, party, manifest, unsignedManifest]

theorem exchange_honest {capability : String} {G : List String → Option (List String) → Prop}
    (h : isCapabilityList [capability] = true) (hG : G [capability] (some [capability])) :
    (exchange capability).Honest primitives jose G (agentKey 0) (agentKey 1) where
  initiatorHolds := party_holds 0 _
  responderHolds := party_holds 1 _
  distinct := agentKey_ne
  initiatorTrusts := party_trusts 0 1 h
  responderTrusts := party_trusts 1 0 h
  initiatorSubject := rfl
  responderSubject := rfl
  helloSender := rfl
  helloAckSender := rfl
  commitSender := rfl
  commitAckSender := rfl
  ordered := show (10 : Int) ≤ 11 ∧ (11 : Int) ≤ 12 ∧ (12 : Int) ≤ 13 ∧ (13 : Int) ≤ 14 by decide
  fits := show Timestamp.Fits 10 ∧ Timestamp.Fits (Timestamp.saturatingAdd 0 defaultManifestTtl) ∧
    Timestamp.Fits (Timestamp.saturatingAdd 0 defaultManifestTtl) by decide
  expiry := show (14 : Int) < Timestamp.saturatingAdd 0 defaultManifestTtl ∧
    (14 : Int) < Timestamp.saturatingAdd 0 defaultManifestTtl by decide
  gaps := show (13 : Int) < 12 + defaultTctTtl ∧ (14 : Int) < 13 + defaultTctTtl by decide
  clear := ⟨fun _ _ => rfl, fun _ _ => rfl⟩
  initiatorGrants _ _ _ := ⟨[capability], grantsForPeer_party 1 _ _ _ _, hG⟩
  responderGrants _ _ _ _ _ _ := ⟨[capability], grantsForPeer_party 0 _ _ _ _, hG⟩

theorem exchange_exactTimes (capability : String) : (exchange capability).ExactTimes :=
  ⟨show Timestamp.Exact 10 by decide,
    show Timestamp.Exact (min (Timestamp.saturatingAdd 12 defaultTctTtl)
      (Timestamp.saturatingAdd 0 defaultManifestTtl)) by decide,
    show Timestamp.Exact (min (Timestamp.saturatingAdd 13 defaultTctTtl)
      (Timestamp.saturatingAdd 0 defaultManifestTtl)) by decide⟩

end Toy

open Toy in
theorem honest_exchange_completes_toy : ∃ o, (exchange "demo.echo").play primitives jose = .ok o ∧
    o.initiator = .done ∧ o.responder = .done ∧
    o.initiatorHolds.tct.token = o.commitAck.tct ∧ o.responderHolds.tct.token = o.commit.tct :=
  honest_exchange_completes readsText
    (exchange_honest (by decide) ⟨⟨by decide, by decide, by decide⟩, by decide⟩)
    (exchange_exactTimes _)

namespace Toy

/-- The time three seconds past the last that every text of a time can say. -/
def latest : Timestamp := 2 ^ 53 + 3

/-- A party whose manifest lasts until then. -/
def lateParty (n : Fin 4) (capability : String) : PeerConfig :=
  { party n capability with
    manifest := manifest (agent n) [capability] [capability] (latest - defaultManifestTtl)
    now := 2 ^ 53 }

theorem expiresAt_lateParty (n : Fin 4) (capability : String) :
    (lateParty n capability).manifest.expiresAt = latest :=
  show Timestamp.saturatingAdd (latest - defaultManifestTtl) defaultManifestTtl = latest by decide

theorem lateParty_holds (n : Fin 4) (capability : String) :
    (lateParty n capability).Holds primitives (agentKey n) :=
  ⟨rfl, signer_lawful _, fun _ => rfl⟩

theorem rereadTime_latest : primitives.rereadTime latest = some (latest + 1) := by
  have hc : (Json.int latest).canon = .int (latest + 1) := by decide +kernel
  rw [Primitives.rereadTime, hc, readsText.reread_int (by decide) (by decide)]
  decide

/-- A token that ends at that time outlasts the manifest for whoever reads it. -/
theorem verifyReceivedTct_late {c : TctClaims} {token : String} {voucher : Option String}
    (hc : IssuedClaims primitives (lateParty 0 "demo.echo") (agent 1) ["demo.echo"] c)
    (h : signCompact (signer (agent 0)) typTct c.toValue = .ok token) :
    verifyReceivedTct primitives token voucher (lateParty 1 "demo.echo") (agent 0) (some latest)
      ["demo.echo"] = .error (.tct .expiresAfterManifest) := by
  have hx : c.exp = latest := hc.exp.trans (by decide)
  have hi : primitives.rereadTime c.iat = some (2 ^ 53) := by
    rw [hc.iat]
    exact Timestamp.Exact.rereadTime readsText (show Timestamp.Exact (2 ^ 53) by decide)
  obtain ⟨hp, hv⟩ := hc.writable.opens_signCompact readsText (signer_lawful (agent 0)) h
  have hv : verifyCompact primitives (agent 0) typTct token = .ok c.toValue.jcs := hv
  have hd : (primitives.document c.toValue.jcs).bind decodeTctClaims =
      some { c.reread primitives with iat := 2 ^ 53, exp := latest + 1 } := by
    rw [readsText.document_jcs (hc.writable.readable_toValue readsText), Option.bind_some,
      hc.writable.decode_reread, hi, hx, rereadTime_latest]
    rfl
  have hs : c.iss = agent 0 := hc.iss
  have ha : (lateParty 1 "demo.echo").manifest.aid = agent 1 := rfl
  have hg : attestationGrant ≠ "demo.echo" := by decide
  have hl : (lateParty 1 "demo.echo").now.saturatingSub 0 ≤ latest + 1 := by decide
  have he : (9007199254740992 : ℤ) ≤ (lateParty 1 "demo.echo").now.saturatingAdd 0 := by decide
  simp [verifyReceivedTct, verifyTctBeforeRevocation, CoreChecks.verify, hp, hv, hd,
    TctClaims.reread, hc.ver, hs, hc.aud, hc.sub, hc.grants, ha, hg, hl, he, agent_ne.symm, ensure]

/-- Two parties whose manifests end at that time. -/
def lateExchange : Exchange :=
  { exchange "demo.echo" with
    initiator := lateParty 0 "demo.echo"
    responder := lateParty 1 "demo.echo"
    startAt := 2 ^ 53
    helloAt := 2 ^ 53
    helloAckAt := 2 ^ 53
    commitAt := 2 ^ 53
    commitAckAt := 2 ^ 53 }

theorem lateParty_trusts (n m : Fin 4) :
    (lateParty n "demo.echo").Trusts primitives (lateParty m "demo.echo") (agentKey m) :=
  have hn : (0 : Timestamp) ≤ Timestamp.saturatingAdd (latest - defaultManifestTtl)
    defaultManifestTtl := by decide
  ⟨rfl, rfl, ⟨0, verifyManifest_manifest m (by decide) (by decide) (by decide) hn⟩, rfl⟩

theorem grantsForPeer_lateParty (n : Fin 4) (t : Timestamp) (identity : IdentityDescriptor)
    (aid : Aid) :
    grantsForPeer ((lateParty n "demo.echo").at t) identity aid ["demo.echo"] =
      .ok ["demo.echo"] := by
  simp [grantsForPeer, PeerConfig.at, lateParty, party, manifest, unsignedManifest]

theorem lateExchange_honest :
    lateExchange.Honest primitives jose Issuable (agentKey 0) (agentKey 1) where
  initiatorHolds := lateParty_holds 0 _
  responderHolds := lateParty_holds 1 _
  distinct := agentKey_ne
  initiatorTrusts := lateParty_trusts 0 1
  responderTrusts := lateParty_trusts 1 0
  initiatorSubject := rfl
  responderSubject := rfl
  helloSender := rfl
  helloAckSender := rfl
  commitSender := rfl
  commitAckSender := rfl
  ordered := ⟨le_rfl, le_rfl, le_rfl, le_rfl⟩
  fits := show Timestamp.Fits (2 ^ 53) ∧
    Timestamp.Fits (Timestamp.saturatingAdd (latest - defaultManifestTtl) defaultManifestTtl) ∧
    Timestamp.Fits (Timestamp.saturatingAdd (latest - defaultManifestTtl) defaultManifestTtl) by
      decide
  expiry := by
    rw [lateExchange, expiresAt_lateParty, expiresAt_lateParty]
    decide
  gaps := show (2 ^ 53 : ℤ) < 2 ^ 53 + defaultTctTtl ∧ (2 ^ 53 : ℤ) < 2 ^ 53 + defaultTctTtl by
    decide
  clear := ⟨fun _ _ => rfl, fun _ _ => rfl⟩
  initiatorGrants _ _ _ := ⟨_, grantsForPeer_lateParty 1 _ _ _,
    ⟨⟨by decide, by decide, by decide⟩, by decide⟩⟩
  responderGrants _ _ _ _ _ _ := ⟨_, grantsForPeer_lateParty 0 _ _ _,
    ⟨⟨by decide, by decide, by decide⟩, by decide⟩⟩

end Toy

open Toy in
/-- Two parties that offer, request and require the marker of an attestation do not complete, and
neither do two whose manifests, and tokens, end at a time that is signed as a later one. -/
theorem honest_exchange_stopped : primitives.ReadsText ∧
    ((exchange attestationGrant).Honest primitives jose Covering (agentKey 0) (agentKey 1) ∧
      (exchange attestationGrant).play primitives jose = .error (.tct .attestationMarker)) ∧
    (lateExchange.Honest primitives jose Issuable (agentKey 0) (agentKey 1) ∧
      lateExchange.play primitives jose = .error (.tct .expiresAfterManifest)) := by
  have h : (exchange attestationGrant).Honest primitives jose Covering (agentKey 0) (agentKey 1) :=
    exchange_honest (by decide) ⟨by decide, by decide, by decide⟩
  refine ⟨readsText, ⟨h, Exchange.play_of_marked h ?_⟩, lateExchange_honest,
    Exchange.play_of_refused lateExchange_honest ?_⟩
  · rintro identity grants hg
    obtain rfl := Except.ok.inj ((grantsForPeer_party 0 _ _ _ _).symm.trans hg)
    exact List.mem_singleton_self _
  · intro identity grants c m hg hm
    obtain rfl := Except.ok.inj ((grantsForPeer_lateParty 0 _ _ _).symm.trans hg)
    have hpop : verifyPop primitives (agentKey 0) (encodeBase64Url (nonce 2).bytes)
        m.popSignature = .ok () :=
      verifyNonce_signNonce (signer_lawful (agent 0)) hm.pop
    have hlate : verifyReceivedTct primitives m.tct m.grantVoucher (lateParty 1 "demo.echo")
        (agent 0) (some latest) ["demo.echo"] = .error (.tct .expiresAfterManifest) :=
      verifyReceivedTct_late hm.claims hm.tct
    have hacc : acceptCommit primitives (encodeBase64Url (nonce 2).bytes)
        (.ofManifest (lateParty 0 "demo.echo").manifest (agentKey 0)) m (lateParty 1 "demo.echo") =
        .error (.tct .expiresAfterManifest) := by
      have ho : (lateParty 0 "demo.echo").manifest.offeredCapabilities = ["demo.echo"] := rfl
      have ha : (lateParty 0 "demo.echo").manifest.aid = agent 0 := rfl
      simp [acceptCommit, BoundPeer.ofManifest, hpop, expiresAt_lateParty, ho, ha, hlate]
    exact hacc

end Aitp
