import Aitp.Spiffe.BundleOrder
import Aitp.Spiffe.Svid

/-! # What a trust domain vouches for

A SPIFFE identity is accepted exactly when an authority of the bundle of its own trust domain
vouches for it: a key of the bundle signed what a JWT-SVID says of the sender, or a path under a
certificate of the bundle leads to a leaf for the subject whose key signed the proof of this very
handshake message.
-/

namespace Aitp

/-! ## A JWT-SVID -/

/-- A JWT-SVID as it is read, before a key is selected for it. -/
structure JwtSvid where
  alg : String
  kid : String
  signingInput : Bytes
  signature : Bytes
  claims : JwtSvidClaims

/-- What the claims of a JWT-SVID say: the agent that presents the subject, to whom, under which
nonce and when. -/
structure JwtSvidClaims.Says (P : Primitives) (claims : JwtSvidClaims) (subject : String)
    (ctx : SpiffeVerifyContext) : Prop where
  sub : claims.sub = subject
  aud : claims.aud.one = some ctx.receiverAid.value
  exp : ctx.now < claims.exp
  iat : claims.iat.isWithinToleranceOf ctx.now ctx.iatTolerance = true
  nonce : claims.nonce = ctx.popNonce
  holder : ∃ key, VerifyingKey.fromAid P ctx.senderAid = .ok key ∧
    claims.jkt = key.toJwkThumbprintSha256 P

section

variable (P : Primitives) (J : Jose) (X : X509)

/-- The JWT-SVID that a proof holds. -/
def readJwtSvid (proof : String) : Option JwtSvid :=
  match segments proof with
  | [headerB64, payloadB64, sigB64] => do
    let (alg, kid) ← (readJwtSvidHeader P X headerB64).toOption
    let sig ← decodeStrict sigB64
    let payload ← decodeStrict payloadB64
    let claims ← (P.document payload).bind decodeJwtSvidClaims
    return ⟨alg, kid, asBytes (headerB64 ++ "." ++ payloadB64), sig, claims⟩
  | _ => none

/-- A key of the bundle signed the token. -/
def JwtSvid.SignedBy (svid : JwtSvid) (bundle : SpiffeBundle) : Prop :=
  ∃ key ∈ bundle.jwtAuthorities, key.kid = some svid.kid ∧
    verifyJwsSignature J key svid.alg svid.signingInput svid.signature = .ok ()

/-- A token of the bundle says of the sender what the identity claims. -/
def JwtVouched (bundle : SpiffeBundle) (identity : IdentityDescriptor)
    (ctx : SpiffeVerifyContext) : Prop :=
  ∃ svid, readJwtSvid P X identity.proof = some svid ∧ svid.SignedBy J bundle ∧
    svid.claims.Says P identity.subject ctx

/-! ## An X509-SVID -/

/-- A leaf certificate for a subject, and for nothing but signatures. -/
structure LeafFor (leaf : X509Certificate) (subject : String) : Prop where
  names : ∃ names, leaf.subjectAlternativeName = .ok (some names) ∧ uriNames names = [subject]
  notCa : ∃ ca, leaf.basicConstraintsCa = .ok ca ∧ ca ≠ some true
  usage : ∃ u, leaf.keyUsage = .ok (some u) ∧ u.digitalSignature = true ∧
    u.keyCertSign = false ∧ u.crlSign = false

/-- A path from a certificate of the bundle to a leaf, for either purpose. -/
structure PathTo (bundle : SpiffeBundle) (leaf : Bytes) (intermediates : List Bytes)
    (now : Timestamp) : Prop where
  anchors : bundle.x509Authorities ≠ [] ∧
    ∀ der ∈ bundle.x509Authorities, X.anchorFromTrustedCert der = .ok ()
  parses : X.parseCertificate leaf = .ok () ∧ X.endEntityCert leaf = .ok ()
  afterEpoch : 0 ≤ now
  path : ∃ usage, X.verifyForUsage leaf bundle.x509Authorities intermediates now.toNat usage =
    .ok ()

/-- The proof is a signature over the handshake message. -/
def ProvedBy (key : VerifyingKey) (proof : String) (ctx : SpiffeVerifyContext) : Prop :=
  ∃ nonce input, decodeStrict ctx.popNonce = some nonce ∧
    (ProofContext.spiffeX509 ctx.senderAid ctx.receiverAid ctx.messageId ctx.timestamp
      nonce).SignedAs input ∧
    Signature.parse proof = .ok proof ∧ key.verifyJcs P input proof = .ok ()

/-- A leaf under the bundle is for the subject, and its key signed the handshake message. -/
def X509Vouched (bundle : SpiffeBundle) (identity : IdentityDescriptor)
    (ctx : SpiffeVerifyContext) : Prop :=
  ∃ leaf intermediates key,
    (identity.x5c.getD []).mapM X.decodeX5cEntry = .ok (leaf :: intermediates) ∧
      PathTo X bundle leaf intermediates ctx.now ∧
      LeafFor (X.certificate leaf) identity.subject ∧ leafKey P (X.certificate leaf) = .ok key ∧
      ProvedBy P key identity.proof ctx

/-- The bundle vouches for an identity. -/
def Vouched (bundle : SpiffeBundle) (identity : IdentityDescriptor) (ctx : SpiffeVerifyContext) :
    Prop :=
  identity.kind = .spiffe ∧ identity.issuer = none ∧ identity.publicKey = none ∧
    match identity.svidType with
    | some .jwtSvid => identity.x5c = none ∧ JwtVouched P J X bundle identity ctx
    | some .x509Svid => X509Vouched P X bundle identity ctx
    | none => False

end

/-! ## The verifier accepts what is vouched for -/

variable {P : Primitives} {J : Jose} {X : X509} {bundle : SpiffeBundle}
  {identity : IdentityDescriptor} {ctx : SpiffeVerifyContext} {u : Unit}

/-- No two keys of a bundle carry the same `kid`. -/
def SpiffeBundle.WellKeyed (bundle : SpiffeBundle) : Prop :=
  (bundle.jwtAuthorities.map JwkPublicKey.kid).Nodup

theorem SpiffeBundle.WellKeyed.find? (h : bundle.WellKeyed) {kid : String} {key : JwkPublicKey} :
    (bundle.jwtAuthorities.find? fun k => k.kid == some kid) = some key ↔
      key ∈ bundle.jwtAuthorities ∧ key.kid = some kid := by
  constructor
  · intro hf
    exact ⟨List.mem_of_find?_eq_some hf, by simpa using List.find?_some hf⟩
  · rintro ⟨hm, hk⟩
    obtain ⟨key', hf⟩ : ∃ key', (bundle.jwtAuthorities.find? fun k => k.kid == some kid) =
        some key' := by
      rw [← Option.isSome_iff_exists, List.find?_isSome]
      exact ⟨key, hm, by simpa using hk⟩
    have hk' : key'.kid = some kid := by simpa using List.find?_some hf
    have he := List.inj_on_of_nodup_map h (List.mem_of_find?_eq_some hf) hm (hk'.trans hk.symm)
    rw [hf, he]

theorem checkJwtSvidClaims_eq_ok {claims : JwtSvidClaims} {subject : String} :
    checkJwtSvidClaims P claims subject ctx = .ok u ↔ claims.Says P subject ctx := by
  simp only [checkJwtSvidClaims, bind_eq_ok, ensure_eq_ok, okOr_eq_ok, mapErr_eq_ok, exists_const,
    beq_iff_eq, decide_eq_true_eq]
  constructor
  · rintro ⟨hs, aud, ha, rfl, hx, hi, hn, key, hk, hj⟩
    exact ⟨hs, ha, hx, hi, hn, key, hk, hj⟩
  · rintro ⟨hs, ha, hx, hi, hn, key, hk, hj⟩
    exact ⟨hs, _, ha, rfl, hx, hi, hn, key, hk, hj⟩

theorem verifyJwtSvid_eq_ok (hb : bundle.WellKeyed) :
    verifyJwtSvid P J X identity bundle ctx = .ok u ↔ JwtVouched P J X bundle identity ctx := by
  unfold verifyJwtSvid JwtVouched readJwtSvid
  by_cases hseg : ∃ headerB64 payloadB64 sigB64,
      segments identity.proof = [headerB64, payloadB64, sigB64]
  · obtain ⟨headerB64, payloadB64, sigB64, hseg⟩ := hseg
    simp only [hseg, ok_bind, bind_eq_ok, okOr_eq_ok, mapErr_eq_ok, hb.find?,
      checkJwtSvidClaims_eq_ok, Prod.exists, Option.bind_eq_bind, Option.bind_eq_some_iff,
      toOption_eq_some, Option.pure_def, Option.some.injEq]
    constructor
    · rintro ⟨alg, kid, hh, key, ⟨hm, hk⟩, sig, hs, _, hv, payload, hp, claims, ⟨v, hd, hc⟩, hsays⟩
      exact ⟨_, ⟨alg, kid, hh, sig, hs, payload, hp, claims, ⟨v, hd, hc⟩, rfl⟩,
        ⟨key, hm, hk, hv⟩, hsays⟩
    · rintro ⟨_, ⟨alg, kid, hh, sig, hs, payload, hp, claims, ⟨v, hd, hc⟩, rfl⟩,
        ⟨key, hm, hk, hv⟩, hsays⟩
      exact ⟨alg, kid, hh, key, ⟨hm, hk⟩, sig, hs, (), hv, payload, hp, claims, ⟨v, hd, hc⟩, hsays⟩
  -- neither side reads anything of a proof that does not have three segments
  · constructor
    · intro h
      split at h
      · rename_i headerB64 payloadB64 sigB64 hs
        exact absurd ⟨headerB64, payloadB64, sigB64, hs⟩ hseg
      · cases h
    · rintro ⟨svid, hr, -⟩
      split at hr
      · rename_i headerB64 payloadB64 sigB64 hs
        exact absurd ⟨headerB64, payloadB64, sigB64, hs⟩ hseg
      · cases hr

theorem checkUriNames_eq_ok {uris : List String} {subject : String} :
    checkUriNames uris subject = .ok u ↔ uris = [subject] := by
  unfold checkUriNames
  split
  · simp
  · rename_i hne
    constructor
    · intro h
      simp at h
    · exact fun h => absurd h (hne subject)

theorem checkLeaf_eq_ok {leaf : X509Certificate} {subject : String} {key : VerifyingKey} :
    checkLeaf P leaf subject = .ok key ↔ LeafFor leaf subject ∧ leafKey P leaf = .ok key := by
  simp only [checkLeaf, bind_eq_ok, mapErr_eq_ok, okOr_eq_ok, ensure_eq_ok, exists_const,
    checkUriNames_eq_ok, bne_iff_ne, Bool.not_eq_true', Bool.or_eq_false_iff]
  constructor
  · rintro ⟨_, hn, names, rfl, hu, ca, hca, hne, _, hku, usage, rfl, hd, hs, hk⟩
    exact ⟨⟨⟨names, hn, hu⟩, ⟨ca, hca, hne⟩, usage, hku, hd, hs⟩, hk⟩
  · rintro ⟨⟨⟨names, hn, hu⟩, ⟨ca, hca, hne⟩, usage, hku, hd, hs⟩, hk⟩
    exact ⟨_, hn, names, rfl, hu, ca, hca, hne, _, hku, usage, rfl, hd, hs, hk⟩

theorem validatePath_eq_ok {leaf : Bytes} {anchors intermediates : List Bytes} {time : ℕ} :
    validatePath X leaf anchors intermediates time = .ok u ↔
      ∃ usage, X.verifyForUsage leaf anchors intermediates time usage = .ok () := by
  unfold validatePath
  split
  · rename_i hc
    exact iff_of_true rfl ⟨.clientAuth, hc⟩
  · rename_i e hc
    rw [mapErr_eq_ok]
    constructor
    · exact fun hs => ⟨.serverAuth, hs⟩
    · rintro ⟨usage, hu⟩
      cases usage with
      | clientAuth => exact absurd (hu.symm.trans hc) (by simp)
      | serverAuth => exact hu

/-- The `expect` of the proof input does not panic. -/
theorem checkX509Proof_eq_ok {key : VerifyingKey} {proof : String} :
    checkX509Proof P key proof ctx = .ok u ↔ ProvedBy P key proof ctx := by
  simp only [checkX509Proof, bind_eq_ok, okOr_eq_ok, mapErr_eq_ok, ProvedBy]
  constructor
  · rintro ⟨_, hi, input, rfl, sig, hp, hv⟩
    obtain ⟨nonce, hn, -⟩ := spiffeX509ProofInput_ok hi
    obtain rfl := Signature.eq_of_parse hp
    exact ⟨nonce, input, hn, ⟨_, hn, hi⟩, hp, hv⟩
  · rintro ⟨nonce, input, hn, ⟨popNonce, hn', hi⟩, hp, hv⟩
    obtain rfl := decodeStrict_injective hn hn'
    exact ⟨_, hi, input, rfl, _, hp, hv⟩

theorem mapM_mapErr {α β ε ε' : Type} {f : ε → ε'} {g : α → Except ε β} {l : List α} {bs : List β} :
    (l.mapM fun a => mapErr f (g a)) = .ok bs ↔ l.mapM g = .ok bs := by
  induction l generalizing bs with
  | nil => simp
  | cons a l ih => simp only [List.mapM_cons, bind_eq_ok, mapErr_eq_ok, ih, pure_eq_ok]

theorem verifyX509Svid_eq_ok (ha : bundle.x509Authorities ≠ []) :
    verifyX509Svid P X identity bundle ctx = .ok u ↔ X509Vouched P X bundle identity ctx := by
  simp only [verifyX509Svid, bind_eq_ok, mapM_mapErr, X509Vouched]
  constructor
  · rintro ⟨chain, hc, h⟩
    cases chain with
    | nil => simp at h
    | cons leaf intermediates =>
      simp only [bind_eq_ok, mapErr_eq_ok, forEach_eq_ok, ensure_eq_ok, exists_const,
        decide_eq_true_eq, checkLeaf_eq_ok, validatePath_eq_ok, checkX509Proof_eq_ok] at h
      obtain ⟨_, hp, key, ⟨hl, hk⟩, _, hanchors, _, he, hnow, hpath, hproof⟩ := h
      exact ⟨leaf, intermediates, key, hc, ⟨⟨ha, hanchors⟩, ⟨hp, he⟩, hnow, hpath⟩, hl, hk, hproof⟩
  · rintro ⟨leaf, intermediates, key, hc, ⟨⟨-, hanchors⟩, ⟨hp, he⟩, hnow, hpath⟩, hl, hk, hproof⟩
    refine ⟨_, hc, ?_⟩
    simp only [bind_eq_ok, mapErr_eq_ok, forEach_eq_ok, ensure_eq_ok, exists_const,
      decide_eq_true_eq, checkLeaf_eq_ok, validatePath_eq_ok, checkX509Proof_eq_ok]
    exact ⟨(), hp, key, ⟨hl, hk⟩, (), hanchors, (), he, hnow, hpath, hproof⟩

theorem checkX5cShape_eq_ok {x5c : Option (List String)} {svidType : SvidType} :
    checkX5cShape x5c svidType = .ok u ↔
      match svidType with
      | .jwtSvid => x5c = none
      | .x509Svid => x5c.getD [] ≠ [] := by
  cases svidType with
  | jwtSvid => simp [checkX5cShape]
  | x509Svid => simp [checkX5cShape]

theorem X509Vouched.chain_ne_nil (h : X509Vouched P X bundle identity ctx) :
    identity.x5c.getD [] ≠ [] := by
  obtain ⟨leaf, intermediates, key, hc, -⟩ := h
  intro he
  simp [he] at hc

theorem JwtVouched.authorities_ne_nil (h : JwtVouched P J X bundle identity ctx) :
    bundle.jwtAuthorities ≠ [] := by
  obtain ⟨svid, -, ⟨key, hm, -⟩, -⟩ := h
  exact List.ne_nil_of_mem hm

theorem verifySpiffe_eq_ok (hb : ∀ td bundle, ctx.bundles.get td = some bundle → bundle.WellKeyed) :
    verifySpiffe P J X identity ctx = .ok u ↔
      ∃ td bundle, spiffeIdTrustDomain identity.subject = .ok td ∧
        ctx.bundles.get td = some bundle ∧ Vouched P J X bundle identity ctx := by
  simp only [verifySpiffe, checkSpiffeShape, bind_eq_ok, ensure_eq_ok, okOr_eq_ok, exists_const,
    decide_eq_true_eq, pure_eq_ok, Prod.exists, Prod.mk.injEq, checkX5cShape_eq_ok,
    Option.isNone_iff_eq_none]
  constructor
  · rintro ⟨td, svidType, ⟨hk, hi, hp, t, hs, td', ht, hx, rfl, rfl⟩, bundle, hg, h⟩
    refine ⟨td', bundle, ht, hg, hk, hi, hp, ?_⟩
    cases t with
    | jwtSvid =>
      simp only [bind_eq_ok, ensure_eq_ok, exists_const] at h
      rw [hs]
      exact ⟨hx, (verifyJwtSvid_eq_ok (hb td' bundle hg)).mp h.2⟩
    | x509Svid =>
      simp only [bind_eq_ok, ensure_eq_ok, exists_const, Bool.not_eq_true',
        List.isEmpty_eq_false_iff] at h
      rw [hs]
      exact (verifyX509Svid_eq_ok h.1).mp h.2
  · rintro ⟨td, bundle, ht, hg, hk, hi, hp, h⟩
    cases hs : identity.svidType with
    | none =>
      rw [hs] at h
      exact h.elim
    | some t =>
      rw [hs] at h
      cases t with
      | jwtSvid =>
        refine ⟨td, .jwtSvid, ⟨hk, hi, hp, _, rfl, _, ht, h.1, rfl, rfl⟩, bundle, hg, ?_⟩
        simp only [bind_eq_ok, ensure_eq_ok, exists_const, Bool.not_eq_true',
          List.isEmpty_eq_false_iff]
        exact ⟨h.2.authorities_ne_nil, (verifyJwtSvid_eq_ok (hb td bundle hg)).mpr h.2⟩
      | x509Svid =>
        have ha : bundle.x509Authorities ≠ [] := by
          obtain ⟨leaf, intermediates, key, -, hpath, -⟩ := h
          exact hpath.anchors.1
        refine ⟨td, .x509Svid, ⟨hk, hi, hp, _, rfl, _, ht, h.chain_ne_nil, rfl, rfl⟩, bundle, hg,
          ?_⟩
        simp only [bind_eq_ok, ensure_eq_ok, exists_const, Bool.not_eq_true',
          List.isEmpty_eq_false_iff]
        exact ⟨ha, (verifyX509Svid_eq_ok ha).mpr h⟩

theorem vouched_withBundles {bundles : SpiffeBundleStore} :
    Vouched P J X bundle identity { ctx with bundles := bundles } ↔
      Vouched P J X bundle identity ctx := by
  have hs : ∀ claims : JwtSvidClaims,
      claims.Says P identity.subject { ctx with bundles := bundles } ↔
        claims.Says P identity.subject ctx :=
    fun claims => ⟨fun h => ⟨h.1, h.2, h.3, h.4, h.5, h.6⟩, fun h => ⟨h.1, h.2, h.3, h.4, h.5, h.6⟩⟩
  simp only [Vouched, JwtVouched, hs]
  rfl

/-! ## Keys that are read from a JWK Set -/

theorem SpiffeBundle.wellKeyed_of_fromJwkSet {C : BundleCodec} {value : Json}
    (h : SpiffeBundle.fromJwkSet C value = .ok bundle) : bundle.WellKeyed := by
  obtain ⟨keys, hk⟩ : ∃ keys, jwkSetKeys value = some keys := by
    simp only [SpiffeBundle.fromJwkSet, bind_eq_ok, okOr_eq_ok] at h
    obtain ⟨keys, hk, -⟩ := h
    exact ⟨keys, hk⟩
  obtain ⟨-, hp, rfl⟩ := (fromJwkSet_eq_ok hk).mp h
  have hmap : (keys.filterMap fun jwk => (keyRole C jwk).key).map JwkPublicKey.kid =
      (keys.filterMap fun jwk => (keyRole C jwk).keptKid).map some := by
    rw [List.map_filterMap, List.map_filterMap]
    refine List.filterMap_congr fun jwk _ => ?_
    cases hr : keyRole C jwk with
    | supported kid key => simp [KeyRole.key, KeyRole.keptKid, keyRole_eq_supported hr]
    | _ => rfl
  rw [SpiffeBundle.WellKeyed, hmap]
  exact (nodup_kept_of_pairwise hp).map (Option.some_injective _)

/-! ## The store -/

namespace SpiffeBundleStore

variable {store store' : SpiffeBundleStore} {td td' : String}

theorem insert_eq_ok : store.insert td bundle = .ok store' ↔
    isCanonicalTrustDomain td.toList = true ∧ store.get td = none ∧
      store'.bundles = WriteOnce.insert store.bundles (td, bundle) := by
  unfold insert get
  rw [AList.lookup_eq_none]
  split_ifs with hc hm
  · simp [hm]
  · rw [and_iff_right hc, and_iff_right hm, WriteOnce.insert, if_neg hm]
    constructor
    · intro h
      rw [← Except.ok.inj h]
    · intro h
      obtain ⟨bundles, hbc⟩ := store'
      obtain rfl : bundles = _ := h
      rfl
  · simp [hc]

theorem get_insert : ((store.insert td bundle).toOption.getD store).get td' =
    if isCanonicalTrustDomain td.toList = true then
      (WriteOnce.insert store.bundles (td, bundle)).lookup td' else store.get td' := by
  cases hi : store.insert td bundle with
  | ok store' =>
    obtain ⟨hc, -, he⟩ := insert_eq_ok.mp hi
    rw [if_pos hc, ← he]
    rfl
  | error e =>
    split_ifs with hc
    · have hm : td ∈ store.bundles := by
        by_contra hm
        unfold insert at hi
        rw [dif_pos hc, if_neg hm] at hi
        cases hi
      rw [WriteOnce.insert, if_pos hm]
      rfl
    · rfl

end SpiffeBundleStore

end Aitp
