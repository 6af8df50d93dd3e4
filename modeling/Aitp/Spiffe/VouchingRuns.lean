import Aitp.Foundation.Transition
import Aitp.Handshake.Completion
import Aitp.Spiffe.Minting

/-! # SPIFFE peers over whole runs

A verifier's store is configured at first and bundles are added to it later, between any
identities that are presented to it. What decides on an identity, at any time, is the bundle that
was first given for its own trust domain; what was accepted once stays acceptable; and no SVID
serves two agents.
-/

namespace Aitp

open Transition

/-- An identity and what it was verified for. -/
structure SpiffePresentation where
  identity : IdentityDescriptor
  ctx : SpiffeVerifyContext

/-- A store, the bundles given for it, the oldest first, and what was accepted with it. -/
structure SpiffeWorld where
  store : SpiffeBundleStore
  inserted : List (String × SpiffeBundle)
  accepted : List SpiffePresentation

/-- The bundle of a trust domain is added, or an identity is verified. -/
inductive SpiffeAct where
  | insert (trustDomain : String) (jwkSet : Json)
  | verify (identity : IdentityDescriptor) (ctx : SpiffeVerifyContext)

/-- The bundles that a configuration gives. -/
def configEntries (C : BundleCodec) (spiffeBundles : Json) :
    Option (List (String × SpiffeBundle)) :=
  spiffeBundles.asArray.bind fun entries => entries.mapM fun e => (readBundleEntry C e).toOption

section

variable (P : Primitives) (J : Jose) (X : X509)

/-- What an act makes of a verifier: an insertion that fails changes nothing. -/
def SpiffeWorld.after (w : SpiffeWorld) : SpiffeAct → SpiffeWorld
  | .insert trustDomain jwkSet =>
    match SpiffeBundle.fromJwkSet X.toBundleCodec jwkSet with
    | .error _ => w
    | .ok bundle =>
      { w with
        store := (w.store.insert trustDomain bundle).toOption.getD w.store
        inserted := w.inserted ++ [(trustDomain, bundle)] }
  | .verify identity ctx =>
    match verifySpiffe P J X identity { ctx with bundles := w.store } with
    | .error _ => w
    | .ok () => { w with accepted := ⟨identity, ctx⟩ :: w.accepted }

/-- A verifier with an empty store, or with one that was built from a configuration. -/
def spiffeVerification : System SpiffeWorld SpiffeAct where
  init w := w.accepted = [] ∧ (w.store = .new ∧ w.inserted = [] ∨
    ∃ value, SpiffeBundleStore.fromConfig X.toBundleCodec value = .ok w.store ∧
      configEntries X.toBundleCodec value = some w.inserted)
  step w act w' := w' = w.after P J X act

/-- One JWT-SVID was presented twice by holders of keys of one thumbprint, to one receiver, under one
nonce, at times that its `iat` is within the tolerance of. -/
structure SameHolder (a b : SpiffePresentation) : Prop where
  subject : a.identity.subject = b.identity.subject
  receiver : a.ctx.receiverAid = b.ctx.receiverAid
  nonce : a.ctx.popNonce = b.ctx.popNonce
  thumbprint : ∃ k k', VerifyingKey.fromAid P a.ctx.senderAid = .ok k ∧
    VerifyingKey.fromAid P b.ctx.senderAid = .ok k' ∧
    k.toJwkThumbprintSha256 P = k'.toJwkThumbprintSha256 P
  apart : a.ctx.now ≤ b.ctx.now + (a.ctx.iatTolerance + b.ctx.iatTolerance)

/-- An X509-SVID was presented by a leaf whose key signed this handshake message: its proof verifies
over the input that proves this message, and that input proves nothing else, no other message,
receiver or nonce and no other kind of proof. -/
def LeafProved (a : SpiffePresentation) : Prop :=
  ∃ leaf intermediates key nonce input,
    (a.identity.x5c.getD []).mapM X.decodeX5cEntry = .ok (leaf :: intermediates) ∧
      LeafFor (X.certificate leaf) a.identity.subject ∧ leafKey P (X.certificate leaf) = .ok key ∧
      decodeStrict a.ctx.popNonce = some nonce ∧
      key.verifyJcs P input a.identity.proof = .ok () ∧
      ∀ c : ProofContext, c.SignedAs input ↔
        c = .spiffeX509 a.ctx.senderAid a.ctx.receiverAid a.ctx.messageId a.ctx.timestamp nonce

/-- What holds of a verifier at any time. -/
structure SpiffeLaw (w : SpiffeWorld) : Prop where
  kept : ∀ td, w.store.get td =
    if isCanonicalTrustDomain td.toList = true then w.inserted.lookup td else none
  decides : ∀ identity ctx, verifySpiffe P J X identity { ctx with bundles := w.store } = .ok () ↔
    ∃ td bundle, spiffeIdTrustDomain identity.subject = .ok td ∧
      w.inserted.lookup td = some bundle ∧ Vouched P J X bundle identity ctx
  lasting : ∀ a ∈ w.accepted,
    verifySpiffe P J X a.identity { a.ctx with bundles := w.store } = .ok ()
  bound : ∀ a ∈ w.accepted, ∀ b ∈ w.accepted, a.identity.svidType = some .jwtSvid →
    b.identity.svidType = some .jwtSvid → a.identity.proof = b.identity.proof → SameHolder P a b
  proved : ∀ a ∈ w.accepted, a.identity.svidType = some .x509Svid → LeafProved P X a

end

variable {P : Primitives} {J : Jose} {X : X509} {w : SpiffeWorld}

/-! ## The store of a configuration -/

theorem isCanonicalTrustDomain_of_ok {s td : String} (h : spiffeIdTrustDomain s = .ok td) :
    isCanonicalTrustDomain td.toList = true := by
  obtain ⟨cs, path, rfl, hn⟩ := exists_slash_of_trustDomain h
  obtain ⟨-, ⟨hc, -⟩, rfl⟩ := (spiffeIdTrustDomain_append hn).mp h
  rwa [String.toList_ofList]

/-- A store holds, under each trust domain, the first bundle that it was given for it. -/
def SpiffeBundleStore.Holds (store : SpiffeBundleStore) (inserted : List (String × SpiffeBundle)) :
    Prop :=
  ∀ td, store.get td =
    if isCanonicalTrustDomain td.toList = true then inserted.lookup td else none

namespace SpiffeBundleStore

variable {store store' : SpiffeBundleStore} {inserted : List (String × SpiffeBundle)} {td : String}
  {bundle : SpiffeBundle}

theorem holds_new : new.Holds [] := fun td => by
  rw [List.lookup_nil, ite_self]
  exact AList.lookup_empty td

theorem Holds.insert (h : store.Holds inserted) :
    ((store.insert td bundle).toOption.getD store).Holds (inserted ++ [(td, bundle)]) := by
  intro td'
  have hne : td' ≠ td → List.lookup td' [(td, bundle)] = none := fun he => by
    rw [List.lookup_cons, beq_false_of_ne he, List.lookup_nil]
  rw [get_insert, List.lookup_append]
  by_cases hc : isCanonicalTrustDomain td.toList = true
  · have hl : (WriteOnce.insert store.bundles (td, bundle)).lookup td' =
        (store.get td').or (List.lookup td' [(td, bundle)]) :=
      WriteOnce.lookup_insertAll [(td, bundle)]
    rw [if_pos hc, hl, h td']
    split_ifs with hc'
    · rfl
    · rw [Option.none_or, hne fun he => hc' (he ▸ hc)]
  · rw [if_neg hc, h td']
    split_ifs with hc'
    · rw [hne fun he => hc (he ▸ hc'), Option.or_none]
    · rfl

/-- The loop of `from_config` gives the bundles of its entries, one after the other. -/
theorem holds_of_foldlM {C : BundleCodec} {entries : List Json} {es : List (String × SpiffeBundle)}
    (h : store.Holds inserted)
    (hf : entries.foldlM (fun store entry => do
      let (trustDomain, bundle) ← readBundleEntry C entry
      store.insert trustDomain bundle) store = .ok store')
    (he : entries.mapM (fun e => (readBundleEntry C e).toOption) = some es) :
    store'.Holds (inserted ++ es) := by
  induction entries generalizing store inserted es with
  | nil =>
    obtain rfl : es = [] := by simpa [eq_comm] using he
    obtain rfl : store = store' := by simpa using hf
    rwa [List.append_nil]
  | cons entry entries ih =>
    simp only [List.foldlM_cons, bind_eq_ok, Prod.exists] at hf
    obtain ⟨store₁, ⟨td, bundle, hr, hi⟩, hf⟩ := hf
    simp only [List.mapM_cons, hr, Except.toOption, Option.bind_eq_bind, Option.bind_some,
      Option.bind_eq_some_iff, Option.pure_def, Option.some.injEq] at he
    obtain ⟨es', he, rfl⟩ := he
    have h₁ : ((store.insert td bundle).toOption.getD store).Holds (inserted ++ [(td, bundle)]) :=
      h.insert
    rw [hi] at h₁
    have h₂ := ih h₁ hf he
    rwa [List.append_assoc] at h₂

theorem holds_of_fromConfig {C : BundleCodec} {value : Json} {es : List (String × SpiffeBundle)}
    (h : fromConfig C value = .ok store) (he : configEntries C value = some es) :
    store.Holds es := by
  simp only [fromConfig, bind_eq_ok, okOr_eq_ok] at h
  obtain ⟨entries, ha, hf⟩ := h
  rw [configEntries, ha, Option.bind_some] at he
  exact holds_of_foldlM holds_new hf he

end SpiffeBundleStore

theorem wellKeyed_of_configEntries {C : BundleCodec} {value : Json}
    {es : List (String × SpiffeBundle)} (h : configEntries C value = some es) :
    ∀ e ∈ es, e.2.WellKeyed := by
  obtain ⟨entries, -, hm⟩ := Option.bind_eq_some_iff.mp h
  intro e he
  obtain ⟨entry, -, hr⟩ := Serde.exists_of_mem_mapM hm he
  have hok := toOption_eq_some.mp hr
  simp only [readBundleEntry, bind_eq_ok, okOr_eq_ok, pure_eq_ok] at hok
  obtain ⟨td, -, set, -, bundle, hb, rfl⟩ := hok
  exact SpiffeBundle.wellKeyed_of_fromJwkSet hb

/-! ## Runs -/

namespace SpiffeWorld

/-- What every act keeps. -/
structure Kept (P : Primitives) (J : Jose) (X : X509) (w : SpiffeWorld) : Prop where
  holds : w.store.Holds w.inserted
  keyed : ∀ e ∈ w.inserted, e.2.WellKeyed
  accepted : ∀ a ∈ w.accepted, ∃ td bundle, spiffeIdTrustDomain a.identity.subject = .ok td ∧
    w.inserted.lookup td = some bundle ∧ Vouched P J X bundle a.identity a.ctx

theorem keyed_of_lookup {es : List (String × SpiffeBundle)} (h : ∀ e ∈ es, e.2.WellKeyed)
    {td : String} {bundle : SpiffeBundle} (hl : es.lookup td = some bundle) : bundle.WellKeyed := by
  obtain ⟨l₁, l₂, rfl, -⟩ := List.lookup_eq_some_iff.mp hl
  exact h (td, bundle) (by simp)

theorem Kept.decides (h : w.Kept P J X) (identity : IdentityDescriptor)
    (ctx : SpiffeVerifyContext) :
    verifySpiffe P J X identity { ctx with bundles := w.store } = .ok () ↔
      ∃ td bundle, spiffeIdTrustDomain identity.subject = .ok td ∧
        w.inserted.lookup td = some bundle ∧ Vouched P J X bundle identity ctx := by
  have hkeyed : ∀ td bundle, w.store.get td = some bundle → bundle.WellKeyed := by
    intro td bundle hg
    rw [h.holds td] at hg
    split_ifs at hg
    exact keyed_of_lookup h.keyed hg
  rw [verifySpiffe_eq_ok hkeyed]
  refine exists_congr fun td => exists_congr fun bundle => and_congr_right fun ht => ?_
  rw [vouched_withBundles, h.holds td, if_pos (isCanonicalTrustDomain_of_ok ht)]

theorem Kept.insert (h : w.Kept P J X) (td : String) {bundle : SpiffeBundle}
    (hb : bundle.WellKeyed) :
    Kept P J X { w with
      store := (w.store.insert td bundle).toOption.getD w.store
      inserted := w.inserted ++ [(td, bundle)] } := by
  refine ⟨h.holds.insert, ?_, fun a ha => ?_⟩
  · intro e he
    rcases List.mem_append.mp he with he | he
    · exact h.keyed e he
    · obtain rfl := List.mem_singleton.mp he
      exact hb
  · obtain ⟨td', bundle', ht, hl, hv⟩ := h.accepted a ha
    refine ⟨td', bundle', ht, ?_, hv⟩
    rw [List.lookup_append, hl, Option.some_or]

theorem Kept.after (h : w.Kept P J X) (act : SpiffeAct) : (w.after P J X act).Kept P J X := by
  cases act with
  | insert td value =>
    cases hf : SpiffeBundle.fromJwkSet X.toBundleCodec value with
    | error e =>
      simp only [SpiffeWorld.after, hf]
      exact h
    | ok bundle =>
      simp only [SpiffeWorld.after, hf]
      exact h.insert td (SpiffeBundle.wellKeyed_of_fromJwkSet hf)
  | verify identity ctx =>
    cases hv : verifySpiffe P J X identity { ctx with bundles := w.store } with
    | error e =>
      simp only [SpiffeWorld.after, hv]
      exact h
    | ok u =>
      simp only [SpiffeWorld.after, hv]
      refine ⟨h.holds, h.keyed, fun a ha => ?_⟩
      rcases List.mem_cons.mp ha with rfl | ha
      · exact (h.decides identity ctx).mp hv
      · exact h.accepted a ha

theorem kept_of_reachable (h : (spiffeVerification P J X).Reachable w) : w.Kept P J X := by
  refine h.invariant (I := Kept P J X) ?_ ?_
  · rintro w ⟨ha, ⟨hs, hi⟩ | ⟨value, hs, hi⟩⟩
    · refine ⟨?_, ?_, ?_⟩
      · rw [hs, hi]
        exact SpiffeBundleStore.holds_new
      · rw [hi]
        exact List.forall_mem_nil _
      · rw [ha]
        exact List.forall_mem_nil _
    · refine ⟨SpiffeBundleStore.holds_of_fromConfig hs hi, wellKeyed_of_configEntries hi, ?_⟩
      rw [ha]
      exact List.forall_mem_nil _
  · rintro w act _ hw rfl
    exact hw.after act

end SpiffeWorld

/-- A verifier goes on after an insertion. -/
theorem SpiffeWorld.reachable_insert {td : String} {value : Json} {bundle : SpiffeBundle}
    (h : (spiffeVerification P J X).Reachable w)
    (hb : SpiffeBundle.fromJwkSet X.toBundleCodec value = .ok bundle) :
    (spiffeVerification P J X).Reachable { w with
      store := (w.store.insert td bundle).toOption.getD w.store
      inserted := w.inserted ++ [(td, bundle)] } := by
  refine .step (e := .insert td value) h ?_
  simp only [spiffeVerification, SpiffeWorld.after, hb]

theorem SpiffeWorld.reachable_verify {identity : IdentityDescriptor} {ctx : SpiffeVerifyContext}
    (h : (spiffeVerification P J X).Reachable w)
    (hv : verifySpiffe P J X identity { ctx with bundles := w.store } = .ok ()) :
    (spiffeVerification P J X).Reachable
      { w with accepted := ⟨identity, ctx⟩ :: w.accepted } := by
  refine .step (e := .verify identity ctx) h ?_
  simp only [spiffeVerification, SpiffeWorld.after, hv]

/-! ## What is accepted -/

theorem Vouched.jwt {bundle : SpiffeBundle} {identity : IdentityDescriptor}
    {ctx : SpiffeVerifyContext} (h : Vouched P J X bundle identity ctx)
    (ht : identity.svidType = some .jwtSvid) : JwtVouched P J X bundle identity ctx := by
  obtain ⟨-, -, -, hv⟩ := h
  rw [ht] at hv
  exact hv.2

theorem Vouched.x509 {bundle : SpiffeBundle} {identity : IdentityDescriptor}
    {ctx : SpiffeVerifyContext} (h : Vouched P J X bundle identity ctx)
    (ht : identity.svidType = some .x509Svid) : X509Vouched P X bundle identity ctx := by
  obtain ⟨-, -, -, hv⟩ := h
  rwa [ht] at hv

theorem sameHolder {bundle bundle' : SpiffeBundle} {a b : SpiffePresentation}
    (ha : JwtVouched P J X bundle a.identity a.ctx)
    (hb : JwtVouched P J X bundle' b.identity b.ctx)
    (h : a.identity.proof = b.identity.proof) : SameHolder P a b := by
  obtain ⟨svid, hr, -, hs⟩ := ha
  obtain ⟨svid', hr', -, hs'⟩ := hb
  rw [h] at hr
  obtain rfl := Option.some.inj (hr.symm.trans hr')
  obtain ⟨key, hk, hj⟩ := hs.holder
  obtain ⟨key', hk', hj'⟩ := hs'.holder
  refine ⟨hs.sub.symm.trans hs'.sub, ?_, hs.nonce.symm.trans hs'.nonce,
    ⟨key, key', hk, hk', hj.symm.trans hj'⟩, ?_⟩
  · apply Aid.ext
    exact Option.some.inj (hs.aud.symm.trans hs'.aud)
  · have h₁ := (Timestamp.le_of_isWithinToleranceOf hs.iat).2
    have h₂ := (Timestamp.le_of_isWithinToleranceOf hs'.iat).1
    linarith

theorem ProofContext.eq_of_spiffeX509 {sender receiver : Aid} {messageId : Uuid}
    {timestamp : Timestamp} {nonce input : Bytes} {c : ProofContext}
    (h : (spiffeX509 sender receiver messageId timestamp nonce).SignedAs input)
    (hc : c.SignedAs input) : c = spiffeX509 sender receiver messageId timestamp nonce := by
  have hj := hc.eq_join.symm.trans h.eq_join
  have hz := (spiffeX509 sender receiver messageId timestamp nonce).zero_notMem_fields
  by_cases hl : c.fields.length = 5
  · obtain ⟨hf, hn⟩ := Separated.join_inj hl c.zero_notMem_fields hz hj
    exact eq_of_fields hf hn
  · cases c with
    | pinnedKey => exact absurd rfl hl
    | spiffeX509 => exact absurd rfl hl
    | renewal iss jti bytes =>
      -- The inputs of the other kinds have other tags, which end at the first zero byte.
      have ht := (Separated.field_inj ((renewal iss jti bytes).zero_notMem_fields _
        List.mem_cons_self) (hz _ List.mem_cons_self) hj).1
      exact absurd ht (by decide)

theorem leafProved {bundle : SpiffeBundle} {a : SpiffePresentation}
    (h : X509Vouched P X bundle a.identity a.ctx) : LeafProved P X a := by
  obtain ⟨leaf, intermediates, key, hc, -, hl, hk, nonce, input, hn, hi, -, hv⟩ := h
  refine ⟨leaf, intermediates, key, nonce, input, hc, hl, hk, hn, hv, fun c => ?_⟩
  constructor
  · exact ProofContext.eq_of_spiffeX509 hi
  · rintro rfl
    exact hi

/-- Whatever was configured and presented before, the first bundle of its own trust domain decides
on an identity, and what it vouches for is bound to one agent. -/
theorem spiffe_law (h : (spiffeVerification P J X).Reachable w) : SpiffeLaw P J X w := by
  have hk := SpiffeWorld.kept_of_reachable h
  refine ⟨hk.holds, hk.decides, ?_, ?_, ?_⟩
  · intro a ha
    exact (hk.decides a.identity a.ctx).mpr (hk.accepted a ha)
  · intro a ha b hb hta htb hp
    obtain ⟨_, _, -, -, hva⟩ := hk.accepted a ha
    obtain ⟨_, _, -, -, hvb⟩ := hk.accepted b hb
    exact sameHolder (hva.jwt hta) (hvb.jwt htb) hp
  · intro a ha hta
    obtain ⟨_, _, -, -, hva⟩ := hk.accepted a ha
    exact leafProved (hva.x509 hta)

/-! ## A peer with a SPIFFE identity -/

namespace Toy

def workload : String := "spiffe://a.example/agent"

/-- The certificate of the CA of a trust domain, as `x5c` holds it. -/
def caEntry : String := "AgAC"

def caDer : Bytes := [2, 0, 2]

/-- The certificate of agent 0 under it. -/
def leafEntry : String := "AQAB"

def leafDer : Bytes := [1, 0, 1]

def leafCertificate : X509Certificate where
  subjectAlternativeName := .ok (some [.other, .uri workload])
  basicConstraintsCa := .ok (some false)
  keyUsage := .ok (some ⟨true, false, false⟩)
  algorithm := oidSigEd25519
  parameters := none
  subjectPublicKey := (agentKey 0).bytes

/-- Code that knows two certificates, of a CA and of a server under it. -/
def x509 : X509 where
  decodeX5cEntry s :=
    if s = caEntry then .ok caDer else if s = leafEntry then .ok leafDer else .error "base64"
  parseCertificate der := ensure (der == caDer || der == leafDer) "certificate"
  debug := id
  certificate _ := leafCertificate
  anchorFromTrustedCert der := ensure (der == caDer) "anchor"
  endEntityCert der := ensure (der == leafDer) "leaf"
  verifyForUsage leaf anchors _ _
    | .clientAuth => .error "usage"
    | .serverAuth => ensure (leaf == leafDer && anchors.contains caDer) "path"

def rsaBytes : Bytes := (decodeStrict "AQAB").getD []

def caJwk : Json :=
  .obj [("use", .str "x509-svid"), ("kty", .str "RSA"), ("x5c", .arr [.str caEntry])]

/-- The bundle of an RSA key and a CA. -/
def domainBundle : SpiffeBundle := ⟨[⟨some "a", none, .rsa rsaBytes rsaBytes⟩], [caDer]⟩

theorem fromJwkSet_domain : SpiffeBundle.fromJwkSet x509.toBundleCodec
    (.obj [("keys", .arr [rsaJwk, caJwk])]) = .ok domainBundle :=
  rfl

theorem fromJwkSet_rsaJwk : SpiffeBundle.fromJwkSet x509.toBundleCodec
    (.obj [("keys", .arr [rsaJwk])]) = .ok ⟨domainBundle.jwtAuthorities, []⟩ :=
  rfl

theorem trustDomain_workload : spiffeIdTrustDomain workload = .ok "a.example" := by
  decide +kernel

/-- What the trust domain says of agent 0 to agent 1. -/
def workloadClaims : JwtSvidClaims where
  sub := workload
  aud := .single (agent 1).value
  exp := 1000
  iat := 10
  nonce := encodeBase64Url (nonce 1).bytes
  jkt := (agentKey 0).toJwkThumbprintSha256 primitives

def workloadIdentity : IdentityDescriptor where
  kind := .spiffe
  issuer := none
  subject := workload
  svidType := some .jwtSvid
  proof := mintJwtSvid "RS256" "a" workloadClaims []
  x5c := none
  publicKey := none
  extensions := none

/-- The verifier after the bundle of `a.example` was added. -/
def firstConfigured : SpiffeWorld where
  store := (SpiffeBundleStore.new.insert "a.example" domainBundle).toOption.getD .new
  inserted := [("a.example", domainBundle)]
  accepted := []

/-- The verifier after another bundle of `a.example`, without the CA, was added. -/
def configured : SpiffeWorld where
  store := (firstConfigured.store.insert "a.example" ⟨domainBundle.jwtAuthorities, []⟩).toOption.getD
    firstConfigured.store
  inserted := [("a.example", domainBundle), ("a.example", ⟨domainBundle.jwtAuthorities, []⟩)]
  accepted := []

theorem reachable_configured : (spiffeVerification primitives jose x509).Reachable configured := by
  have h₀ : (spiffeVerification primitives jose x509).Reachable ⟨.new, [], []⟩ :=
    .init ⟨rfl, .inl ⟨rfl, rfl⟩⟩
  have h₁ : (spiffeVerification primitives jose x509).Reachable firstConfigured :=
    SpiffeWorld.reachable_insert h₀ fromJwkSet_domain
  exact SpiffeWorld.reachable_insert h₁ fromJwkSet_rsaJwk

theorem says_workloadClaims {ctx : SpiffeVerifyContext} (hs : ctx.senderAid = agent 0)
    (hr : ctx.receiverAid = agent 1) (hn : ctx.popNonce = encodeBase64Url (nonce 1).bytes)
    (ht : ctx.now = 11) (htol : ctx.iatTolerance = defaultTimestampTolerance) :
    workloadClaims.Says primitives workload ctx := by
  refine ⟨rfl, ?_, ?_, ?_, hn.symm, agentKey 0, ?_, rfl⟩
  · rw [hr]
    rfl
  · rw [ht]
    exact show (11 : ℤ) < 1000 by omega
  · rw [ht, htol]
    exact show Timestamp.isWithinToleranceOf 10 11 defaultTimestampTolerance = true by decide
  · rw [hs]
    exact (signer_lawful (agent 0)).1

theorem verifyJwsSignature_rsa (input sig : Bytes) :
    verifyJwsSignature jose ⟨some "a", none, .rsa rsaBytes rsaBytes⟩ "RS256" input sig =
      .ok () := by
  have hf : JwsAlgorithm.fromStr "RS256" = some .rs256 := by decide
  simp [verifyJwsSignature, hf, JwsAlgorithm.fits, ensure, jose]

theorem vouched_workload {ctx : SpiffeVerifyContext} (hs : ctx.senderAid = agent 0)
    (hr : ctx.receiverAid = agent 1) (hn : ctx.popNonce = encodeBase64Url (nonce 1).bytes)
    (ht : ctx.now = 11) (htol : ctx.iatTolerance = defaultTimestampTolerance) :
    Vouched primitives jose x509 domainBundle workloadIdentity ctx := by
  have hx : workloadClaims.exp.Fits := show Timestamp.Fits 1000 by decide
  have hi : workloadClaims.iat.Fits := show Timestamp.Fits 10 by decide
  have ha : "RS256" ∈ jwtSvidAlgs := by decide
  have hkey : ∃ key ∈ domainBundle.jwtAuthorities, key.kid = some "a" ∧
      verifyJwsSignature jose key "RS256" (asBytes (jwtSvidInput "RS256" "a" workloadClaims)) [] =
        .ok () :=
    ⟨_, List.mem_singleton_self _, rfl, verifyJwsSignature_rsa _ _⟩
  have hp : workloadIdentity.proof = mintJwtSvid "RS256" "a" workloadClaims [] := rfl
  exact ⟨rfl, rfl, rfl, rfl, (jwtVouched_minted readsText ha hx hi hp).mpr
    ⟨hkey, says_workloadClaims hs hr hn ht htol⟩⟩

theorem verifySpiffe_workload {ctx : SpiffeVerifyContext} (hs : ctx.senderAid = agent 0)
    (hr : ctx.receiverAid = agent 1) (hn : ctx.popNonce = encodeBase64Url (nonce 1).bytes)
    (ht : ctx.now = 11) (htol : ctx.iatTolerance = defaultTimestampTolerance) :
    verifySpiffe primitives jose x509 workloadIdentity { ctx with bundles := configured.store } =
      .ok () :=
  ((SpiffeWorld.kept_of_reachable reachable_configured).decides _ _).mpr
    ⟨_, _, trustDomain_workload, rfl, vouched_workload hs hr hn ht htol⟩

/-- What the identities of agent 0 are verified for. -/
def workloadContext : SpiffeVerifyContext where
  bundles := .new
  senderAid := agent 0
  receiverAid := agent 1
  messageId := uuid 2
  timestamp := 10
  popNonce := encodeBase64Url (nonce 1).bytes
  iatTolerance := defaultTimestampTolerance
  now := 11

/-- The proof of agent 0 under the key of its certificate. -/
def leafProofContext : ProofContext :=
  .spiffeX509 (agent 0) (agent 1) (uuid 2) 10 (nonce 1).bytes

def leafProofInput : Bytes := Separated.join 0 leafProofContext.fields (nonce 1).bytes

theorem signedAs_leafProofInput : leafProofContext.SignedAs leafProofInput := by
  obtain ⟨input, hi⟩ := pinnedKeyProofInput_nonce (agent 0) (agent 1) (uuid 2) 10 (nonce 1)
  have hs : spiffeX509ProofInput (agent 0) (agent 1) (uuid 2) 10 (encodeBase64Url (nonce 1).bytes) =
      .ok ((input.dropPrefix? pinnedKeyProofDomain).map (spiffeX509ProofDomain ++ ·)) := by
    simp only [spiffeX509ProofInput, hi]
    rfl
  obtain ⟨bytes, hn, ha⟩ := spiffeX509ProofInput_ok hs
  obtain rfl := Option.some.inj ((decodeStrict_encodeBase64Url _).symm.trans hn)
  exact ⟨_, hn, by rw [hs, ha]; rfl⟩

def leafIdentity : IdentityDescriptor where
  kind := .spiffe
  issuer := none
  subject := workload
  svidType := some .x509Svid
  proof := Signature.fromRaw .ed25519 (signature (.digest leafProofInput))
  x5c := some [leafEntry]
  publicKey := none
  extensions := none

theorem vouched_leaf : Vouched primitives jose x509 domainBundle leafIdentity workloadContext := by
  refine ⟨rfl, rfl, rfl, leafDer, [], agentKey 0, rfl, ?_, ?_, ?_, ?_⟩
  · exact ⟨⟨by simp [domainBundle], by simp [domainBundle, x509, ensure]⟩, ⟨rfl, rfl⟩,
      by decide, .serverAuth, rfl⟩
  · exact ⟨⟨_, rfl, rfl⟩, ⟨_, rfl, by decide⟩, _, rfl, rfl, rfl, rfl⟩
  · rfl
  · have hs : (signer (agent 0)).signJcs leafProofInput = .ok leafIdentity.proof := rfl
    obtain ⟨hp, hv⟩ := signJcs_verifies (signer_lawful (agent 0)) hs
    exact ⟨_, _, decodeStrict_encodeBase64Url _, signedAs_leafProofInput, hp, hv⟩

end Toy

open Toy in
/-- The verifier is given two bundles of one trust domain, and accepts both identities of agent 0:
the first of them, with its CA, stayed. -/
theorem spiffe_law_toy : ∃ w, w.inserted.length = 2 ∧
    w.accepted = [⟨leafIdentity, workloadContext⟩, ⟨workloadIdentity, workloadContext⟩] ∧
    SpiffeLaw primitives jose x509 w := by
  have hjwt : verifySpiffe primitives jose x509 workloadIdentity
      { workloadContext with bundles := configured.store } = .ok () :=
    verifySpiffe_workload rfl rfl rfl rfl rfl
  have hleaf : verifySpiffe primitives jose x509 leafIdentity
      { workloadContext with bundles := configured.store } = .ok () :=
    ((SpiffeWorld.kept_of_reachable reachable_configured).decides _ _).mpr
      ⟨_, _, trustDomain_workload, rfl, vouched_leaf⟩
  have hfirst := SpiffeWorld.reachable_verify reachable_configured hjwt
  exact ⟨_, rfl, rfl, spiffe_law (SpiffeWorld.reachable_verify hfirst hleaf)⟩

end Aitp
