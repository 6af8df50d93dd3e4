import Aitp.Delegation.Single
import Aitp.Delegation.Chain
import Mathlib.Data.List.Find

/-! # A verifier of chains without a budget

At a hop budget of zero the verifier of chains stands in for the stable verifier
of a single hop. The two make the same checks on the way to the claims and after
them; what they read out of the payload differs, and they agree on a token
exactly when they read it alike.
-/

namespace Aitp

/-- Reading gave up on the claims themselves, before any of them was checked. -/
def DelegationError.isReading : DelegationError → Bool
  | .claimsMalformed _ | .multihopNotSupported => true
  | _ => false

/-- The same issuer, subject, scope, voucher and grants, or the same variant of error. -/
def SameOutcome : Except DelegationError Delegation.VerifiedDelegation →
    Except ChainedDelegationError VerifiedChainedDelegation → Prop
  | .ok s, .ok c => s.claims.iss = c.claims.iss ∧ s.claims.sub = c.claims.sub ∧
      s.claims.scope = c.claims.scope ∧ s.voucher = c.voucher ∧
      s.effectiveGrants = c.effectiveGrants
  | .error e, .error (.delegation e') => e.ctorIdx = e'.ctorIdx
  | _, _ => False

/-- The same verifier, for chains but with no budget for them. -/
def Delegation.DelegationVerifyContext.chained (ctx : Delegation.DelegationVerifyContext)
    (hopCheck : Option RevocationCheckFn) : ChainVerifyContext where
  verifier := ctx.verifier
  now := ctx.now
  maxDelegationHops := 0
  revocation := ctx.revocation
  hopRevocationCheck := hopCheck
  issuerManifests := ctx.issuerManifests
  insecureLocalhost := ctx.insecureLocalhost

/-- The claims of a single hop among those of a chain. -/
def Delegation.DelegationClaims.lift (c : Delegation.DelegationClaims) :
    ChainedDelegationClaims where
  ver := c.ver
  iss := c.iss
  sub := c.sub
  aud := c.aud
  scope := c.scope
  exp := c.exp
  jkt := c.jkt
  voucher := c.voucher
  jti := none
  chain := none
  chainHash := none
  ext := c.ext

def Delegation.VerifiedDelegation.lift (v : Delegation.VerifiedDelegation) :
    VerifiedChainedDelegation :=
  ⟨v.token, v.claims.lift, v.voucher, v.effectiveGrants⟩

/-- The first value of the payload and whether it is all of it, after the checks that both verifiers
make before they read the claims. -/
def openPayload (P : Primitives) (token : String) : Except DelegationError (Json × Bool) := do
  ifPresent (peekTyp P token) fun typ =>
    ensure (typ == typDelegation) (.crypto (.typMismatch typDelegation typ))
  let payload ← mapErr .crypto (decodePayloadUnverified token)
  mapErr .claimsMalformed (rejectDuplicateKeys P payload)
  let (v, whole) ← okOr (P.first payload) (.claimsMalformed "syntax")
  if whole then ensureMembers v delegationClaimsMembers .unknownField
  return (v, whole)

/-- A `jti` that is a string is a version 4 UUID. -/
def jtiWellFormed (v : Json) : Bool :=
  ((v.get "jti").bind Json.asStr).all fun jti => (Uuid.parseV4 jti).isOk

/-- Whether a verifier of single hops and one of chains without a budget make the same of a payload
that is one value. Beside a `chain` member, the claims must read as those of a chain. Beside `jti`
or `chain_hash` alone, they must read with a `jti`, or fail elsewhere than at an unknown member.
Without these members, either both read the claims, or neither does, or what is read has a `jti` and
no chain. -/
def AgreedValue (v : Json) : Prop :=
  if (v.get "chain").isSome then
    jtiWellFormed v = true ∧ ∃ c, decodeChainedDelegationClaims v = some c ∧ c.chain ≠ none
  else if (v.get "jti").isSome ∨ (v.get "chain_hash").isSome then
    jtiWellFormed v = true ∧
      match decodeChainedDelegationClaims v with
      | some c => c.jti ≠ none
      | none => unknownClaim chainedDelegationClaimsFields v = none
  else
    match Delegation.decodeDelegationClaims v, decodeChainedDelegationClaims v with
    | some _, some _ => True
    | none, none => True
    | none, some c => c.chain = none ∧ c.jti ≠ none
    | some _, none => False

/-- Whether they make the same of a payload. Where text follows the first value, both or neither
must stop at a member they do not know. -/
def AgreedReading : Json × Bool → Prop
  | (v, true) => AgreedValue v
  | (v, false) => (unknownClaim Delegation.delegationClaimsFields v).isSome =
      (unknownClaim chainedDelegationClaimsFields v).isSome

variable {P : Primitives} {token : String} {v : Json}

/-! ## What the two verifiers read -/

/-- What the stable verifier reads in a payload. -/
def singleReading (v : Json) (whole : Bool) : Except DelegationError Delegation.DelegationClaims := do
  if whole then Delegation.checkSingleHopMembers v
  readFirst "" Delegation.delegationClaimsFields Delegation.decodeDelegationClaims v whole

/-- What the verifier of chains reads in a payload. -/
def chainedReading (v : Json) (whole : Bool) :
    Except ChainedDelegationError ChainedDelegationClaims := do
  if whole then
    ifPresent ((v.get "jti").bind Json.asStr) fun jti =>
      mapErr .jtiNotV4 ((Uuid.parseV4 jti).map fun _ => ())
  mapErr .delegation
    (readFirst "" chainedDelegationClaimsFields decodeChainedDelegationClaims v whole)

theorem single_peekClaims_eq (P : Primitives) (token : String) :
    Delegation.peekClaims P token = openPayload P token >>= fun r => singleReading r.1 r.2 := by
  simp only [Delegation.peekClaims, openPayload, bind_assoc]
  refine congrArg (_ >>= ·) (funext fun _ => congrArg (_ >>= ·) (funext fun payload => ?_))
  cases hv : P.first payload with
  | none => simp [rejectDuplicateKeys, hv]
  | some r =>
    obtain ⟨v, _ | _⟩ := r
    · simp [Primitives.document, hv, singleReading, readClaims]
    · simp [Primitives.document, hv, singleReading, readClaims]

theorem peekClaims_eq (P : Primitives) (token : String) : peekClaims P token =
    mapErr .delegation (openPayload P token) >>= fun r => chainedReading r.1 r.2 := by
  simp only [peekClaims, openPayload, bind_assoc, mapErr_bind, mapErr_mapErr, mapErr_ifPresent,
    mapErr_ensure]
  refine congrArg (_ >>= ·) (funext fun _ => congrArg (_ >>= ·) (funext fun payload => ?_))
  cases hv : P.first payload with
  | none => simp [rejectDuplicateKeys, hv]
  | some r =>
    obtain ⟨v, _ | _⟩ := r
    · simp [Primitives.document, hv, chainedReading, readClaims, -bind_pure_comp]
    · simp [Primitives.document, hv, chainedReading, readClaims, -bind_pure_comp]

theorem single_peekClaims_ok {c : Delegation.DelegationClaims}
    (h : Delegation.peekClaims P token = .ok c) : ∃ payload,
    decodePayloadUnverified token = .ok payload ∧
      readClaims P "" Delegation.delegationClaimsFields Delegation.decodeDelegationClaims payload =
        .ok c := by
  simp only [Delegation.peekClaims, bind_eq_ok, mapErr_eq_ok] at h
  obtain ⟨_, -, payload, hp, _, -, _, -, hc⟩ := h
  exact ⟨payload, hp, hc⟩

theorem peekClaims_ok {c : ChainedDelegationClaims} (h : peekClaims P token = .ok c) :
    ∃ payload, decodePayloadUnverified token = .ok payload ∧
      readClaims P "" chainedDelegationClaimsFields decodeChainedDelegationClaims payload =
        .ok c := by
  simp only [peekClaims, bind_eq_ok, mapErr_eq_ok] at h
  obtain ⟨_, -, payload, hp, _, -, _, -, hc⟩ := h
  exact ⟨payload, hp, hc⟩

/-! ## The checks on the claims -/

/-- A token whose claims were read once reads as the same claims when its signature verifies. -/
theorem single_verifyHopJws_of_peek {ctx : Delegation.DelegationVerifyContext}
    {c : Delegation.DelegationClaims} (h : Delegation.peekClaims P token = .ok c) :
    Delegation.verifyHopJws P ctx token = (do
      let manifest ← mapErr (.keyResolutionFailed c.iss) (do
        let resolver ← okOr ctx.issuerManifests .notFound
        resolveVerifiedManifest P resolver c.iss ⟨ctx.now, ctx.insecureLocalhost⟩)
      let _ ← mapErr
        (fun
          | .signatureInvalid => .invalidSignature
          | other => .crypto other)
        (verifyCompact P manifest.aid typDelegation token)
      ensure (c.ver == protocolVersion) .versionUnknown
      return c) := by
  obtain ⟨payload, hp, hc⟩ := single_peekClaims_ok h
  simp only [Delegation.verifyHopJws, h, ok_bind]
  refine congrArg (_ >>= ·) (funext fun manifest => ?_)
  cases hv : verifyCompact P manifest.aid typDelegation token with
  | error e => rfl
  | ok payload' =>
    obtain rfl : payload' = payload := Except.ok.inj ((verifyCompact_ok hv).symm.trans hp)
    simp [hc]

/-- A token whose claims were read once reads as the same claims when its signature verifies. -/
theorem verifyHopJws_of_peek {ctx : ChainVerifyContext} {c : ChainedDelegationClaims}
    (h : peekClaims P token = .ok c) :
    verifyHopJws P ctx token = (do
      let manifest ← mapErr (fun e => .delegation (.keyResolutionFailed c.iss e)) (do
        let resolver ← okOr ctx.issuerManifests .notFound
        resolveVerifiedManifest P resolver c.iss ⟨ctx.now, ctx.insecureLocalhost⟩)
      let _ ← mapErr
        (fun
          | .signatureInvalid => .delegation .invalidSignature
          | other => .delegation (.crypto other))
        (verifyCompact P manifest.aid typDelegation token)
      ensure (c.ver == protocolVersion) (.delegation .versionUnknown)
      return c) := by
  obtain ⟨payload, hp, hc⟩ := peekClaims_ok h
  simp only [verifyHopJws, h, ok_bind]
  refine congrArg (_ >>= ·) (funext fun manifest => ?_)
  cases hv : verifyCompact P manifest.aid typDelegation token with
  | error e => rfl
  | ok payload' =>
    obtain rfl : payload' = payload := Except.ok.inj ((verifyCompact_ok hv).symm.trans hp)
    simp [hc]

section

variable {ctx : Delegation.DelegationVerifyContext} {hopCheck : Option RevocationCheckFn}

theorem verifyRootVoucher_chained (voucherToken : String) (delegator : Aid) :
    verifyRootVoucher P (ctx.chained hopCheck) voucherToken delegator =
      mapErr .delegation (Delegation.verifyRootVoucher P ctx voucherToken delegator) := by
  simp only [verifyRootVoucher, Delegation.verifyRootVoucher, mapErr_bind, mapErr_mapErr,
    mapErr_ensure, mapErr_pure]
  refine congrArg (· >>= _) (congrArg (mapErr · _) (funext fun e => ?_))
  cases e <;> rfl

theorem checkHopClaims_lift (c : Delegation.DelegationClaims) :
    checkHopClaims P (ctx.chained hopCheck) c.lift =
      mapErr .delegation (Delegation.checkHopClaims P ctx c) := by
  simp only [checkHopClaims, Delegation.checkHopClaims, mapErr_bind, mapErr_mapErr, mapErr_ensure]
  rfl

theorem verifyHopJws_lift {c : Delegation.DelegationClaims}
    (hs : Delegation.peekClaims P token = .ok c) (hc : peekClaims P token = .ok c.lift) :
    verifyHopJws P (ctx.chained hopCheck) token =
      (mapErr .delegation (Delegation.verifyHopJws P ctx token)).map
        Delegation.DelegationClaims.lift := by
  rw [verifyHopJws_of_peek hc, single_verifyHopJws_of_peek hs, map_eq_bind]
  simp only [mapErr_bind, mapErr_mapErr, mapErr_ensure, mapErr_pure, bind_assoc]
  refine congrArg (_ >>= ·) (funext fun resolver => congrArg (_ >>= ·) (funext fun manifest => ?_))
  refine congrArg₂ (· >>= ·) (congrArg (mapErr · _) (funext fun e => ?_)) rfl
  cases e <;> rfl

/-- A single hop that both verifiers read meets the same checks. -/
theorem verifySingleHop_lift {c : Delegation.DelegationClaims}
    (hs : Delegation.peekClaims P token = .ok c) (hc : peekClaims P token = .ok c.lift) :
    verifySingleHop P (ctx.chained hopCheck) token =
      (mapErr .delegation (Delegation.verifySingleHop P ctx token)).map
        Delegation.VerifiedDelegation.lift := by
  simp only [verifySingleHop, Delegation.verifySingleHop, verifyHopJws_lift hs hc, map_eq_bind,
    mapErr_bind, mapErr_ensure, mapErr_okOr, mapErr_forEach, mapErr_pure, bind_assoc, ok_bind,
    verifyRootVoucher_chained, checkHopClaims_lift]
  rfl

end

/-- Past the reading of the claims, no check of the stable verifier reports a defect of the
reading. -/
theorem single_verifySingleHop_failsIn {ctx : Delegation.DelegationVerifyContext}
    {c : Delegation.DelegationClaims} (h : Delegation.peekClaims P token = .ok c) :
    FailsIn (fun e => e.isReading = false) (Delegation.verifySingleHop P ctx token) := by
  refine .bind ?_ fun c _ => .bind (.ensure rfl) fun _ _ => .bind (.ensure rfl) fun _ _ => ?_
  · rw [single_verifyHopJws_of_peek h]
    refine .bind (.mapErr fun _ => rfl) fun _ _ => .bind (.mapErr fun e => ?_) fun _ _ => ?_
    · cases e <;> rfl
    · exact .bind (.ensure rfl) fun _ _ => .pure _
  refine .bind (.okOr rfl) fun t _ => .bind ?_ fun v _ => .bind (.ensure rfl) fun _ _ => ?_
  · refine .bind (.mapErr fun e => ?_) fun _ _ => ?_
    · cases e <;> rfl
    · exact .bind (.ensure rfl) fun _ _ => .bind (.ensure rfl) fun _ _ => .pure _
  refine .bind (.forEach fun _ _ => .ensure rfl) fun _ _ => .bind ?_ fun _ _ => ?_
  · refine .bind (.ensure rfl) fun _ _ => .bind (.ensure rfl) fun _ _ => ?_
    exact .bind (.ensure rfl) fun _ _ => .bind (.mapErr fun _ => rfl) fun _ _ => .ensure rfl
  · refine .bind (.mapErr fun e => ?_) fun _ _ => .pure _
    cases e <;> rfl

theorem verifySingleHop_failsIn {ctx : ChainVerifyContext} {c : ChainedDelegationClaims}
    (h : peekClaims P token = .ok c) :
    FailsIn (fun e => ∃ e', e = .delegation e' ∧ e'.isReading = false)
      (verifySingleHop P ctx token) := by
  have hf : ∀ e : DelegationError, e.isReading = false →
      ∃ e', ChainedDelegationError.delegation e = .delegation e' ∧ e'.isReading = false :=
    fun e he => ⟨e, rfl, he⟩
  refine .bind ?_ fun c _ => .bind (.ensure (hf _ rfl)) fun _ _ =>
    .bind (.ensure (hf _ rfl)) fun _ _ => ?_
  · rw [verifyHopJws_of_peek h]
    refine .bind (.mapErr fun _ => hf _ rfl) fun _ _ => .bind (.mapErr fun e => ?_) fun _ _ => ?_
    · cases e <;> exact hf _ rfl
    · exact .bind (.ensure (hf _ rfl)) fun _ _ => .pure _
  refine .bind (.okOr (hf _ rfl)) fun t _ => .bind ?_ fun v _ =>
    .bind (.ensure (hf _ rfl)) fun _ _ => ?_
  · refine .bind (.mapErr fun e => ?_) fun _ _ => ?_
    · cases e <;> exact hf _ rfl
    · exact .bind (.ensure (hf _ rfl)) fun _ _ => .bind (.ensure (hf _ rfl)) fun _ _ => .pure _
  refine .bind (.forEach fun _ _ => .ensure (hf _ rfl)) fun _ _ => .bind ?_ fun _ _ => ?_
  · refine .bind (.ensure (hf _ rfl)) fun _ _ => .bind (.ensure (hf _ rfl)) fun _ _ => ?_
    exact .bind (.ensure (hf _ rfl)) fun _ _ => .bind (.mapErr fun _ => hf _ rfl) fun _ _ =>
      .ensure (hf _ rfl)
  · rw [checkSourceRevocation, delegationRevocation, mapErr_mapErr]
    refine .bind (.mapErr fun e => ?_) fun _ _ => .pure _
    cases e <;> exact hf _ rfl

/-! ## Claims that read, and those that do not -/

theorem unknownCnfMember_of_decodeCnf {jkt : String} (h : decodeCnf v = some jkt) :
    unknownCnfMember v = none := by
  cases v with
  | obj ms =>
    unfold decodeCnf at h
    split at h
    · rename_i w hs
      obtain ⟨hd, hc, hw⟩ := Serde.structFields_obj hs
      simp only [List.map_cons, List.map_nil, List.cons.injEq, and_true] at hw
      have hall : ∀ m ∈ ms, m.1 = "jkt" ∧ m.2.isString = true := by
        intro m hm
        obtain ⟨f, hf, hn⟩ := hc m hm
        obtain rfl := List.mem_singleton.mp hf
        have hl := (Json.lookup_eq_some_iff hd).mpr hm
        rw [← hn, ← hw, Option.some.injEq] at hl
        exact ⟨hn.symm, Json.isString_iff.mpr ⟨jkt, hl ▸ Json.asStr_eq_some.mp h⟩⟩
      have hnone : ms.find? (fun m => m.1 != "jkt" || !m.2.isString) = none := by
        rw [List.find?_eq_none]
        intro m hm
        simp [hall m hm]
      simp only [unknownCnfMember, Json.members, hnone, Option.bind_none]
    · cases h
  | _ => rfl

/-- Where every member is a claim, and `cnf` holds no unknown member, the deserialisation stops at
none. -/
theorem unknownAmong_eq_none {known : List String} {ms : List (String × Json)}
    (h : ∀ m ∈ ms, m.1 ∈ known ∧ (m.1 = "cnf" → unknownCnfMember m.2 = none)) :
    unknownAmong known ms = none := by
  rw [unknownAmong, Option.bind_eq_none_iff]
  intro m hm
  obtain ⟨hk, hc⟩ := h m (List.mem_of_find?_eq_some hm)
  rw [if_pos (by simpa using hk)]
  split_ifs with hn
  · exact hc hn
  · rfl

theorem unknownAmong_congr {known known' : List String} {ms : List (String × Json)}
    (h : ∀ m ∈ ms, known.contains m.1 = known'.contains m.1) :
    unknownAmong known ms = unknownAmong known' ms := by
  unfold unknownAmong
  induction ms with
  | nil => rfl
  | cons m ms ih =>
    have hm := h m List.mem_cons_self
    simp only [List.find?_cons, hm]
    cases known'.contains m.1 && claimReadable m.1 m.2 with
    | true => exact ih fun n hn => h n (List.mem_cons_of_mem m hn)
    | false => simp only [Bool.not_false, Option.bind_some, hm]

theorem unknownClaim_of_cnf {fs : List FieldSpec} {ws : List (Option Json)} {cnf : Json}
    (hn : (fs.map FieldSpec.name).Nodup) (hs : Serde.structFields fs v = some ws)
    (hf : (fs.map FieldSpec.name)[6]? = some "cnf") (hw : ws[6]? = some (some cnf))
    (hc : unknownCnfMember cnf = none) : unknownClaim fs v = none := by
  cases v with
  | obj ms =>
    obtain ⟨hd, hclosed, he⟩ := Serde.structFields_obj hs
    obtain ⟨f, hf, hname⟩ := Option.map_eq_some_iff.mp (List.getElem?_map .. ▸ hf)
    rw [he, List.getElem?_map, hf, Option.map_some, hname, Option.some.injEq] at hw
    refine unknownAmong_eq_none fun m hm => ⟨?_, fun hk => ?_⟩
    · obtain ⟨f, hf, hname⟩ := hclosed m hm
      exact hname ▸ List.mem_map_of_mem hf
    · obtain rfl : m.2 = cnf := by
        have hl := (Json.lookup_eq_some_iff hd).mpr hm
        rw [hk, hw] at hl
        exact (Option.some.inj hl).symm
      exact hc
  | arr vs =>
    rw [Serde.fromItems_eq_some hs] at hw
    have hlt : 6 < vs.length := by
      by_contra hge
      rw [List.getElem?_append_right (by simpa using hge)] at hw
      simp [List.getElem?_replicate] at hw
    rw [List.getElem?_append_left (by simpa using hlt), List.getElem?_map] at hw
    have hv : vs[6]? = some cnf := by simpa [Option.map_eq_some_iff] using hw
    refine unknownAmong_eq_none fun m hm => ⟨(List.of_mem_zip hm).1, fun hk => ?_⟩
    obtain ⟨i, hi⟩ := List.mem_iff_getElem?.mp hm
    obtain ⟨hi, hi'⟩ := List.getElem?_zip_eq_some.mp hi
    -- no two fields share a name
    obtain rfl : i = 6 := by
      have hlen := (List.getElem?_eq_some_iff.mp hi).1
      exact (List.getElem?_inj hlen hn).mp (hi.trans (hk ▸ hf.symm))
    rw [hv, Option.some.injEq] at hi'
    exact hi' ▸ hc
  | _ => rfl

theorem find_zip_append {β : Type} {p : String × Json → Bool} {f : String × Json → Option β}
    {tail : List String} (ht : ∀ m, m.1 ∈ tail → f m = none) (head : List String) (vs : List Json) :
    (((head ++ tail).zip vs).find? p).bind f = ((head.zip vs).find? p).bind f := by
  induction head generalizing vs with
  | nil =>
    rw [List.nil_append, List.zip_nil_left, List.find?_nil, Option.bind_none,
      Option.bind_eq_none_iff]
    intro m hm
    exact ht m (List.of_mem_zip (List.mem_of_find?_eq_some hm)).1
  | cons k head ih =>
    cases vs with
    | nil => rfl
    | cons v vs =>
      simp only [List.cons_append, List.zip_cons_cons, List.find?_cons]
      cases p (k, v) with
      | true => rfl
      | false => exact ih vs

theorem unknownAmong_zip {head tail : List String} (ht : "cnf" ∉ tail) (vs : List Json) :
    unknownAmong (head ++ tail) ((head ++ tail).zip vs) =
      ((head.zip vs).find? fun m => !claimReadable m.1 m.2).bind fun m =>
        if m.1 = "cnf" then unknownCnfMember m.2 else none := by
  have hk : ∀ m ∈ (head ++ tail).zip vs, (head ++ tail).contains m.1 = true := fun m hm => by
    simpa using (List.of_mem_zip hm).1
  have hf : ((head ++ tail).zip vs).find?
      (fun m => !((head ++ tail).contains m.1 && claimReadable m.1 m.2)) =
      ((head ++ tail).zip vs).find? fun m => !claimReadable m.1 m.2 :=
    List.find?_congr fun m hm => by rw [hk m hm, Bool.true_and]
  have ht' : ∀ m : String × Json, m.1 ∈ tail →
      (if m.1 = "cnf" then unknownCnfMember m.2 else none) = none :=
    fun m hm => if_neg fun h : m.1 = "cnf" => ht (h ▸ hm)
  rw [← find_zip_append ht', unknownAmong, hf]
  refine Option.bind_congr fun m hm => ?_
  rw [if_pos (hk m (List.mem_of_find?_eq_some hm))]

theorem unknownClaim_absent (hch : v.get "chain" = none) (hj : v.get "jti" = none)
    (hh : v.get "chain_hash" = none) : unknownClaim Delegation.delegationClaimsFields v =
      unknownClaim chainedDelegationClaimsFields v := by
  cases v with
  | obj ms =>
    refine unknownAmong_congr fun m hm => ?_
    have hne : ∀ k, ms.lookup k = none → m.1 ≠ k := fun k hk he => by
      simpa [he] using List.lookup_eq_none_iff.mp hk m hm
    have h₁ := hne _ hch
    have h₂ := hne _ hj
    have h₃ := hne _ hh
    rw [Bool.eq_iff_iff, List.contains_iff_mem, List.contains_iff_mem]
    simp only [Delegation.delegationClaimsFields, chainedDelegationClaimsFields, List.map_cons,
      List.map_nil, List.mem_cons, List.not_mem_nil, or_false]
    tauto
  | arr vs =>
    have hs : Delegation.delegationClaimsFields.map FieldSpec.name =
        ["ver", "iss", "sub", "aud", "scope", "exp", "cnf"] ++ ["voucher", "ext"] := rfl
    have hc : chainedDelegationClaimsFields.map FieldSpec.name =
        ["ver", "iss", "sub", "aud", "scope", "exp", "cnf"] ++
          ["voucher", "jti", "chain", "chain_hash", "ext"] := rfl
    rw [unknownClaim, unknownClaim, hs, hc, unknownAmong_zip (by decide),
      unknownAmong_zip (by decide)]
  | _ => rfl

theorem readFrom_of_decode {c : ChainedDelegationClaims}
    (h : decodeChainedDelegationClaims v = some c) :
    ∃ ver iss sub aud scope exp cnf voucher jti chain chainHash ext,
      Serde.structFields chainedDelegationClaimsFields v =
        some [ver, iss, sub, aud, scope, exp, some cnf, voucher, jti, chain, chainHash, ext] ∧
      decodeCnf cnf = some c.jkt ∧ Serde.optional decodeUuid jti = some c.jti ∧
      Serde.optional decodeStrings chain = some c.chain := by
  unfold decodeChainedDelegationClaims at h
  split at h
  · rename_i hs
    obtain ⟨_, -, h⟩ := Option.bind_eq_some_iff.mp h
    obtain ⟨_, -, h⟩ := Option.bind_eq_some_iff.mp h
    obtain ⟨_, -, h⟩ := Option.bind_eq_some_iff.mp h
    obtain ⟨_, -, h⟩ := Option.bind_eq_some_iff.mp h
    obtain ⟨_, -, h⟩ := Option.bind_eq_some_iff.mp h
    obtain ⟨_, -, h⟩ := Option.bind_eq_some_iff.mp h
    obtain ⟨_, hcnf, h⟩ := Option.bind_eq_some_iff.mp h
    obtain ⟨_, -, h⟩ := Option.bind_eq_some_iff.mp h
    obtain ⟨_, hj, h⟩ := Option.bind_eq_some_iff.mp h
    obtain ⟨_, hc, h⟩ := Option.bind_eq_some_iff.mp h
    obtain ⟨_, -, h⟩ := Option.bind_eq_some_iff.mp h
    obtain ⟨_, -, h⟩ := Option.bind_eq_some_iff.mp h
    obtain rfl := Option.some.inj h
    exact ⟨_, _, _, _, _, _, _, _, _, _, _, _, hs, hcnf, hj, hc⟩
  · cases h

theorem unknownClaim_of_decode {c : ChainedDelegationClaims}
    (h : decodeChainedDelegationClaims v = some c) :
    unknownClaim chainedDelegationClaimsFields v = none := by
  obtain ⟨_, _, _, _, _, _, cnf, _, _, _, _, _, hs, hc, -⟩ := readFrom_of_decode h
  exact unknownClaim_of_cnf (by decide) hs rfl rfl (unknownCnfMember_of_decodeCnf hc)

theorem single_readFrom_of_decode {c : Delegation.DelegationClaims}
    (h : Delegation.decodeDelegationClaims v = some c) :
    ∃ ver iss sub aud scope exp cnf voucher ext,
      Serde.structFields Delegation.delegationClaimsFields v =
        some [ver, iss, sub, aud, scope, exp, some cnf, voucher, ext] ∧
      decodeCnf cnf = some c.jkt ∧ Serde.optional Serde.map ext = some c.ext := by
  unfold Delegation.decodeDelegationClaims at h
  split at h
  · rename_i hs
    obtain ⟨_, -, h⟩ := Option.bind_eq_some_iff.mp h
    obtain ⟨_, -, h⟩ := Option.bind_eq_some_iff.mp h
    obtain ⟨_, -, h⟩ := Option.bind_eq_some_iff.mp h
    obtain ⟨_, -, h⟩ := Option.bind_eq_some_iff.mp h
    obtain ⟨_, -, h⟩ := Option.bind_eq_some_iff.mp h
    obtain ⟨_, -, h⟩ := Option.bind_eq_some_iff.mp h
    obtain ⟨_, hcnf, h⟩ := Option.bind_eq_some_iff.mp h
    obtain ⟨_, -, h⟩ := Option.bind_eq_some_iff.mp h
    obtain ⟨_, he, h⟩ := Option.bind_eq_some_iff.mp h
    obtain rfl := Option.some.inj h
    exact ⟨_, _, _, _, _, _, _, _, _, hs, hcnf, he⟩
  · cases h

theorem single_unknownClaim_of_decode {c : Delegation.DelegationClaims}
    (h : Delegation.decodeDelegationClaims v = some c) :
    unknownClaim Delegation.delegationClaimsFields v = none := by
  obtain ⟨_, _, _, _, _, _, cnf, _, _, hs, hc, -⟩ := single_readFrom_of_decode h
  exact unknownClaim_of_cnf (by decide) hs rfl rfl (unknownCnfMember_of_decodeCnf hc)

/-- Fields that hold nothing of the multi-hop set read as those of a single hop. -/
theorem decode_of_fields {ver iss sub aud scope exp cnf voucher jti ext ext' : Option Json}
    (hs : Serde.structFields Delegation.delegationClaimsFields v =
      some [ver, iss, sub, aud, scope, exp, cnf, voucher, ext])
    (hc : Serde.structFields chainedDelegationClaimsFields v =
      some [ver, iss, sub, aud, scope, exp, cnf, voucher, jti, none, none, ext'])
    (hj : Serde.optional decodeUuid jti = some none)
    (he : Serde.optional Serde.map ext' = Serde.optional Serde.map ext) :
    decodeChainedDelegationClaims v =
      (Delegation.decodeDelegationClaims v).map Delegation.DelegationClaims.lift := by
  unfold decodeChainedDelegationClaims Delegation.decodeDelegationClaims
  rw [hs, hc]
  obtain _ | ver := ver
  · rfl
  obtain _ | iss := iss
  · rfl
  obtain _ | sub := sub
  · rfl
  obtain _ | aud := aud
  · rfl
  obtain _ | scope := scope
  · rfl
  obtain _ | exp := exp
  · rfl
  obtain _ | cnf := cnf
  · rfl
  have hn {α : Type} (dec : Json → Option α) : Serde.optional dec none = some none := rfl
  simp only [hj, he, hn, Option.bind_eq_bind, Option.map_bind, Option.bind_some,
    Function.comp_def, Option.pure_def, Option.map_some]
  rfl

theorem decode_obj_of_absent {ms : List (String × Json)} (hch : ms.lookup "chain" = none)
    (hj : ms.lookup "jti" = none) (hh : ms.lookup "chain_hash" = none) :
    decodeChainedDelegationClaims (.obj ms) =
      (Delegation.decodeDelegationClaims (.obj ms)).map Delegation.DelegationClaims.lift := by
  have hclosed : Serde.closed chainedDelegationClaimsFields ms =
      Serde.closed Delegation.delegationClaimsFields ms := by
    refine congrArg (decide (ms.map Prod.fst).Nodup && ·) ?_
    rw [Bool.eq_iff_iff, List.all_eq_true, List.all_eq_true]
    refine forall₂_congr fun m hm => ?_
    have hne : ∀ k, ms.lookup k = none → (k == m.1) = false := fun k hk =>
      by simpa using List.lookup_eq_none_iff.mp hk m hm
    simp [chainedDelegationClaimsFields, Delegation.delegationClaimsFields, hne _ hch, hne _ hj,
      hne _ hh]
  have hreq : (Serde.fromMembers ms chainedDelegationClaimsFields).isSome =
      (Serde.fromMembers ms Delegation.delegationClaimsFields).isSome := by
    rw [Bool.eq_iff_iff, Serde.fromMembers_isSome, Serde.fromMembers_isSome]
    simp [chainedDelegationClaimsFields, Delegation.delegationClaimsFields]
  cases hs : Serde.structFields Delegation.delegationClaimsFields (.obj ms) with
  | none =>
    have hc : Serde.structFields chainedDelegationClaimsFields (.obj ms) = none := by
      simp only [Serde.structFields, hclosed] at hs ⊢
      split_ifs at hs ⊢
      · simpa [hs] using hreq
      · rfl
    simp [decodeChainedDelegationClaims, Delegation.decodeDelegationClaims, hs, hc]
  | some ws =>
    obtain ⟨us, hc⟩ : ∃ us, Serde.structFields chainedDelegationClaimsFields (.obj ms) =
        some us := by
      simp only [Serde.structFields, hclosed] at hs ⊢
      split_ifs at hs ⊢
      rwa [hs, Option.isSome_some, Option.isSome_iff_exists] at hreq
    have hs' := hs.trans (congrArg some (Serde.structFields_obj hs).2.2)
    have hc' := hc.trans (congrArg some (Serde.structFields_obj hc).2.2)
    simp only [chainedDelegationClaimsFields, List.map_cons, List.map_nil, hch, hj, hh] at hc'
    exact decode_of_fields hs' hc' rfl rfl

theorem optional_none_of_both {w : Option Json} {e : Option ExtensionsMap} {u : Option Uuid}
    (he : Serde.optional Serde.map w = some e) (hu : Serde.optional decodeUuid w = some u) :
    e = none ∧ u = none := by
  match w, he, hu with
  | none, he, hu => exact ⟨(Option.some.inj he).symm, (Option.some.inj hu).symm⟩
  | some .null, he, hu => exact ⟨(Option.some.inj he).symm, (Option.some.inj hu).symm⟩
  | some (.str _), he, _ => cases he
  | some (.obj _), _, hu => cases hu

/-- Without a `chain` member, an object reads as claims without a chain. -/
theorem chain_of_absent {c : ChainedDelegationClaims}
    (hm : (v.get "jti").isSome = true ∨ (v.get "chain_hash").isSome = true)
    (hch : v.get "chain" = none) (hd : decodeChainedDelegationClaims v = some c) :
    c.chain = none := by
  cases v with
  | obj ms =>
    obtain ⟨_, _, _, _, _, _, _, _, _, chain, _, _, hs, -, -, hc⟩ := readFrom_of_decode hd
    have hw : chain = ms.lookup "chain" :=
      Option.some.inj (congrArg (·[9]?) (Serde.structFields_obj hs).2.2)
    rw [hw, show ms.lookup "chain" = none from hch] at hc
    exact (Option.some.inj hc).symm
  | _ => simp [Json.get, Json.members] at hm

/-- The fields of a chain read from an array that holds no more than a single hop are those of
the single hop, and three that hold nothing. -/
theorem fromItems_chained {vs : List Json} {ws us : List (Option Json)}
    (hs : Serde.fromItems Delegation.delegationClaimsFields vs = some ws)
    (hc : Serde.fromItems chainedDelegationClaimsFields vs = some us) :
    us = ws ++ [none, none, none] := by
  have hl : ws.length = 9 := Serde.fromItems_length hs
  have hw := Serde.fromItems_eq_some hs
  rw [Serde.fromItems_eq_some hc]
  have hn : vs.length ≤ 9 := by
    rw [hw, List.length_append, List.length_map] at hl
    omega
  have hr : chainedDelegationClaimsFields.length - vs.length =
      Delegation.delegationClaimsFields.length - vs.length + 3 := by
    change 12 - vs.length = 9 - vs.length + 3
    omega
  rw [hr, List.replicate_add, ← List.append_assoc, ← hw]
  rfl

/-- Claims that both verifiers read, without a member of the multi-hop set, are those of a single
hop. -/
theorem lift_of_decode {s : Delegation.DelegationClaims} {c : ChainedDelegationClaims}
    (hs : Delegation.decodeDelegationClaims v = some s)
    (hc : decodeChainedDelegationClaims v = some c) (hch : v.get "chain" = none)
    (hj : v.get "jti" = none) (hh : v.get "chain_hash" = none) : c = s.lift := by
  cases v with
  | obj ms =>
    rw [@decode_obj_of_absent ms hch hj hh, hs] at hc
    exact (Option.some.inj hc).symm
  | arr vs =>
    obtain ⟨_, _, _, _, _, _, _, _, _, hf, -, he⟩ := single_readFrom_of_decode hs
    obtain ⟨_, _, _, _, _, _, _, _, _, _, _, _, hg, -, hu, -⟩ := readFrom_of_decode hc
    have hfg := fromItems_chained hf hg
    simp only [List.cons_append, List.nil_append, List.cons.injEq, and_true] at hfg
    obtain ⟨rfl, rfl, rfl, rfl, rfl, rfl, ⟨⟩, rfl, rfl, rfl, rfl, rfl⟩ := hfg
    obtain ⟨hse, hcu⟩ := optional_none_of_both he hu
    rw [decode_of_fields hf hg (hu.trans (congrArg some hcu))
      (he.trans (congrArg some hse)).symm, hs] at hc
    exact (Option.some.inj hc).symm
  | _ => cases hs

/-! ## Agreement -/

theorem isReading_eq (e : DelegationError) :
    e.isReading = (e.ctorIdx == 11 || e.ctorIdx == 12) := by
  cases e <;> rfl

theorem undecodable_ctorIdx {fs : List FieldSpec} : (DelegationError.undecodable "" fs v).ctorIdx =
    if (unknownClaim fs v).isSome then 17 else 11 := by
  cases h : unknownClaim fs v <;> simp [DelegationError.undecodable, h] <;> rfl

theorem chainedReading_eq_ok {c : ChainedDelegationClaims} : chainedReading v true = .ok c ↔
    jtiWellFormed v = true ∧ decodeChainedDelegationClaims v = some c := by
  simp only [chainedReading, if_true, readFirst_whole, bind_eq_ok, mapErr_eq_ok, okOr_eq_ok,
    jtiWellFormed]
  cases (v.get "jti").bind Json.asStr with
  | none => simp
  | some jti => cases h : Uuid.parseV4 jti <;> simp [h, Except.map, Except.isOk, Except.toBool]

theorem chainedReading_error (hj : jtiWellFormed v = true)
    (hd : decodeChainedDelegationClaims v = none) :
    chainedReading v true =
      .error (.delegation (.undecodable "" chainedDelegationClaimsFields v)) := by
  unfold jtiWellFormed at hj
  cases h : (v.get "jti").bind Json.asStr with
  | none => simp [chainedReading, h, hd]
  | some jti =>
    rw [h] at hj
    obtain ⟨u, hu⟩ := exists_ok_of_isOk hj
    simp [chainedReading, h, hd, hu, Except.map]

theorem chainedReading_jti (hj : jtiWellFormed v = false) :
    ∃ e, chainedReading v true = .error (.jtiNotV4 e) := by
  unfold jtiWellFormed at hj
  cases h : (v.get "jti").bind Json.asStr with
  | none => simp [h] at hj
  | some jti =>
    cases hp : Uuid.parseV4 jti with
    | ok u => simp [h, hp, Except.isOk, Except.toBool] at hj
    | error e => exact ⟨e, by simp [chainedReading, h, hp, Except.map]⟩

theorem not_sameOutcome_singleHop {e : DelegationError} {ctx : ChainVerifyContext}
    {c : ChainedDelegationClaims} (he : e.isReading = true) (hp : peekClaims P token = .ok c) :
    ¬SameOutcome (.error e) (verifySingleHop P ctx token) := by
  intro h
  cases hr : verifySingleHop P ctx token with
  | ok w =>
    rw [hr] at h
    exact h
  | error e' =>
    obtain ⟨d, rfl, hd⟩ := verifySingleHop_failsIn hp e' hr
    have hx : e.ctorIdx = d.ctorIdx := by simpa [hr, SameOutcome] using h
    rw [isReading_eq, hx, ← isReading_eq, hd] at he
    cases he

theorem sameOutcome_mapErr (r : Except DelegationError Delegation.VerifiedDelegation) :
    SameOutcome r ((mapErr .delegation r).map Delegation.VerifiedDelegation.lift) := by
  cases r with
  | ok w => exact ⟨rfl, rfl, rfl, rfl, rfl⟩
  | error e => exact (rfl : e.ctorIdx = e.ctorIdx)

section

variable {ctx : Delegation.DelegationVerifyContext} {hopCheck : Option RevocationCheckFn}
  {c : ChainedDelegationClaims}

theorem verifyChainedDelegation_chain (hp : peekClaims P token = .ok c) (hc : c.chain ≠ none) :
    verifyChainedDelegation P (ctx.chained hopCheck) token =
      .error (.delegation .multihopNotSupported) := by
  obtain ⟨chain, hc⟩ := Option.ne_none_iff_exists'.mp hc
  have ho : checkOptIn (ctx.chained hopCheck) c = .error (.delegation .multihopNotSupported) := by
    simp [checkOptIn, Delegation.DelegationVerifyContext.chained, hc, ensure]
  simp only [verifyChainedDelegation, hp, ok_bind, ho, error_bind]

theorem verifyChainedDelegation_jti (hp : peekClaims P token = .ok c) (hc : c.chain = none)
    (hj : c.jti ≠ none) : verifyChainedDelegation P (ctx.chained hopCheck) token =
      .error (.delegation (.claimsMalformed "jti claim requires multi-hop opt-in")) := by
  obtain ⟨jti, hj⟩ := Option.ne_none_iff_exists'.mp hj
  have ho : checkOptIn (ctx.chained hopCheck) c =
      .error (.delegation (.claimsMalformed "jti claim requires multi-hop opt-in")) := by
    simp [checkOptIn, Delegation.DelegationVerifyContext.chained, hc, hj, ensure]
  simp only [verifyChainedDelegation, hp, ok_bind, ho, error_bind]

theorem verifyChainedDelegation_single (hp : peekClaims P token = .ok c) (hc : c.chain = none)
    (hj : c.jti = none) : verifyChainedDelegation P (ctx.chained hopCheck) token =
      verifySingleHop P (ctx.chained hopCheck) token := by
  have ho : checkOptIn (ctx.chained hopCheck) c = .ok () := by
    simp [checkOptIn, hc, hj, ensure]
  simp [verifyChainedDelegation, hp, ho, hc]

/-- A stable verifier that gives up on the claims agrees with one of chains that does not give up
before them only where the latter gives up in the same way. -/
theorem sameOutcome_error_iff {e : DelegationError} (he : e.isReading = true)
    (hp : peekClaims P token = .ok c) :
    SameOutcome (.error e) (verifyChainedDelegation P (ctx.chained hopCheck) token) ↔
      if c.chain = none then c.jti ≠ none ∧ e.ctorIdx = 11 else e.ctorIdx = 12 := by
  by_cases hc : c.chain = none
  · by_cases hj : c.jti = none
    · rw [verifyChainedDelegation_single hp hc hj]
      simp [not_sameOutcome_singleHop he hp, hc, hj]
    · rw [verifyChainedDelegation_jti hp hc hj]
      simp [SameOutcome, hc, hj, DelegationError.ctorIdx]
  · rw [verifyChainedDelegation_chain hp hc]
    simp [SameOutcome, hc, DelegationError.ctorIdx]

end

section

variable (ctx : Delegation.DelegationVerifyContext) (hopCheck : Option RevocationCheckFn)

/-- Agreement beside a member of the multi-hop set, where the stable verifier reports `e`. -/
theorem sameOutcome_of_member {e : DelegationError} (ho : openPayload P token = .ok (v, true))
    (hs : singleReading v true = .error e) (he : e.isReading = true) :
    SameOutcome (Delegation.verifyDelegation P ctx token)
        (verifyChainedDelegation P (ctx.chained hopCheck) token) ↔
      jtiWellFormed v = true ∧
        match decodeChainedDelegationClaims v with
        | some c => if c.chain = none then c.jti ≠ none ∧ e.ctorIdx = 11 else e.ctorIdx = 12
        | none => unknownClaim chainedDelegationClaimsFields v = none ∧ e.ctorIdx = 11 := by
  have hv : Delegation.verifyDelegation P ctx token = .error e := by
    simp [Delegation.verifyDelegation, single_peekClaims_eq, ho, hs]
  have hp : peekClaims P token = chainedReading v true := by simp [peekClaims_eq, ho]
  rw [hv]
  cases hj : jtiWellFormed v with
  | false =>
    obtain ⟨e', hr⟩ := chainedReading_jti hj
    simp [verifyChainedDelegation, hp, hr, SameOutcome]
  | true =>
    cases hd : decodeChainedDelegationClaims v with
    | some c => simpa using sameOutcome_error_iff he (hp.trans (chainedReading_eq_ok.mpr ⟨hj, hd⟩))
    | none =>
      have hr := hp.trans (chainedReading_error hj hd)
      rw [isReading_eq] at he
      simp only [verifyChainedDelegation, hr, error_bind, SameOutcome, undecodable_ctorIdx]
      cases hu : unknownClaim chainedDelegationClaimsFields v with
      | none => simp
      | some m =>
        have hne : e.ctorIdx ≠ 17 := fun h => by simp [h] at he
        simp [hne]

theorem sameOutcome_of_decode {c : Delegation.DelegationClaims} {c' : ChainedDelegationClaims}
    (ho : openPayload P token = .ok (v, true)) (hs : singleReading v true = .ok c)
    (hr : chainedReading v true = .ok c') (hl : c' = c.lift) :
    SameOutcome (Delegation.verifyDelegation P ctx token)
      (verifyChainedDelegation P (ctx.chained hopCheck) token) := by
  have hps : Delegation.peekClaims P token = .ok c := by simp [single_peekClaims_eq, ho, hs]
  have hpc : peekClaims P token = .ok c.lift := by simp [peekClaims_eq, ho, hr, hl]
  have hv : Delegation.verifyDelegation P ctx token = Delegation.verifySingleHop P ctx token := by
    simp [Delegation.verifyDelegation, hps]
  rw [hv, verifyChainedDelegation_single hpc rfl rfl, verifySingleHop_lift hps hpc]
  exact sameOutcome_mapErr _

theorem not_sameOutcome_of_undecoded {c : Delegation.DelegationClaims}
    (ho : openPayload P token = .ok (v, true)) (hs : singleReading v true = .ok c)
    (hu : unknownClaim chainedDelegationClaimsFields v = none)
    (hr : chainedReading v true =
      .error (.delegation (.undecodable "" chainedDelegationClaimsFields v))) :
    ¬SameOutcome (Delegation.verifyDelegation P ctx token)
      (verifyChainedDelegation P (ctx.chained hopCheck) token) := by
  have hps : Delegation.peekClaims P token = .ok c := by simp [single_peekClaims_eq, ho, hs]
  have hv : Delegation.verifyDelegation P ctx token = Delegation.verifySingleHop P ctx token := by
    simp [Delegation.verifyDelegation, hps]
  have hc : verifyChainedDelegation P (ctx.chained hopCheck) token =
      .error (.delegation (.undecodable "" chainedDelegationClaimsFields v)) := by
    simp [verifyChainedDelegation, peekClaims_eq, ho, hr]
  rw [hv, hc]
  cases h : Delegation.verifySingleHop P ctx token with
  | ok w => exact id
  | error e =>
    have he : e.isReading = false := single_verifySingleHop_failsIn hps e h
    rw [isReading_eq] at he
    intro hx
    have hx' : e.ctorIdx =
        (DelegationError.undecodable "" chainedDelegationClaimsFields v).ctorIdx := hx
    rw [undecodable_ctorIdx, hu] at hx'
    simp [hx'] at he

theorem sameOutcome_iff_agreedValue (ho : openPayload P token = .ok (v, true)) :
    SameOutcome (Delegation.verifyDelegation P ctx token)
        (verifyChainedDelegation P (ctx.chained hopCheck) token) ↔ AgreedValue v := by
  unfold AgreedValue
  split_ifs with hch hm
  · have hs : singleReading v true = .error .multihopNotSupported := by
      obtain ⟨chain, hch⟩ := Option.isSome_iff_exists.mp hch
      simp [singleReading, Delegation.checkSingleHopMembers, hch, ensure]
    rw [sameOutcome_of_member ctx hopCheck ho hs rfl]
    cases decodeChainedDelegationClaims v <;> simp [DelegationError.ctorIdx]
  · rw [Bool.not_eq_true, Option.isSome_eq_false_iff, Option.isNone_iff_eq_none] at hch
    obtain ⟨r, hs⟩ : ∃ r, singleReading v true = .error (.claimsMalformed r) := by
      by_cases hj : (v.get "jti").isSome = true
      · obtain ⟨jti, hj⟩ := Option.isSome_iff_exists.mp hj
        refine ⟨"jti" ++ " is not a single-hop delegation claim", ?_⟩
        simp only [singleReading, Delegation.checkSingleHopMembers, forEach, hch, hj]
        rfl
      · obtain ⟨hash, hh⟩ := Option.isSome_iff_exists.mp (hm.resolve_left hj)
        rw [Bool.not_eq_true, Option.isSome_eq_false_iff, Option.isNone_iff_eq_none] at hj
        refine ⟨"chain_hash" ++ " is not a single-hop delegation claim", ?_⟩
        simp only [singleReading, Delegation.checkSingleHopMembers, forEach, hch, hj, hh]
        rfl
    rw [sameOutcome_of_member ctx hopCheck ho hs rfl]
    cases hd : decodeChainedDelegationClaims v with
    | none => simp [DelegationError.ctorIdx]
    | some c => simp [DelegationError.ctorIdx, chain_of_absent hm hch hd]
  · rw [not_or, Bool.not_eq_true, Bool.not_eq_true] at hm
    simp only [Bool.not_eq_true, Option.isSome_eq_false_iff, Option.isNone_iff_eq_none] at hch hm
    have hu := unknownClaim_absent hch hm.1 hm.2
    have hs : singleReading v true = okOr (Delegation.decodeDelegationClaims v)
        (.undecodable "" Delegation.delegationClaimsFields v) := by
      simp [singleReading, Delegation.checkSingleHopMembers, forEach, hch, hm, ensure]
    have hj : jtiWellFormed v = true := by simp [jtiWellFormed, hm]
    cases hd : Delegation.decodeDelegationClaims v with
    | some c =>
      rw [hd] at hs
      cases hc : decodeChainedDelegationClaims v with
      | some c' =>
        have hr := chainedReading_eq_ok.mpr ⟨hj, hc⟩
        have hl := lift_of_decode hd hc hch hm.1 hm.2
        simpa using sameOutcome_of_decode ctx hopCheck ho hs hr hl
      | none =>
        have hr := chainedReading_error hj hc
        have hn := hu.symm.trans (single_unknownClaim_of_decode hd)
        simpa using not_sameOutcome_of_undecoded ctx hopCheck ho hs hn hr
    | none =>
      rw [hd] at hs
      cases hc : decodeChainedDelegationClaims v with
      | some c' =>
        have he : DelegationError.undecodable "" Delegation.delegationClaimsFields v =
            .claimsMalformed "claims do not deserialize" := by
          simp [DelegationError.undecodable, hu.trans (unknownClaim_of_decode hc)]
        rw [sameOutcome_of_member ctx hopCheck ho hs (by rw [he]; rfl), hc, he]
        simp [hj, DelegationError.ctorIdx]
      | none =>
        have hv : Delegation.verifyDelegation P ctx token =
            .error (.undecodable "" Delegation.delegationClaimsFields v) := by
          simp [Delegation.verifyDelegation, single_peekClaims_eq, ho, hs]
        have hr := chainedReading_error hj hc
        have hvc : verifyChainedDelegation P (ctx.chained hopCheck) token =
            .error (.delegation (.undecodable "" chainedDelegationClaimsFields v)) := by
          simp [verifyChainedDelegation, peekClaims_eq, ho, hr]
        rw [hv, hvc]
        simp [SameOutcome, undecodable_ctorIdx, hu]

/-- What is reported when text follows the first value: an unknown member, if the deserialisation
stops at one. -/
theorem readFirst_ctorIdx {α : Type} {decode : Json → Option α} {fs : List FieldSpec}
    (hd : ∀ c, decode v = some c → unknownClaim fs v = none) :
    ∃ e, readFirst "" fs decode v false = .error e ∧
      e.ctorIdx = if (unknownClaim fs v).isSome then 17 else 11 := by
  refine ⟨_, readFirst_trailing, ?_⟩
  cases hc : decode v with
  | none => exact undecodable_ctorIdx
  | some c => simp [hd c hc, DelegationError.ctorIdx]

theorem sameOutcome_of_trailing (ho : openPayload P token = .ok (v, false)) :
    SameOutcome (Delegation.verifyDelegation P ctx token)
        (verifyChainedDelegation P (ctx.chained hopCheck) token) ↔
      (unknownClaim Delegation.delegationClaimsFields v).isSome =
        (unknownClaim chainedDelegationClaimsFields v).isSome := by
  obtain ⟨e, hs, he⟩ := readFirst_ctorIdx fun _ => single_unknownClaim_of_decode (v := v)
  obtain ⟨e', hc, he'⟩ := readFirst_ctorIdx fun _ => unknownClaim_of_decode (v := v)
  have hv : Delegation.verifyDelegation P ctx token = .error e := by
    simp [Delegation.verifyDelegation, single_peekClaims_eq, ho, singleReading, hs]
  have hvc : verifyChainedDelegation P (ctx.chained hopCheck) token = .error (.delegation e') := by
    simp [verifyChainedDelegation, peekClaims_eq, ho, chainedReading, hc]
  rw [hv, hvc]
  simp only [SameOutcome, he, he']
  cases (unknownClaim Delegation.delegationClaimsFields v).isSome <;>
    cases (unknownClaim chainedDelegationClaimsFields v).isSome <;> simp

/-- Without a budget, the verifier of chains agrees with the stable one exactly on the tokens whose
payload the two read alike. -/
theorem verifyChainedDelegation_parity (P : Primitives) (token : String) :
    SameOutcome (Delegation.verifyDelegation P ctx token)
        (verifyChainedDelegation P (ctx.chained hopCheck) token) ↔
      ∀ r, openPayload P token = .ok r → AgreedReading r := by
  cases ho : openPayload P token with
  | error e =>
    have hs : Delegation.verifyDelegation P ctx token = .error e := by
      simp [Delegation.verifyDelegation, single_peekClaims_eq, ho]
    have hc : verifyChainedDelegation P (ctx.chained hopCheck) token = .error (.delegation e) := by
      simp [verifyChainedDelegation, peekClaims_eq, ho]
    simp [hs, hc, SameOutcome]
  | ok r =>
    obtain ⟨v, _ | _⟩ := r
    · simp [sameOutcome_of_trailing ctx hopCheck ho, AgreedReading]
    · simp [sameOutcome_iff_agreedValue ctx hopCheck ho, AgreedReading]

end

theorem agreedValue_of_absent {ms : List (String × Json)} (hch : ms.lookup "chain" = none)
    (hj : ms.lookup "jti" = none) (hh : ms.lookup "chain_hash" = none) :
    AgreedValue (.obj ms) := by
  have hg : ∀ k, (Json.obj ms).get k = ms.lookup k := fun _ => rfl
  simp only [AgreedValue, hg, hch, hj, hh, decode_obj_of_absent hch hj hh]
  cases Delegation.decodeDelegationClaims (.obj ms) <;> simp

/-! ## A token on which they part -/

theorem openPayload_signCompact {signer : Signer} {key : VerifyingKey} {c : ChainedDelegationClaims}
    (hP : P.ReadsText) (hs : signer.Lawful P key) (hc : c.Writable)
    (h : signCompact signer typDelegation c.toValue = .ok token) :
    openPayload P token = .ok (P.reread c.toValue.canon, true) := by
  have hm : checkMembers (P.reread c.toValue.canon) delegationClaimsMembers = none := by
    rw [checkMembers_reread P (Json.isObject_canon _)]
    exact checkMembers_written (by decide)
  have hr := hc.readable_toValue hP
  have hf := Primitives.document_eq_some.mp (hP.document_jcs hr)
  have hd := rejectDuplicateKeys_jcs hP hr hc.distinctKeys_toValue
  simp [openPayload, peekTyp_signCompact hP hs h, decodePayloadUnverified_signCompact hs h, hd, hf,
    ensureMembers, hm]

namespace SampleChain

open Toy

/-- A verifier of single hops that knows every agent's manifest. -/
def singleContext : Delegation.DelegationVerifyContext where
  verifier := agent 0
  now := 2000
  revocation := .failOpen
  issuerManifests := some fun aid => some (manifest aid ["read"] [] 1000)
  insecureLocalhost := false

/-- A single hop that carries a `chain_hash`. -/
def hashedHop : ChainedDelegationClaims := hop 1 2 (some voucherToken) none none (some "AA")

def hashedToken : String := hopToken 1 2 (some voucherToken) none none (some "AA")

theorem checkSingleHopMembers_hashedHop :
    Delegation.checkSingleHopMembers (primitives.reread hashedHop.toValue.canon) =
      .error (.claimsMalformed ("chain_hash" ++ " is not a single-hop delegation claim")) := by
  have hf : (chainedDelegationClaimsFields.map FieldSpec.name).Nodup := by decide
  have hg (k : String) : (primitives.reread hashedHop.toValue.canon).get k =
      (hashedHop.toValue.canon.get k).map primitives.reread :=
    get_reread primitives (Json.isObject_canon _) k
  have hc : hashedHop.toValue.canon.get "chain" = none :=
    Serde.get_written hf rfl (show chainedDelegationClaimsFields[9]? = some _ from rfl)
  have hj : hashedHop.toValue.canon.get "jti" = none := hashedHop.get_jti
  have hh : hashedHop.toValue.canon.get "chain_hash" = some (.str "AA") :=
    Serde.get_written hf rfl (show chainedDelegationClaimsFields[10]? = some _ from rfl)
  simp only [Delegation.checkSingleHopMembers, hg, hc, hj, hh, forEach]
  rfl

theorem verifyChainedDelegation_hashedToken :
    (∃ v, verifyChainedDelegation primitives (singleContext.chained none) hashedToken = .ok v) ∧
      Delegation.verifyDelegation primitives singleContext hashedToken =
        .error (.claimsMalformed ("chain_hash" ++ " is not a single-hop delegation claim")) := by
  constructor
  · have hp : peekClaims primitives hashedToken = .ok hashedHop := peekClaims_hop
    rw [verifyChainedDelegation_single hp rfl rfl]
    exact ⟨_, verifySingleHop_hop rfl⟩
  · have ho : openPayload primitives hashedToken =
        .ok (primitives.reread hashedHop.toValue.canon, true) :=
      openPayload_signCompact readsText (signer_lawful (agent 1)) hop_writable
        signCompact_hop
    simp only [Delegation.verifyDelegation, single_peekClaims_eq, ho, ok_bind, singleReading,
      if_true, checkSingleHopMembers_hashedHop, error_bind]

end SampleChain

end Aitp
