import Aitp.Crypto.Toy
import Aitp.Tct.Verifier

/-! # The strict token profile

The header of an accepted token is meant to be an object of `alg` and `typ`, and
its payload an object of declared claims that repeats no key at any depth. The
checks on the payload run when the header, read as an object, names the type of
the token; the header that is then accepted may also be an array.
-/

namespace Aitp

section

variable (P : Primitives) (token : String)

/-- The document in the header segment. -/
def headerDocument : Option Json := do
  let (headerB64, _, _) ← (splitStrict token).toOption
  P.document (← decodeStrict headerB64)

/-- The document in the payload segment. -/
def payloadDocument : Option Json := do
  P.document (← (decodePayloadUnverified token).toOption)

/-- An object of exactly `alg` and `typ`, and an object of declared claims without a repeated
key. -/
structure StrictProfile (members : List String) : Prop where
  header : ∃ ms, headerDocument P token = some (.obj ms) ∧ (ms.map Prod.fst).Perm ["alg", "typ"]
  payload : ∃ ms, payloadDocument P token = some (.obj ms) ∧
    (Json.obj ms).distinctKeys = true ∧ ∀ m ∈ ms, m.1 ∈ members

/-- Accepted by a verifier of tokens, under some context; `members` is the claim set it
declares. -/
inductive Accepted : List String → Prop
  | tct {ctx : TctVerifyContext} {v : VerifiedTct} (h : verifyTct P token ctx = .ok v) :
    Accepted tctClaimsMembers
  | attestation {ctx : AttestationVerifyContext} {v : VerifiedAttestation}
    (h : verifyAttestation P token ctx = .ok v) : Accepted tctClaimsMembers
  | voucher {issuer : Aid} {c : GrantVoucherClaims} (h : verifyVoucher P token issuer = .ok c) :
    Accepted grantVoucherClaimsMembers

end

variable {P : Primitives} {token : String} {members : List String}

theorem headerDocument_eq {h p s : String} {header : Bytes}
    (hs : splitStrict token = .ok (h, p, s)) (hd : decodeStrict h = some header) :
    headerDocument P token = P.document header := by
  simp [headerDocument, hs, hd, Except.toOption]

theorem payloadDocument_eq {payload : Bytes} (hd : decodePayloadUnverified token = .ok payload) :
    payloadDocument P token = P.document payload := by
  simp [payloadDocument, hd, Except.toOption]

theorem CoreChecks.verify_checked {core : CoreChecks} {context : TctClaims → Except TctError Unit}
    {claims : TctClaims} (h : core.verify P token context = .ok claims) :
    peekClaimSet P typTct tctClaimsMembers "jti" token = .ok () ∧
      ∃ payload, verifyCompact P core.issuer typTct token = .ok payload := by
  simp only [CoreChecks.verify, bind_eq_ok, mapErr_eq_ok] at h
  obtain ⟨_, hp, payload, hv, -⟩ := h
  exact ⟨hp, payload, hv⟩

theorem Accepted.checked (h : Accepted P token members) : ∃ signer typ v4Member payload,
    peekClaimSet P typ members v4Member token = .ok () ∧
      verifyCompact P signer typ token = .ok payload := by
  cases h with
  | tct h =>
    simp only [verifyTct, verifyTctBeforeRevocation, bind_eq_ok] at h
    obtain ⟨claims, hc, -⟩ := h
    obtain ⟨hp, payload, hv⟩ := CoreChecks.verify_checked hc
    exact ⟨_, _, _, payload, hp, hv⟩
  | attestation h =>
    simp only [verifyAttestation, bind_eq_ok] at h
    obtain ⟨claims, hc, -⟩ := h
    obtain ⟨hp, payload, hv⟩ := CoreChecks.verify_checked hc
    exact ⟨_, _, _, payload, hp, hv⟩
  | voucher h =>
    simp only [verifyVoucher, bind_eq_ok, mapErr_eq_ok] at h
    obtain ⟨_, hp, payload, hv, -⟩ := h
    exact ⟨_, _, _, payload, hp, hv⟩

theorem jwsHeader_obj {ms : List (String × Json)} {header : JwsHeader}
    (h : decodeJwsHeader (.obj ms) = some header) : (ms.map Prod.fst).Nodup ∧
      (ms.map Prod.fst).Perm ["alg", "typ"] ∧ ms.lookup "typ" = some (.str header.typ) := by
  unfold decodeJwsHeader at h
  split at h
  · rename_i alg typ hs
    obtain ⟨hd, hc, hw⟩ := Serde.structFields_obj hs
    simp only [List.map_cons, List.map_nil, List.cons.injEq, and_true] at hw
    obtain rfl := Option.some.inj h
    refine ⟨hd, ?_, hw.2.symm⟩
    rw [List.perm_ext_iff_of_nodup hd (by decide)]
    intro k
    constructor
    · intro hk
      obtain ⟨m, hm, rfl⟩ := List.mem_map.mp hk
      obtain ⟨f, hf, hn⟩ := hc m hm
      rw [← hn]
      exact List.mem_map_of_mem (f := FieldSpec.name) hf
    · intro hk
      rcases List.mem_pair.mp hk with rfl | rfl
      · exact List.mem_map_of_mem (f := Prod.fst) ((Json.lookup_eq_some_iff hd).mp hw.1.symm)
      · exact List.mem_map_of_mem (f := Prod.fst) ((Json.lookup_eq_some_iff hd).mp hw.2.symm)
  · cases h

/-- A header that is an object holds `alg` and `typ` alone, and both readers see the same type. -/
theorem object_header {signer : Aid} {typ : String} {payload : Bytes} {ms : List (String × Json)}
    (h : verifyCompact P signer typ token = .ok payload)
    (hh : headerDocument P token = some (.obj ms)) :
    (ms.map Prod.fst).Perm ["alg", "typ"] ∧ peekTyp P token = some typ := by
  simp only [verifyCompact, bind_eq_ok, okOr_eq_ok, ensure_eq_ok, Prod.exists, beq_iff_eq] at h
  obtain ⟨hb, pb, sb, hs, header, hhd, p, -, sig, -, hdr, hdoc, _, ht, -⟩ := h
  have hdoc' : P.document header = some (.obj ms) := (headerDocument_eq hs hhd).symm.trans hh
  rw [hdoc', Option.bind_some] at hdoc
  obtain ⟨hd, hp, htyp⟩ := jwsHeader_obj hdoc
  refine ⟨hp, ?_⟩
  have hl : ms.reverse.lookup "typ" = some (.str hdr.typ) := by
    rw [← Json.lookup_perm hd (List.reverse_perm ms).symm, htyp]
  simp [peekTyp, head_segments hs, hhd, hdoc', Json.members, hl, Json.asStr, ht]

/-- The checks before the signature, when they run. -/
theorem payload_of_peek {signer : Aid} {typ v4Member : String} {payload : Bytes}
    (hp : peekClaimSet P typ members v4Member token = .ok ())
    (ht : peekTyp P token = some typ) (h : verifyCompact P signer typ token = .ok payload) :
    ∃ ms, payloadDocument P token = some (.obj ms) ∧ (Json.obj ms).distinctKeys = true ∧
      ∀ m ∈ ms, m.1 ∈ members := by
  have hd := verifyCompact_ok h
  have ho : (P.document payload).any Json.isObject = true := by
    simp only [verifyCompact, bind_eq_ok, okOr_eq_ok, ensure_eq_ok, pure_eq_ok, Prod.exists] at h
    obtain ⟨_, _, _, -, _, -, _, -, _, -, _, -, _, -, _, -, _, -, _, -, _, ho, rfl⟩ := h
    exact ho
  obtain ⟨v, hv⟩ : ∃ v, P.document payload = some v :=
    Option.isSome_iff_exists.mp (by cases hx : P.document payload <;> simp_all)
  rw [hv] at ho
  obtain ⟨ms, rfl⟩ := Json.isObject_iff.mp ho
  simp only [peekClaimSet, ht, if_true, hd, mapErr_ok, ok_bind, rejectDuplicateKeys, hv,
    Primitives.document_eq_some.mp hv, mapErr_ensure, ifPresent_some, bind_eq_ok,
    ensure_eq_ok] at hp
  obtain ⟨_, hk, _, hm, -⟩ := hp
  refine ⟨ms, (payloadDocument_eq hd).trans hv, hk, ?_⟩
  cases hc : checkMembers (.obj ms) members with
  | none => exact mem_allowed_of_checkMembers hc
  | some m => simp [ensureMembers, hc] at hm

/-- An accepted token keeps to the strict profile exactly when its header is an object. -/
theorem strictProfile_iff (h : Accepted P token members) :
    StrictProfile P token members ↔ ∃ ms, headerDocument P token = some (.obj ms) := by
  constructor
  · intro hp
    obtain ⟨ms, hm, -⟩ := hp.header
    exact ⟨ms, hm⟩
  · rintro ⟨ms, hm⟩
    obtain ⟨signer, typ, v4Member, payload, hp, hv⟩ := h.checked
    obtain ⟨hk, ht⟩ := object_header hv hm
    exact ⟨⟨ms, hm, hk⟩, payload_of_peek hp ht hv⟩

/-! ## A header that lists its fields -/

namespace Toy

/-- Claims whose extensions repeat a key. -/
def repeatingClaims : TctClaims :=
  ⟨protocolVersion, uuid 0, agent 0, agent 1, agent 1, 1000, 4600, ["read"],
    (VerifyingKey.mk (agent 1).algorithm (agent 1).pubkeyCompressedBytes).toJwkThumbprintSha256
      primitives, some [("a", .int 1), ("a", .int 2)]⟩

/-- A header that lists the values of its fields. -/
def listedHeader : Json := .arr [.str "EdDSA", .str typTct]

def listedInput : String :=
  encodeBase64Url listedHeader.jcs ++ "." ++ encodeBase64Url repeatingClaims.toValue.jcs

def listedToken : String :=
  listedInput ++ "." ++
    encodeBase64Url (signature (rawTarget (agent 0).algorithm (asBytes listedInput)))

def tctContext : TctVerifyContext := ⟨agent 1, agent 0, 2000, none, .failOpen, 0⟩

theorem splitStrict_listedToken : splitStrict listedToken =
    .ok (encodeBase64Url listedHeader.jcs, encodeBase64Url repeatingClaims.toValue.jcs,
      encodeBase64Url (signature (rawTarget (agent 0).algorithm (asBytes listedInput)))) := by
  have hne (t : Target) : signature t ≠ [] := by simp [signature, rawSignatureLen]
  exact splitStrict_join (dot_notMem_encodeChars _) (dot_notMem_encodeChars _)
    (dot_notMem_encodeChars _) ⟨encodeChars_ne_nil (jcs_ne_nil _),
      encodeChars_ne_nil (jcs_ne_nil _), encodeChars_ne_nil (hne _)⟩

theorem readable_repeatingClaims :
    repeatingClaims.toValue.canon.readable primitives.keeps nestingLimit = true := by
  have hint : ∀ (z : Timestamp) (n : ℕ), z.Exact →
      (Json.int z).readable (fun v => primitives.keeps v.canon) n = true := by
    intro z n hz
    refine Json.readable_int ?_
    rw [Json.canon_int hz.1 hz.2]
    exact readsText.keeps_int hz.fits.1 (lt_of_le_of_lt hz.fits.2 (by decide))
  have hi := fun n => hint 1000 n (by decide)
  have hx := fun n => hint 4600 n (by decide)
  have he : ∀ n, (Json.obj [("a", .int 1), ("a", .int 2)]).readable
      (fun v => primitives.keeps v.canon) (n + 1) = true := by
    intro n
    refine Json.readable_obj ?_
    simp only [List.forall_mem_cons, List.not_mem_nil, false_implies, implies_true, and_true]
    exact ⟨hint 1 n (by decide), hint 2 n (by decide)⟩
  refine Json.readable_canon (fun _ _ => id) repeatingClaims.toValue (Serde.readable_written ?_)
  simp [repeatingClaims, hi, hx, he, readable_cnf]

theorem document_repeatingClaims : primitives.document repeatingClaims.toValue.jcs =
    some repeatingClaims.toValue.canon :=
  readsText.document_text readable_repeatingClaims

theorem document_listedHeader : primitives.document listedHeader.jcs = some listedHeader :=
  readsText.document_jcs (by decide)

theorem decode_repeatingClaims : decodeTctClaims repeatingClaims.toValue.canon =
    some { repeatingClaims with ext := some [("a", .int 2)] } := by
  unfold decodeTctClaims TctClaims.toValue
  rw [Serde.structFields_written (by decide) rfl (by simp [tctClaimsFields])]
  have he : Serde.optional Serde.map (some (Json.obj [("a", .int 1), ("a", .int 2)]).canon) =
      some (some [("a", .int 2)]) := by decide
  have hi : (Json.int 1000).canon = .int 1000 := by decide
  have hx : (Json.int 4600).canon = .int 4600 := by decide
  simp [repeatingClaims, Json.asStr, checkV4_uuid, he, hi, hx]

theorem verifyCompact_listedToken : verifyCompact primitives (agent 0) typTct listedToken =
    .ok repeatingClaims.toValue.jcs := by
  have ha : (agent 0).algorithm = .ed25519 := by decide +kernel
  have hh : decodeJwsHeader listedHeader = some ⟨joseAlg (agent 0).algorithm, typTct⟩ := by
    rw [ha]
    rfl
  exact verifyCompact_parts splitStrict_listedToken (signer_lawful (agent 0)).1
    document_listedHeader hh document_repeatingClaims rfl (by simp [signature])
    (by simp [primitives, listedInput])

theorem peekTyp_listedToken : peekTyp primitives listedToken = none := by
  have hm : listedHeader.members = [] := rfl
  simp [peekTyp, head_segments splitStrict_listedToken, document_listedHeader, hm]

theorem verifyTct_listedToken : ∃ v, verifyTct primitives listedToken tctContext = .ok v := by
  have hp : peekClaimSet primitives typTct tctClaimsMembers "jti" listedToken = .ok () := by
    simp [peekClaimSet, peekTyp_listedToken]
  have hn : agent 0 ≠ agent 1 := by decide +kernel
  have hk := (signer_lawful (agent 1)).1
  have hd : (primitives.document repeatingClaims.toValue.jcs).bind decodeTctClaims =
      some { repeatingClaims with ext := some [("a", .int 2)] } := by
    rw [document_repeatingClaims, Option.bind_some, decode_repeatingClaims]
  simp only [verifyTct, verifyTctBeforeRevocation, CoreChecks.verify, checkCnf, bind_eq_ok,
    mapErr_eq_ok, okOr_eq_ok, ensure_eq_ok, ifPresent_eq_ok, pure_eq_ok, exists_const]
  refine ⟨_, _, ⟨(), hp, _, verifyCompact_listedToken, _, hd, rfl, ?_, ⟨?_, ?_, ?_, ?_⟩, rfl, rfl,
    ?_, rfl, ⟨_, hk, ?_⟩, rfl⟩, _, rfl, rfl⟩
  · simp [repeatingClaims, tctContext]
  · simp [repeatingClaims, tctContext]
  · simp [repeatingClaims]
  · simp [repeatingClaims, hn]
  · decide +kernel
  · rintro _ ⟨⟩
  · simp [repeatingClaims]

theorem headerDocument_listedToken : headerDocument primitives listedToken = some listedHeader :=
  (headerDocument_eq splitStrict_listedToken (decodeStrict_encodeBase64Url _)).trans
    document_listedHeader

theorem payloadDocument_listedToken :
    payloadDocument primitives listedToken = some repeatingClaims.toValue.canon :=
  (payloadDocument_eq (verifyCompact_ok verifyCompact_listedToken)).trans
    document_repeatingClaims

theorem not_distinctKeys_repeatingClaims : repeatingClaims.toValue.canon.distinctKeys = false := by
  rw [Bool.eq_false_iff]
  intro hd
  have hg : repeatingClaims.toValue.canon.get "ext" =
      some (Json.obj [("a", .int 1), ("a", .int 2)]).canon := repeatingClaims.get_ext
  exact absurd (Json.distinctKeys_of_get hd hg) (by decide)

end Toy

theorem strictProfile_iff_listed :
    StrictProfile Toy.primitives Toy.listedToken tctClaimsMembers ↔
      ∃ ms, headerDocument Toy.primitives Toy.listedToken = some (.obj ms) :=
  strictProfile_iff (.tct Toy.verifyTct_listedToken.choose_spec)

/-- An accepted token whose header is an array and whose extensions repeat a key. -/
theorem not_strictProfile_listed :
    (∃ v, verifyTct Toy.primitives Toy.listedToken Toy.tctContext = .ok v) ∧
      ¬StrictProfile Toy.primitives Toy.listedToken tctClaimsMembers ∧
        ∃ v, payloadDocument Toy.primitives Toy.listedToken = some v ∧
          v.distinctKeys = false := by
  refine ⟨Toy.verifyTct_listedToken, ?_, _, Toy.payloadDocument_listedToken,
    Toy.not_distinctKeys_repeatingClaims⟩
  rintro ⟨⟨ms, hm, -⟩, -⟩
  cases Toy.headerDocument_listedToken.symm.trans hm

end Aitp
