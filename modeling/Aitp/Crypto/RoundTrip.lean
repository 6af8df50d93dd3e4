import Aitp.Crypto.Jws

/-! # What is signed verifies

A signature made by a lawful backend parses and verifies under the signer's key.
A token made by `sign_compact` splits into the segments it was made of, and
`verify_compact` accepts it under the signer's agent identifier, giving back the
canonical claims.
-/

namespace Aitp

/-! ## Signatures -/

theorem stripPrefix_eq_none_of_notMem {p : String} {c : Char} {s : String} (hc : c ∈ p.toList)
    (hs : c ∉ s.toList) : stripPrefix p s = none := by
  rw [Option.eq_none_iff_forall_ne_some]
  intro t ht
  have he := eq_append_of_stripPrefix ht
  rw [he, String.toList_append] at hs
  exact hs (List.mem_append_left _ hc)

namespace Signature

variable {algorithm : AidAlgorithm} {raw : Bytes}

theorem notMem_encodeBase64Url {c : Char} (hc : Base64Url.isBase64Url c = false) (bs : Bytes) :
    c ∉ (encodeBase64Url bs).toList := by
  intro h
  rw [encodeBase64Url, String.toList_ofList] at h
  exact absurd (Base64Url.isBase64Url_of_mem_encodeChars h) (by simp [hc])

theorem payload_fromRaw : payload (fromRaw algorithm raw) = encodeBase64Url raw := by
  have hd := notMem_encodeBase64Url (c := '.') (by decide) raw
  cases algorithm with
  | ed25519 =>
    rw [payload, fromRaw, stripPrefix_eq_none_of_notMem (c := '.') (by decide) hd,
      stripPrefix_eq_none_of_notMem (c := '.') (by decide) hd]
    rfl
  | p256 =>
    have hn : stripPrefix "ed25519." ("p256." ++ encodeBase64Url raw) = none := by
      simp [stripPrefix, String.toList_append]
    simp [payload, fromRaw, hn, stripPrefix_append]

theorem algorithm_fromRaw : Signature.algorithm (fromRaw algorithm raw) = algorithm := by
  have hd := notMem_encodeBase64Url (c := '.') (by decide) raw
  cases algorithm with
  | ed25519 =>
    rw [Signature.algorithm, fromRaw, stripPrefix_eq_none_of_notMem (c := '.') (by decide) hd]
    rfl
  | p256 => simp [Signature.algorithm, fromRaw, stripPrefix_append]

theorem length_encodeBase64Url (h : raw.length = rawSignatureLen) :
    (encodeBase64Url raw).length = 86 := by
  have hl := Base64Url.length_of_decodeChars (Base64Url.decodeChars_encodeChars raw)
  rw [encodeBase64Url, String.length_ofList, hl, h]
  rfl

theorem all_isBase64Url_encodeBase64Url :
    (encodeBase64Url raw).toList.all Base64Url.isBase64Url = true := by
  rw [encodeBase64Url, String.toList_ofList, List.all_eq_true]
  exact fun c => Base64Url.isBase64Url_of_mem_encodeChars

theorem parse_fromRaw (h : raw.length = rawSignatureLen) :
    parse (fromRaw algorithm raw) = .ok (fromRaw algorithm raw) := by
  have hp : '=' ∉ (fromRaw algorithm raw).toList := by
    have he := notMem_encodeBase64Url (c := '=') (by decide) raw
    cases algorithm <;> simp [fromRaw, String.toList_append, he]
  simp only [parse, bind_eq_ok, ensure_eq_ok, pure_eq_ok, exists_const, and_true]
  refine ⟨by simpa using hp, ?_⟩
  simp [validateB64UrlSignature, payload_fromRaw, length_encodeBase64Url h,
    all_isBase64Url_encodeBase64Url, ed25519SignatureBase64UrlLen]

end Signature

theorem signJcs_verifies {P : Primitives} {signer : Signer} {key : VerifyingKey} {preimage : Bytes}
    {sig : String} (hs : signer.Lawful P key) (h : signer.signJcs preimage = .ok sig) :
    Signature.parse sig = .ok sig ∧ key.verifyJcs P preimage sig = .ok () := by
  simp only [Signer.signJcs, bind_eq_ok, okOr_eq_ok, pure_eq_ok] at h
  obtain ⟨raw, hr, rfl⟩ := h
  obtain ⟨hl, hv⟩ := hs.2 _ _ hr
  have hk : key.algorithm = signer.aid.algorithm := by rw [(VerifyingKey.fromAid_eq_ok.mp hs.1).1]
  refine ⟨Signature.parse_fromRaw hl, ?_⟩
  simp [VerifyingKey.verifyJcs, Signature.payload_fromRaw, Signature.algorithm_fromRaw, hk, hl, hv,
    encodeBase64Url, String.toList_ofList]

/-! ## Tokens -/

/-- The protected header. -/
def headerValue (aid : Aid) (typ : String) : Json :=
  .obj [("alg", .str (joseAlg aid.algorithm)), ("typ", .str typ)]

theorem flatMap_escapeChar {cs : List Char}
    (h : ∀ c ∈ cs, (c != '"' && c != '\\' && decide (32 ≤ c.toNat)) = true) :
    cs.flatMap escapeChar = cs := by
  induction cs with
  | nil => rfl
  | cons c cs ih =>
    have hc := h c List.mem_cons_self
    simp only [Bool.and_eq_true, bne_iff_ne, ne_eq, decide_eq_true_eq] at hc
    obtain ⟨⟨hq, hb⟩, hn⟩ := hc
    have hx : ∀ d : Char, d.toNat < 32 → c ≠ d := fun d hd he => by subst he; omega
    rw [List.flatMap_cons, ih fun d hd => h d (List.mem_cons_of_mem _ hd)]
    simp [escapeChar, hq, hb, hx '\x08' (by decide), hx '\t' (by decide), hx '\n' (by decide),
      hx '\x0c' (by decide), hx '\r' (by decide), Nat.not_lt.mpr hn]

theorem canon_headerValue (aid : Aid) (typ : String) :
    (headerValue aid typ).canon = headerValue aid typ := by
  have hle : memberLe ("alg", .str (joseAlg aid.algorithm)) ("typ", .str typ) := by
    change utf16 "alg" ≤ utf16 "typ"
    decide
  simp [headerValue, Json.canon, Json.canonMembers, hle]

theorem asBytes_header {aid : Aid} {typ : String} (h : typNeedsNoEscape typ = true) :
    asBytes ("\x7b\"alg\":\"" ++ joseAlg aid.algorithm ++ "\",\"typ\":\"" ++ typ ++ "\"\x7d") =
      (headerValue aid typ).jcs := by
  have ht : typ.toList.flatMap escapeChar = typ.toList :=
    flatMap_escapeChar (by simpa [typNeedsNoEscape] using h)
  have ha : (joseAlg aid.algorithm).toList.flatMap escapeChar = (joseAlg aid.algorithm).toList := by
    cases aid.algorithm <;> decide
  rw [Json.jcs, canon_headerValue, asBytes]
  congr 1
  simp [headerValue, Json.text, Json.textMembers, strText, ht, ha, String.toList_append]
  rfl

theorem segments_join {h p s : List Char} (hh : '.' ∉ h) (hp : '.' ∉ p) (hs : '.' ∉ s) :
    segments (String.ofList h ++ "." ++ String.ofList p ++ "." ++ String.ofList s) =
      [String.ofList h, String.ofList p, String.ofList s] := by
  have ht : (String.ofList h ++ "." ++ String.ofList p ++ "." ++ String.ofList s).toList =
      h ++ '.' :: (p ++ '.' :: s) := by
    simp [String.toList_append]
  simp [segments, ht, List.splitOn_append_cons_self_of_not_mem hh,
    List.splitOn_append_cons_self_of_not_mem hp, List.splitOn_eq_singleton hs]

theorem splitStrict_join {h p s : List Char} (hh : '.' ∉ h) (hp : '.' ∉ p) (hs : '.' ∉ s)
    (hne : h ≠ [] ∧ p ≠ [] ∧ s ≠ []) :
    splitStrict (String.ofList h ++ "." ++ String.ofList p ++ "." ++ String.ofList s) =
      .ok (String.ofList h, String.ofList p, String.ofList s) := by
  simp [splitStrict, segments_join hh hp hs, hne.1, hne.2.1, hne.2.2]

theorem dot_notMem_encodeChars (bs : Bytes) : '.' ∉ Base64Url.encodeChars bs := fun h =>
  absurd (Base64Url.isBase64Url_of_mem_encodeChars h) (by decide)

theorem encodeChars_ne_nil {bs : Bytes} (h : bs ≠ []) : Base64Url.encodeChars bs ≠ [] := by
  intro he
  have hd := Base64Url.decodeChars_encodeChars bs
  rw [he] at hd
  exact h (Option.some.inj hd).symm

theorem jcs_ne_nil (v : Json) : v.jcs ≠ [] := by
  intro h
  have ht := Json.text_ne_nil v.canon
  exact ht (utf8_injective (h.trans utf8_nil.symm))

/-- What a signed token is made of. -/
theorem signCompact_ok {signer : Signer} {typ token : String} {claims : Json}
    (h : signCompact signer typ claims = .ok token) :
    typNeedsNoEscape typ = true ∧ ∃ raw, signer.sign (rawTarget signer.aid.algorithm
        (asBytes (encodeBase64Url (headerValue signer.aid typ).jcs ++ "." ++
          encodeBase64Url claims.jcs))) = some raw ∧
      token = encodeBase64Url (headerValue signer.aid typ).jcs ++ "." ++
        encodeBase64Url claims.jcs ++ "." ++ encodeBase64Url raw := by
  simp only [signCompact, compactSigningInput, Signer.signRaw, bind_eq_ok, ensure_eq_ok,
    okOr_eq_ok, pure_eq_ok, exists_const] at h
  obtain ⟨_, ⟨ht, rfl⟩, raw, hr, rfl⟩ := h
  rw [asBytes_header ht] at hr ⊢
  exact ⟨ht, raw, hr, rfl⟩

variable {P : Primitives} {signer : Signer} {key : VerifyingKey} {typ token : String}
  {claims : Json}

theorem splitStrict_signCompact (hs : signer.Lawful P key)
    (h : signCompact signer typ claims = .ok token) :
    ∃ raw, raw.length = rawSignatureLen ∧
      splitStrict token = .ok (encodeBase64Url (headerValue signer.aid typ).jcs,
        encodeBase64Url claims.jcs, encodeBase64Url raw) ∧
      P.verify key (rawTarget signer.aid.algorithm
        (asBytes (encodeBase64Url (headerValue signer.aid typ).jcs ++ "." ++
          encodeBase64Url claims.jcs))) raw = true := by
  obtain ⟨-, raw, hr, rfl⟩ := signCompact_ok h
  obtain ⟨hl, hv⟩ := hs.2 _ _ hr
  have hne : raw ≠ [] := by
    rintro rfl
    simp [rawSignatureLen] at hl
  exact ⟨raw, hl, splitStrict_join (dot_notMem_encodeChars _) (dot_notMem_encodeChars _)
    (dot_notMem_encodeChars _) ⟨encodeChars_ne_nil (jcs_ne_nil _),
      encodeChars_ne_nil (jcs_ne_nil _), encodeChars_ne_nil hne⟩, hv⟩

theorem payload_of_signCompact {payload : Bytes} (h : signCompact signer typ claims = .ok token)
    (hd : decodePayloadUnverified token = .ok payload) : payload = claims.jcs := by
  obtain ⟨-, raw, -, rfl⟩ := signCompact_ok h
  have hseg : segments (encodeBase64Url (headerValue signer.aid typ).jcs ++ "." ++
      encodeBase64Url claims.jcs ++ "." ++ encodeBase64Url raw) =
      [encodeBase64Url (headerValue signer.aid typ).jcs, encodeBase64Url claims.jcs,
        encodeBase64Url raw] :=
    segments_join (dot_notMem_encodeChars _) (dot_notMem_encodeChars _) (dot_notMem_encodeChars _)
  simp only [decodePayloadUnverified, bind_eq_ok, okOr_eq_ok, Prod.exists] at hd
  obtain ⟨header, payloadB64, sig, hs, hp⟩ := hd
  simp only [splitStrict, hseg] at hs
  split_ifs at hs
  rw [Except.ok.injEq, Prod.mk.injEq, Prod.mk.injEq] at hs
  obtain ⟨-, rfl, -⟩ := hs
  exact Option.some.inj (hp.symm.trans (decodeStrict_encodeBase64Url _))

theorem decodePayloadUnverified_signCompact (hs : signer.Lawful P key)
    (h : signCompact signer typ claims = .ok token) :
    decodePayloadUnverified token = .ok claims.jcs := by
  obtain ⟨raw, -, hsp, -⟩ := splitStrict_signCompact hs h
  simp [decodePayloadUnverified, hsp]

theorem document_headerValue (hP : P.ReadsText) (aid : Aid) (typ : String) :
    P.document (headerValue aid typ).jcs = some (headerValue aid typ) := by
  rw [hP.document_jcs rfl, canon_headerValue]
  rfl

/-- A token verifies under the key of an agent that signed its header and payload, as what its
header reads as. -/
theorem verifyCompact_parts {aid : Aid} {header payload raw : Bytes} {hv v : Json}
    (hsp : splitStrict token =
      .ok (encodeBase64Url header, encodeBase64Url payload, encodeBase64Url raw))
    (hk : VerifyingKey.fromAid P aid = .ok key) (hd : P.document header = some hv)
    (hh : decodeJwsHeader hv = some ⟨joseAlg aid.algorithm, typ⟩)
    (hp : P.document payload = some v) (ho : v.isObject = true) (hl : raw.length = rawSignatureLen)
    (hs : P.verify key (rawTarget aid.algorithm
      (asBytes (encodeBase64Url header ++ "." ++ encodeBase64Url payload))) raw = true) :
    verifyCompact P aid typ token = .ok payload := by
  have ha : key.algorithm = aid.algorithm := by rw [(VerifyingKey.fromAid_eq_ok.mp hk).1]
  simp [verifyCompact, hsp, hd, hh, hk, VerifyingKey.verifyRaw, hl, ha, hs, hp, ho, ensure]

/-- A token verifies under every identifier of the key that signed it, as what it was signed as. -/
theorem verifyCompact_signCompact_of_key {aid : Aid} (hP : P.ReadsText)
    (hs : signer.Lawful P key) (hk : VerifyingKey.fromAid P aid = .ok key)
    (hr : claims.readable P.readsJcs nestingLimit = true) (ho : claims.isObject = true)
    (h : signCompact signer typ claims = .ok token) :
    verifyCompact P aid typ token = .ok claims.jcs := by
  obtain ⟨raw, hl, hsp, hv⟩ := splitStrict_signCompact hs h
  have ho : (P.reread claims.canon).isObject = true := by
    rw [Primitives.isObject_reread, Json.isObject_canon, ho]
  have ha : signer.aid.algorithm = aid.algorithm :=
    congrArg VerifyingKey.algorithm
      ((VerifyingKey.fromAid_eq_ok.mp hs.1).1.symm.trans (VerifyingKey.fromAid_eq_ok.mp hk).1)
  have hh : decodeJwsHeader (headerValue signer.aid typ) = some ⟨joseAlg aid.algorithm, typ⟩ := by
    simp [decodeJwsHeader, headerValue, Serde.structFields, Serde.closed, Serde.fromMembers,
      List.lookup_cons, ha]
  rw [ha] at hv
  exact verifyCompact_parts hsp hk (document_headerValue hP _ _) hh (hP.document_jcs hr) ho hl hv

theorem verifyCompact_signCompact (hP : P.ReadsText) (hs : signer.Lawful P key)
    (hr : claims.readable P.readsJcs nestingLimit = true) (ho : claims.isObject = true)
    (h : signCompact signer typ claims = .ok token) :
    verifyCompact P signer.aid typ token = .ok claims.jcs :=
  verifyCompact_signCompact_of_key hP hs hs.1 hr ho h

theorem head_segments {h p s : String} (hsp : splitStrict token = .ok (h, p, s)) :
    (segments token).head? = some h := by
  unfold splitStrict at hsp
  split at hsp
  · split_ifs at hsp
    rename_i heq _
    rw [heq]
    simp only [Except.ok.injEq, Prod.mk.injEq] at hsp
    rw [List.head?_cons, hsp.1]
  · simp at hsp

theorem peekTyp_signCompact (hP : P.ReadsText) (hs : signer.Lawful P key)
    (h : signCompact signer typ claims = .ok token) : peekTyp P token = some typ := by
  obtain ⟨raw, -, hsp, -⟩ := splitStrict_signCompact hs h
  simp only [peekTyp, Option.bind_eq_bind, head_segments hsp, Option.bind_some,
    decodeStrict_encodeBase64Url, document_headerValue hP]
  simp [headerValue, Json.members, Json.asStr]

/-! ## Signers that do not fail -/

/-- A backend that signs everything, under the key of its AID. -/
structure Signer.Total (P : Primitives) (s : Signer) (key : VerifyingKey) : Prop where
  lawful : s.Lawful P key
  signs : ∀ t, (s.sign t).isSome = true

namespace Signer.Total

variable {P : Primitives} {s : Signer} {key : VerifyingKey}

theorem signJcs (h : s.Total P key) (preimage : Bytes) : ∃ sig, s.signJcs preimage = .ok sig := by
  obtain ⟨raw, hr⟩ := Option.isSome_iff_exists.mp (h.signs (.digest preimage))
  exact ⟨Signature.fromRaw s.aid.algorithm raw, by simp [Signer.signJcs, hr]⟩

theorem signCompact (h : s.Total P key) {typ : String} (ht : typNeedsNoEscape typ = true)
    (claims : Json) : ∃ token, signCompact s typ claims = .ok token := by
  obtain ⟨input, hi⟩ : ∃ input, compactSigningInput s.aid typ claims = .ok input :=
    ⟨_, by simp [compactSigningInput, ht, ensure]; rfl⟩
  obtain ⟨raw, hr⟩ := Option.isSome_iff_exists.mp
    (h.signs (rawTarget s.aid.algorithm (asBytes input)))
  exact ⟨input ++ "." ++ encodeBase64Url raw, by
    simp [Aitp.signCompact, hi, Signer.signRaw, hr]⟩

end Signer.Total

end Aitp
