import Aitp.Spiffe.Vouching

/-! # Minted JWT-SVIDs

A token as a trust domain mints it, as the tests of `spiffe.rs` do: whatever its claims are, it is
read back as it was minted, so that it vouches for exactly what it says.
-/

namespace Aitp

/-- An `aud` as it is written. -/
def Aud.toValue : Aud → Json
  | single a => .str a
  | multi as => stringsValue as

def JwtSvidClaims.toValue (c : JwtSvidClaims) : Json :=
  .obj [("sub", .str c.sub), ("aud", c.aud.toValue), ("exp", .int c.exp), ("iat", .int c.iat),
    ("nonce", .str c.nonce), ("cnf", .obj [("jkt", .str c.jkt)])]

def jwtSvidHeader (alg kid : String) : Json :=
  .obj [("alg", .str alg), ("kid", .str kid), ("typ", .str "JWT")]

/-- The input of the signature of a minted token. -/
def jwtSvidInput (alg kid : String) (claims : JwtSvidClaims) : String :=
  encodeBase64Url (utf8 (jwtSvidHeader alg kid).text) ++ "." ++
    encodeBase64Url (utf8 claims.toValue.text)

/-- A minted token, with a signature. -/
def mintJwtSvid (alg kid : String) (claims : JwtSvidClaims) (sig : Bytes) : String :=
  jwtSvidInput alg kid claims ++ "." ++ encodeBase64Url sig

variable {P : Primitives} {J : Jose} {X : X509} {alg kid : String} {claims : JwtSvidClaims}
  {sig : Bytes}

theorem Aud.decode_toValue (aud : Aud) : Aud.decode aud.toValue = some aud := by
  cases aud with
  | single a => rfl
  | multi as =>
    have hs : (Aud.multi as).toValue.asStr = none := rfl
    have hd : decodeStrings (Aud.multi as).toValue = some as := decodeStrings_stringsValue as
    rw [Aud.decode, hs, hd]
    rfl

theorem decodeJwtSvidClaims_toValue (hx : claims.exp.Fits) (hi : claims.iat.Fits) :
    decodeJwtSvidClaims claims.toValue = some claims := by
  have hf : Serde.openStructFields jwtSvidClaimsFields claims.toValue =
      some [some (.str claims.sub), some claims.aud.toValue, some (.int claims.exp),
        some (.int claims.iat), some (.str claims.nonce),
        some (.obj [("jkt", .str claims.jkt)])] := rfl
  have hj : decodeOidcCnf (.obj [("jkt", .str claims.jkt)]) = some claims.jkt := rfl
  simp only [decodeJwtSvidClaims, hf, Aud.decode_toValue, i64_of_fits hx, i64_of_fits hi, hj,
    Json.asStr]
  rfl

theorem JwtSvidClaims.document_text (hP : P.ReadsText) (hx : claims.exp.Fits)
    (hi : claims.iat.Fits) : P.document (utf8 claims.toValue.text) = some claims.toValue := by
  have ha : claims.aud.toValue.readable P.keeps 126 = true := by
    cases claims.aud with
    | single a => rfl
    | multi as => exact readable_stringsValue as
  refine hP.document_text (Json.readable_obj ?_)
  simp only [List.forall_mem_cons]
  exact ⟨rfl, ha, hx.readable_int hP 126, hi.readable_int hP 126, rfl, rfl, List.forall_mem_nil _⟩

theorem readJwtSvidHeader_minted (hP : P.ReadsText) (ha : alg ∈ jwtSvidAlgs) :
    readJwtSvidHeader P X (encodeBase64Url (utf8 (jwtSvidHeader alg kid).text)) =
      .ok (alg, kid) := by
  have hd : P.document (utf8 (jwtSvidHeader alg kid).text) = some (jwtSvidHeader alg kid) :=
    hP.document_text rfl
  have hm : Serde.map (jwtSvidHeader alg kid) =
      some [("alg", .str alg), ("kid", .str kid), ("typ", .str "JWT")] :=
    Serde.map_of_distinct rfl
  simp only [readJwtSvidHeader, decodeStrict_encodeBase64Url, okOr_some, ok_bind, hd, hm,
    Option.bind_some, bind_eq_ok, forEach_eq_ok, ensure_eq_ok, okOr_eq_ok, pure_eq_ok,
    exists_const, ifPresent_eq_ok]
  refine ⟨by simp, alg, rfl, by simpa using ha, ?_, kid, rfl, rfl⟩
  rintro typ ht
  obtain rfl : Json.str "JWT" = typ := Option.some.inj ht
  decide

theorem readJwtSvid_minted (hP : P.ReadsText) (ha : alg ∈ jwtSvidAlgs) (hx : claims.exp.Fits)
    (hi : claims.iat.Fits) : readJwtSvid P X (mintJwtSvid alg kid claims sig) =
      some ⟨alg, kid, asBytes (jwtSvidInput alg kid claims), sig, claims⟩ := by
  have hs : segments (mintJwtSvid alg kid claims sig) =
      [encodeBase64Url (utf8 (jwtSvidHeader alg kid).text),
        encodeBase64Url (utf8 claims.toValue.text), encodeBase64Url sig] :=
    segments_join (dot_notMem_encodeChars _) (dot_notMem_encodeChars _) (dot_notMem_encodeChars _)
  have hd := JwtSvidClaims.document_text hP hx hi
  simp only [readJwtSvid, hs, readJwtSvidHeader_minted hP ha, Except.toOption,
    decodeStrict_encodeBase64Url, Option.bind_eq_bind, hd, Option.bind_some,
    decodeJwtSvidClaims_toValue hx hi]
  rfl

/-- A minted token vouches for exactly what it says, if a key of the bundle signed it. -/
theorem jwtVouched_minted (hP : P.ReadsText) (ha : alg ∈ jwtSvidAlgs) (hx : claims.exp.Fits)
    (hi : claims.iat.Fits) {bundle : SpiffeBundle} {identity : IdentityDescriptor}
    {ctx : SpiffeVerifyContext} (hp : identity.proof = mintJwtSvid alg kid claims sig) :
    JwtVouched P J X bundle identity ctx ↔
      (∃ key ∈ bundle.jwtAuthorities, key.kid = some kid ∧
        verifyJwsSignature J key alg (asBytes (jwtSvidInput alg kid claims)) sig = .ok ()) ∧
      claims.Says P identity.subject ctx := by
  rw [JwtVouched, hp, readJwtSvid_minted hP ha hx hi]
  simp only [Option.some.injEq, exists_eq_left', JwtSvid.SignedBy]

end Aitp
