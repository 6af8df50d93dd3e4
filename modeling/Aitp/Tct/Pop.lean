import Aitp.Tct.Types
import Aitp.Crypto.RoundTrip

/-! # Proofs of possession

`tct/pop.rs`: the holder of a key signs the bytes that a challenger's nonce
encodes. The handshake's second round makes its proofs the same way.
-/

namespace Aitp

variable {ε : Type}

/-- Sign the bytes a nonce encodes. -/
def signNonce (key : Signer) (nonce : String) (malformed : ε) (signing : CryptoError → ε) :
    Except ε String := do
  let nonceBytes ← okOr (decodeStrict nonce) malformed
  mapErr signing (key.signJcs nonceBytes)

/-- Verify a signature over the bytes a nonce encodes. -/
def verifyNonce (P : Primitives) (key : VerifyingKey) (nonce signature : String) (failed : ε) :
    Except ε Unit := do
  let nonceBytes ← okOr (decodeStrict nonce) failed
  let sig ← mapErr (fun _ => failed) (Signature.parse signature)
  mapErr (fun _ => failed) (key.verifyJcs P nonceBytes sig)

structure PopChallenge where
  tctJti : Uuid
  nonce : String
  expiresAt : Timestamp

structure PopResponse where
  tctJti : Uuid
  nonceEcho : String
  popSignature : String

def signPopResponse (challenge : PopChallenge) (holderKey : Signer) :
    Except TctError PopResponse := do
  let sig ← signNonce holderKey challenge.nonce .popFailed .crypto
  return ⟨challenge.tctJti, challenge.nonce, sig⟩

def verifyPopResponse (P : Primitives) (challenge : PopChallenge) (response : PopResponse)
    (claims : TctClaims) (now : Timestamp) : Except TctError Unit := do
  ensure (decide (response.tctJti = challenge.tctJti) && decide (response.tctJti = claims.jti))
    .popJtiMismatch
  ensure (response.nonceEcho == challenge.nonce) .popNonceMismatch
  ensure (!now.isInTheFuture challenge.expiresAt) .popChallengeExpired
  let holderPk ← mapErr (fun _ => .cnfMalformed) (VerifyingKey.fromAid P claims.sub)
  ensure (claims.jkt == holderPk.toJwkThumbprintSha256 P) .cnfMalformed
  verifyNonce P holderPk challenge.nonce response.popSignature .popFailed

variable {P : Primitives} {signer : Signer} {key : VerifyingKey} {nonce sig : String}

theorem signNonce_ok {malformed : ε} {signing : CryptoError → ε}
    (h : signNonce signer nonce malformed signing = .ok sig) :
    ∃ bytes, decodeStrict nonce = some bytes ∧ signer.signJcs bytes = .ok sig := by
  simpa only [signNonce, bind_eq_ok, okOr_eq_ok, mapErr_eq_ok] using h

theorem verifyNonce_eq_ok {failed : ε} {u : Unit} : verifyNonce P key nonce sig failed = .ok u ↔
    ∃ bytes, decodeStrict nonce = some bytes ∧ Signature.parse sig = .ok sig ∧
      key.verifyJcs P bytes sig = .ok u := by
  simp only [verifyNonce, bind_eq_ok, okOr_eq_ok, mapErr_eq_ok]
  constructor
  · rintro ⟨bytes, hb, s, hs, hv⟩
    obtain rfl := Signature.eq_of_parse hs
    exact ⟨bytes, hb, hs, hv⟩
  · rintro ⟨bytes, hb, hs, hv⟩
    exact ⟨bytes, hb, sig, hs, hv⟩

theorem verifyNonce_signNonce {malformed failed : ε} {signing : CryptoError → ε}
    (hs : signer.Lawful P key) (h : signNonce signer nonce malformed signing = .ok sig) :
    verifyNonce P key nonce sig failed = .ok () := by
  obtain ⟨bytes, hb, hj⟩ := signNonce_ok h
  obtain ⟨hp, hv⟩ := signJcs_verifies hs hj
  exact verifyNonce_eq_ok.mpr ⟨bytes, hb, hp, hv⟩

end Aitp
