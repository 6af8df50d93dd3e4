import Aitp.Manifest.Types
import Aitp.Tct.Types

/-! # Handshake errors

`handshake/error.rs`.
-/

namespace Aitp

inductive IdentityVerifyError where
  | rejected (reason : String)
  | keyUnavailable
  deriving DecidableEq

inductive HandshakeError where
  | invalidEnvelope (reason : String)
  | invalidSignature
  | incompatibleTrustAnchors
  | manifest (error : ManifestError)
  | identity (reason : String)
  | keyResolutionFailed (issuer : String)
  | nonceMismatch
  | peerMismatch
  | popVerificationFailed
  | insufficientGrants
  | grantOverflow
  | tct (error : TctError)
  | crypto (error : CryptoError)
  | state (reason : String)
  | rng
  | policyViolation
  | unknownField (field : String)
  | identityVerifier (error : IdentityVerifyError)
  | grantPolicy
  deriving DecidableEq

end Aitp
