import Mathlib.Data.List.Basic

/-! # Error codes

`core/error.rs`: the codes of the core registry and their wire strings.
-/

namespace Aitp

inductive ErrorCode where
  | invalidEnvelope
  | invalidSignature
  | replayDetected
  | timestampExpired
  | unknownVersion
  | tokenAlgMismatch
  | tokenTypMismatch
  | unknownField
  | identityFailed
  | challengeRefused
  | manifestExpired
  | manifestSignatureInvalid
  | manifestPopFailed
  | manifestVersionUnknown
  | trustFailed
  | policyViolation
  | keyResolutionFailed
  | incompatibleTrustAnchors
  | incompatibleIdentityType
  | popVerificationFailed
  | nonceMismatch
  | audienceMismatch
  | grantOverflow
  | insufficientGrants
  | handshakeModeUnsupported
  | tctExpired
  | popChallengeInvalid
  | popResponseInvalid
  | delegationAudienceMismatch
  | delegationScopeExceeded
  | delegationInvalidVoucher
  | delegationSourceTctRevoked
  | delegationInvalidSignature
  | delegationExpired
  | delegationPopFailed
  | delegationMultihopNotSupported
  | manifestNotFound
  | tctSignatureInvalid
  | tctRevoked
  | tctExpiresAfterManifest
  | manifestInvalid
  | revocationSnapshotInvalid
  | revocationSnapshotSignatureInvalid
  | peerMismatch
  deriving DecidableEq

namespace ErrorCode

def all : List ErrorCode :=
  [invalidEnvelope, invalidSignature, replayDetected, timestampExpired, unknownVersion,
    tokenAlgMismatch, tokenTypMismatch, unknownField, identityFailed, challengeRefused,
    manifestExpired, manifestSignatureInvalid, manifestPopFailed, manifestVersionUnknown,
    trustFailed, policyViolation, keyResolutionFailed, incompatibleTrustAnchors,
    incompatibleIdentityType, popVerificationFailed, nonceMismatch, audienceMismatch,
    grantOverflow, insufficientGrants, handshakeModeUnsupported, tctExpired, popChallengeInvalid,
    popResponseInvalid, delegationAudienceMismatch, delegationScopeExceeded,
    delegationInvalidVoucher, delegationSourceTctRevoked, delegationInvalidSignature,
    delegationExpired, delegationPopFailed, delegationMultihopNotSupported, manifestNotFound,
    tctSignatureInvalid, tctRevoked, tctExpiresAfterManifest, manifestInvalid,
    revocationSnapshotInvalid, revocationSnapshotSignatureInvalid, peerMismatch]

def asStr : ErrorCode → String
  | invalidEnvelope => "INVALID_ENVELOPE"
  | invalidSignature => "INVALID_SIGNATURE"
  | replayDetected => "REPLAY_DETECTED"
  | timestampExpired => "TIMESTAMP_EXPIRED"
  | unknownVersion => "UNKNOWN_VERSION"
  | tokenAlgMismatch => "TOKEN_ALG_MISMATCH"
  | tokenTypMismatch => "TOKEN_TYP_MISMATCH"
  | unknownField => "UNKNOWN_FIELD"
  | identityFailed => "IDENTITY_FAILED"
  | challengeRefused => "CHALLENGE_REFUSED"
  | manifestExpired => "MANIFEST_EXPIRED"
  | manifestSignatureInvalid => "MANIFEST_SIGNATURE_INVALID"
  | manifestPopFailed => "MANIFEST_POP_FAILED"
  | manifestVersionUnknown => "MANIFEST_VERSION_UNKNOWN"
  | trustFailed => "TRUST_FAILED"
  | policyViolation => "POLICY_VIOLATION"
  | keyResolutionFailed => "KEY_RESOLUTION_FAILED"
  | incompatibleTrustAnchors => "INCOMPATIBLE_TRUST_ANCHORS"
  | incompatibleIdentityType => "INCOMPATIBLE_IDENTITY_TYPE"
  | popVerificationFailed => "POP_VERIFICATION_FAILED"
  | nonceMismatch => "NONCE_MISMATCH"
  | audienceMismatch => "AUDIENCE_MISMATCH"
  | grantOverflow => "GRANT_OVERFLOW"
  | insufficientGrants => "INSUFFICIENT_GRANTS"
  | handshakeModeUnsupported => "HANDSHAKE_MODE_UNSUPPORTED"
  | tctExpired => "TCT_EXPIRED"
  | popChallengeInvalid => "POP_CHALLENGE_INVALID"
  | popResponseInvalid => "POP_RESPONSE_INVALID"
  | delegationAudienceMismatch => "DELEGATION_AUDIENCE_MISMATCH"
  | delegationScopeExceeded => "DELEGATION_SCOPE_EXCEEDED"
  | delegationInvalidVoucher => "DELEGATION_INVALID_VOUCHER"
  | delegationSourceTctRevoked => "DELEGATION_SOURCE_TCT_REVOKED"
  | delegationInvalidSignature => "DELEGATION_INVALID_SIGNATURE"
  | delegationExpired => "DELEGATION_EXPIRED"
  | delegationPopFailed => "DELEGATION_POP_FAILED"
  | delegationMultihopNotSupported => "DELEGATION_MULTIHOP_NOT_SUPPORTED"
  | manifestNotFound => "MANIFEST_NOT_FOUND"
  | tctSignatureInvalid => "TCT_SIGNATURE_INVALID"
  | tctRevoked => "TCT_REVOKED"
  | tctExpiresAfterManifest => "TCT_EXPIRES_AFTER_MANIFEST"
  | manifestInvalid => "MANIFEST_INVALID"
  | revocationSnapshotInvalid => "REVOCATION_SNAPSHOT_INVALID"
  | revocationSnapshotSignatureInvalid => "REVOCATION_SNAPSHOT_SIGNATURE_INVALID"
  | peerMismatch => "PEER_MISMATCH"

/-- `FromStr for ErrorCode`. -/
def fromStr (s : String) : Option ErrorCode :=
  all.find? fun c => c.asStr == s

end ErrorCode

end Aitp
