import Aitp.Handshake.StateMachine
import Aitp.Manifest.RoundTrip

/-! # Handshake payloads on the wire

`handshake/payloads.rs`: the members of each of the four payloads, what is written
for a payload and what is read of a received one. A payload is read back from what
was written for it.
-/

namespace Aitp

def mutualHelloPayloadMembers : List String :=
  ["identity", "manifest", "requested_grants", "pop_nonce", "extensions"]

def mutualHelloAckPayloadMembers : List String :=
  ["identity", "manifest", "requested_grants", "pop_nonce", "pop_nonce_echo", "extensions"]

/-- `MUTUAL_COMMIT_PAYLOAD_MEMBERS`, which are those of the payload that answers it. -/
def mutualCommitPayloadMembers : List String :=
  ["tct", "grant_voucher", "pop_signature", "pop_nonce_echo", "extensions"]

def mutualHelloPayloadFields : List FieldSpec :=
  [⟨"identity", .required⟩, ⟨"manifest", .required⟩, ⟨"requested_grants", .required⟩,
    ⟨"pop_nonce", .required⟩, ⟨"extensions", .default⟩]

def mutualHelloAckPayloadFields : List FieldSpec :=
  [⟨"identity", .required⟩, ⟨"manifest", .required⟩, ⟨"requested_grants", .required⟩,
    ⟨"pop_nonce", .required⟩, ⟨"pop_nonce_echo", .required⟩, ⟨"extensions", .default⟩]

def mutualCommitPayloadFields : List FieldSpec :=
  [⟨"tct", .required⟩, ⟨"grant_voucher", .default⟩, ⟨"pop_signature", .required⟩,
    ⟨"pop_nonce_echo", .required⟩, ⟨"extensions", .default⟩]

/-! ## Reading -/

def decodeMutualHelloPayload (v : Json) : Option MutualHelloPayload :=
  match Serde.structFields mutualHelloPayloadFields v with
  | some [some identity, some manifest, some requestedGrants, some popNonce, extensions] => do
    return {
      identity := ← decodeIdentityDescriptor identity
      manifest := ← decodeManifest manifest
      requestedGrants := ← decodeStrings requestedGrants
      popNonce := ← popNonce.asStr
      extensions := ← Serde.optional Serde.map extensions }
  | _ => none

def decodeMutualHelloAckPayload (v : Json) : Option MutualHelloAckPayload :=
  match Serde.structFields mutualHelloAckPayloadFields v with
  | some [some identity, some manifest, some requestedGrants, some popNonce, some popNonceEcho,
      extensions] => do
    return {
      identity := ← decodeIdentityDescriptor identity
      manifest := ← decodeManifest manifest
      requestedGrants := ← decodeStrings requestedGrants
      popNonce := ← popNonce.asStr
      popNonceEcho := ← popNonceEcho.asStr
      extensions := ← Serde.optional Serde.map extensions }
  | _ => none

def decodeMutualCommitPayload (v : Json) : Option MutualCommitPayload :=
  match Serde.structFields mutualCommitPayloadFields v with
  | some [some tct, grantVoucher, some popSignature, some popNonceEcho, extensions] => do
    return {
      tct := ← tct.asStr
      grantVoucher := ← Serde.optional Json.asStr grantVoucher
      popSignature := ← popSignature.asStr
      popNonceEcho := ← popNonceEcho.asStr
      extensions := ← Serde.optional Serde.map extensions }
  | _ => none

/-! ## Writing -/

def MutualHelloPayload.toValue (m : MutualHelloPayload) : Json :=
  .obj <| Serde.written mutualHelloPayloadFields
    [some m.identity.toValue, some m.manifest.toValue, some (stringsValue m.requestedGrants),
      some (.str m.popNonce), m.extensions.map .obj]

def MutualHelloAckPayload.toValue (m : MutualHelloAckPayload) : Json :=
  .obj <| Serde.written mutualHelloAckPayloadFields
    [some m.identity.toValue, some m.manifest.toValue, some (stringsValue m.requestedGrants),
      some (.str m.popNonce), some (.str m.popNonceEcho), m.extensions.map .obj]

def MutualCommitPayload.toValue (m : MutualCommitPayload) : Json :=
  .obj <| Serde.written mutualCommitPayloadFields
    [some (.str m.tct), m.grantVoucher.map .str, some (.str m.popSignature),
      some (.str m.popNonceEcho), m.extensions.map .obj]

/-! ## Reading what was written -/

theorem SvidType.decode_asStr (t : SvidType) : decode (.str t.asStr) = some t := by
  cases t <;> rfl

namespace IdentityDescriptor

variable {P : Primitives} {n : ℕ} {d : IdentityDescriptor}

theorem decode_toValue (h : Holdable P n d.extensions) :
    decodeIdentityDescriptor d.toValue = some d := by
  have hs : ∀ o : Option String, Serde.optional Json.asStr (o.map .str) = some o :=
    Serde.optional_map_of fun _ => ⟨by simp, rfl⟩
  have ht : Serde.optional SvidType.decode (d.svidType.map fun t => .str t.asStr) =
      some d.svidType :=
    Serde.optional_map_of (fun t => ⟨by simp, t.decode_asStr⟩) _
  have hx : Serde.optional decodeStrings (d.x5c.map stringsValue) = some d.x5c :=
    Serde.optional_map_of (fun l => ⟨by simp [stringsValue], decodeStrings_stringsValue l⟩) _
  unfold decodeIdentityDescriptor toValue
  rw [Serde.structFields_obj_written (by decide) rfl (by simp [identityDescriptorFields])]
  simp [IdentityKind.decode_asStr, Json.asStr, hs, ht, hx, h.optional_map]

theorem readable_toValue (h : Holdable P (n + 1) d.extensions) :
    d.toValue.readable P.keeps (n + 2) = true := by
  refine Serde.readable_written ?_
  have ht : ((d.svidType.map fun t => Json.str t.asStr).all (Json.readable P.keeps · (n + 1))) =
      true := by
    cases d.svidType <;> simp
  simp only [List.all_cons, List.all_nil, Option.all_some, Json.readable_str,
    Json.readable_map_str, readable_map_stringsValue, h.all_readable, ht, Bool.and_true]

theorem distinctKeys_toValue (h : Holdable P n d.extensions) : d.toValue.distinctKeys = true := by
  refine Serde.distinctKeys_written_of_all (by decide) ?_
  have hx := h.all_distinctKeys
  have ht : ((d.svidType.map fun t => Json.str t.asStr).all Json.distinctKeys) = true := by
    cases d.svidType <;> rfl
  simp only [List.all_cons, List.all_nil, Option.all_some, Json.distinctKeys_str,
    Json.all_distinctKeys_map_str, all_distinctKeys_map_stringsValue, hx, ht, Bool.and_true]

end IdentityDescriptor

/-- A HELLO that is read as it was written: its maps leave the levels that it and its envelope
take. -/
structure MutualHelloPayload.Writable (P : Primitives) (m : MutualHelloPayload) : Prop where
  identity : Holdable P (nestingLimit - 3) m.identity.extensions
  manifest : m.manifest.Writable P (nestingLimit - 3)
  extensions : Holdable P (nestingLimit - 2) m.extensions

namespace MutualHelloPayload.Writable

variable {P : Primitives} {m : MutualHelloPayload}

theorem decode_toValue (h : m.Writable P) : decodeMutualHelloPayload m.toValue = some m := by
  unfold decodeMutualHelloPayload MutualHelloPayload.toValue
  rw [Serde.structFields_obj_written (by decide) rfl (by simp [mutualHelloPayloadFields])]
  simp [Json.asStr, IdentityDescriptor.decode_toValue h.identity, h.manifest.typed.decode_toValue,
    h.extensions.optional_map]

theorem readable_toValue (hP : P.ReadsText) (h : m.Writable P) :
    m.toValue.readable P.keeps (nestingLimit - 1) = true := by
  refine Serde.readable_written ?_
  have hi : m.identity.toValue.readable P.keeps 125 = true :=
    IdentityDescriptor.readable_toValue h.identity
  have hm : m.manifest.toValue.readable P.keeps 125 = true := h.manifest.readable_toValue hP
  have hx : (m.extensions.map Json.obj).all (Json.readable P.keeps · 125) = true :=
    h.extensions.all_readable
  simp only [List.all_cons, List.all_nil, Option.all_some, Json.readable_str,
    readable_stringsValue, hi, hm, hx, Bool.and_true]

theorem distinctKeys_toValue (h : m.Writable P) : m.toValue.distinctKeys = true := by
  refine Serde.distinctKeys_written_of_all (by decide) ?_
  simp only [List.all_cons, List.all_nil, Option.all_some, Json.distinctKeys_str,
    distinctKeys_stringsValue, IdentityDescriptor.distinctKeys_toValue h.identity,
    h.manifest.distinctKeys_toValue, h.extensions.all_distinctKeys, Bool.and_true]

end MutualHelloPayload.Writable

/-- An answer to a HELLO that is read as it was written. -/
structure MutualHelloAckPayload.Writable (P : Primitives) (m : MutualHelloAckPayload) : Prop where
  identity : Holdable P (nestingLimit - 3) m.identity.extensions
  manifest : m.manifest.Writable P (nestingLimit - 3)
  extensions : Holdable P (nestingLimit - 2) m.extensions

theorem MutualHelloAckPayload.decode_toValue {P : Primitives} {k n : ℕ} {m : MutualHelloAckPayload}
    (hi : Holdable P k m.identity.extensions) (hm : m.manifest.Typed)
    (hx : Holdable P n m.extensions) : decodeMutualHelloAckPayload m.toValue = some m := by
  unfold decodeMutualHelloAckPayload MutualHelloAckPayload.toValue
  rw [Serde.structFields_obj_written (by decide) rfl (by simp [mutualHelloAckPayloadFields])]
  simp [Json.asStr, IdentityDescriptor.decode_toValue hi, hm.decode_toValue, hx.optional_map]

namespace MutualHelloAckPayload.Writable

variable {P : Primitives} {m : MutualHelloAckPayload}

theorem decode_toValue (h : m.Writable P) : decodeMutualHelloAckPayload m.toValue = some m :=
  MutualHelloAckPayload.decode_toValue h.identity h.manifest.typed h.extensions

theorem readable_toValue (hP : P.ReadsText) (h : m.Writable P) :
    m.toValue.readable P.keeps (nestingLimit - 1) = true := by
  refine Serde.readable_written ?_
  have hi : m.identity.toValue.readable P.keeps 125 = true :=
    IdentityDescriptor.readable_toValue h.identity
  have hm : m.manifest.toValue.readable P.keeps 125 = true := h.manifest.readable_toValue hP
  have hx : (m.extensions.map Json.obj).all (Json.readable P.keeps · 125) = true :=
    h.extensions.all_readable
  simp only [List.all_cons, List.all_nil, Option.all_some, Json.readable_str,
    readable_stringsValue, hi, hm, hx, Bool.and_true]

theorem distinctKeys_toValue (h : m.Writable P) : m.toValue.distinctKeys = true := by
  refine Serde.distinctKeys_written_of_all (by decide) ?_
  simp only [List.all_cons, List.all_nil, Option.all_some, Json.distinctKeys_str,
    distinctKeys_stringsValue, IdentityDescriptor.distinctKeys_toValue h.identity,
    h.manifest.distinctKeys_toValue, h.extensions.all_distinctKeys, Bool.and_true]

end MutualHelloAckPayload.Writable

namespace MutualCommitPayload

variable {P : Primitives} {n : ℕ} {m : MutualCommitPayload}

theorem decode_toValue (h : Holdable P n m.extensions) :
    decodeMutualCommitPayload m.toValue = some m := by
  have hs : ∀ o : Option String, Serde.optional Json.asStr (o.map .str) = some o :=
    Serde.optional_map_of fun _ => ⟨by simp, rfl⟩
  unfold decodeMutualCommitPayload toValue
  rw [Serde.structFields_obj_written (by decide) rfl (by simp [mutualCommitPayloadFields])]
  simp [Json.asStr, hs, h.optional_map]

theorem readable_toValue (h : Holdable P n m.extensions) :
    m.toValue.readable P.keeps (n + 1) = true := by
  refine Serde.readable_written ?_
  simp only [List.all_cons, List.all_nil, Option.all_some, Json.readable_str,
    Json.readable_map_str, h.all_readable, Bool.and_true]

theorem distinctKeys_toValue (h : Holdable P n m.extensions) : m.toValue.distinctKeys = true := by
  refine Serde.distinctKeys_written_of_all (by decide) ?_
  simp only [List.all_cons, List.all_nil, Option.all_some, Json.distinctKeys_str,
    Json.all_distinctKeys_map_str, h.all_distinctKeys, Bool.and_true]

end MutualCommitPayload

end Aitp
