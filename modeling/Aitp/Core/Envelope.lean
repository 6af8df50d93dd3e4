import Aitp.Core.CheckedJson
import Aitp.Json.Reserialise
import Aitp.Core.Identifiers
import Aitp.Core.Time
import Aitp.Foundation.Result

/-! # The message envelope

`core/envelope.rs`: the typed envelope, its wire parser and its signing input.
-/

namespace Aitp

def protocolVersion : String := "aitp/0.3"

inductive MessageType where
  | mutualHello
  | mutualHelloAck
  | mutualCommit
  | mutualCommitAck
  | tct
  | popChallenge
  | popResponse
  | error
  | identityPresentation
  deriving DecidableEq

namespace MessageType

def asWireStr : MessageType → String
  | mutualHello => "mutual_hello"
  | mutualHelloAck => "mutual_hello_ack"
  | mutualCommit => "mutual_commit"
  | mutualCommitAck => "mutual_commit_ack"
  | tct => "tct"
  | popChallenge => "pop_challenge"
  | popResponse => "pop_response"
  | error => "error"
  | identityPresentation => "identity_presentation"

def all : List MessageType :=
  [mutualHello, mutualHelloAck, mutualCommit, mutualCommitAck, tct, popChallenge, popResponse,
    error, identityPresentation]

/-- The variant with a given wire string. -/
def ofWireStr (s : String) : Option MessageType :=
  all.find? fun t => t.asWireStr == s

/-- The derived `Deserialize`. -/
def decode (v : Json) : Option MessageType :=
  (Serde.variantName v).bind ofWireStr

theorem asWireStr_of_ofWireStr {s : String} {t : MessageType} (h : ofWireStr s = some t) :
    t.asWireStr = s := by
  simpa using List.find?_some h

theorem asWireStr_injective {t t' : MessageType} (h : t.asWireStr = t'.asWireStr) : t = t' := by
  cases t <;> cases t' <;> first | rfl | exact absurd h (by decide)

end MessageType

/-- `ExtensionsMap`: the members of a JSON object. -/
abbrev ExtensionsMap := List (String × Json)

/-- `AitpEnvelope`; `sender` holds the `agent_id` of the source's `Sender`. -/
structure AitpEnvelope where
  version : String
  messageType : MessageType
  messageId : Uuid
  timestamp : Timestamp
  sender : Aid
  payload : Json
  extensions : Option ExtensionsMap
  signature : String

namespace AitpEnvelope

def unsigned (sender : Aid) (messageType : MessageType) (payload : Json) (messageId : Uuid)
    (timestamp : Timestamp) : AitpEnvelope where
  version := protocolVersion
  messageType := messageType
  messageId := messageId
  timestamp := timestamp
  sender := sender
  payload := payload
  extensions := none
  signature := ""

end AitpEnvelope

def aitpEnvelopeMembers : List String :=
  ["version", "message_type", "message_id", "timestamp", "sender", "payload", "extensions",
    "signature"]

inductive EnvelopeStructureError where
  | payloadNotObject
  | negativeTimestamp (timestamp : Timestamp)
  | signatureFormat
  deriving DecidableEq

/-- `EnvelopeParseError`. `undecodable` is a failure of `serde_json::from_value`, which the source
reports as `UnknownField` or `Malformed` with the deserialiser's own text. -/
inductive EnvelopeParseError where
  | unknownVersion (found : String)
  | unknownField (field : String)
  | malformed (reason : String)
  | undecodable
  | structure (error : EnvelopeStructureError)
  deriving DecidableEq

def envelopeSignatureB64Len : ℕ := 86

/-- The signature without its algorithm tag. -/
def untagged (signature : String) : String :=
  match stripPrefix "ed25519." signature with
  | some s => s
  | none => (stripPrefix "p256." signature).getD signature

def checkUnsignedEnvelopeStructure (envelope : AitpEnvelope) :
    Except EnvelopeStructureError Unit := do
  ensure envelope.payload.isObject .payloadNotObject
  ensure (decide (0 ≤ envelope.timestamp)) (.negativeTimestamp envelope.timestamp)

def checkEnvelopeStructure (envelope : AitpEnvelope) : Except EnvelopeStructureError Unit := do
  checkUnsignedEnvelopeStructure envelope
  let b64 := untagged envelope.signature
  ensure (b64.length == envelopeSignatureB64Len && b64.toList.all Base64Url.isBase64Url)
    .signatureFormat

/-- The fields of `Sender`. -/
def senderFields : List FieldSpec := [⟨"agent_id", .required⟩]

/-- `Deserialize for Sender`. -/
def decodeSender (v : Json) : Option Aid :=
  match Serde.structFields senderFields v with
  | some [some (.str s)] => Aid.parse s
  | _ => none

/-- The fields of `AitpEnvelope`. -/
def envelopeFields : List FieldSpec :=
  [⟨"version", .required⟩, ⟨"message_type", .required⟩, ⟨"message_id", .required⟩,
    ⟨"timestamp", .required⟩, ⟨"sender", .required⟩, ⟨"payload", .required⟩,
    ⟨"extensions", .default⟩, ⟨"signature", .required⟩]

/-- `Deserialize for AitpEnvelope`. -/
def decodeEnvelope (v : Json) : Option AitpEnvelope :=
  match Serde.structFields envelopeFields v with
  | some [some (.str version), some messageType, some (.str messageId), some timestamp,
      some sender, some payload, extensions, some (.str signature)] => do
    let messageType ← MessageType.decode messageType
    let messageId ← (Uuid.parseV4 messageId).toOption
    let timestamp ← Serde.i64 timestamp
    let sender ← decodeSender sender
    let extensions ← Serde.optional Serde.map extensions
    return { version, messageType, messageId, timestamp, sender, payload, extensions, signature }
  | _ => none

/-- The `version` check of `parse_envelope_wire`. -/
def checkVersion : Option Json → Except EnvelopeParseError Unit
  | some (.str v) =>
    ensure (v == protocolVersion) (.unknownVersion (String.ofList (Json.str v).text))
  | some other => throw (.unknownVersion (String.ofList other.text))
  | none => throw (.unknownVersion "<absent>")

/-- `check_members`, failing with the offending field. -/
def ensureMembers {ε : Type} (value : Json) (allowed : List String) (e : String → ε) :
    Except ε Unit :=
  match checkMembers value allowed with
  | some field => .error (e field)
  | none => .ok ()

@[simp] theorem mapErr_ensureMembers {ε ε' : Type} (f : ε → ε') (value : Json)
    (allowed : List String) (e : String → ε) :
    mapErr f (ensureMembers value allowed e) = ensureMembers value allowed fun m => f (e m) := by
  unfold ensureMembers
  cases checkMembers value allowed <;> rfl

theorem ensureMembers_eq_ok {ε : Type} {value : Json} {allowed : List String} {e : String → ε}
    {u : Unit} : ensureMembers value allowed e = .ok u ↔ checkMembers value allowed = none := by
  unfold ensureMembers
  cases checkMembers value allowed <;> simp

def parseEnvelopeWire (value : CheckedJson) : Except EnvelopeParseError AitpEnvelope := do
  ensure value.value.isObject (.malformed "envelope is not a JSON object")
  checkVersion (value.value.get "version")
  ensureMembers value.value aitpEnvelopeMembers .unknownField
  ensure ((value.value.get "extensions").all Json.isObject)
    (.malformed "extensions: must be a JSON object")
  let envelope ← okOr (decodeEnvelope value.value) .undecodable
  mapErr .structure (checkEnvelopeStructure envelope)
  return envelope

namespace AitpEnvelope

/-- `Serialize for AitpEnvelope`. -/
def toValue (e : AitpEnvelope) : Json :=
  .obj <| Serde.written envelopeFields
    [some (.str e.version), some (.str e.messageType.asWireStr),
      some (.str e.messageId.hyphenated), some (.int e.timestamp),
      some (.obj [("agent_id", .str e.sender.value)]), some e.payload,
      e.extensions.map .obj, some (.str e.signature)]

end AitpEnvelope

def envelopeSigningDomainTag : Bytes := asBytes "aitp-envelope-v2"

/-- The signing input of an envelope given as a JSON object. -/
def signingInputOf (v : Json) : Bytes :=
  envelopeSigningDomainTag ++ 0 :: (v.remove "signature").jcs

def envelopeSigningInput (envelope : AitpEnvelope) : Bytes :=
  signingInputOf envelope.toValue

end Aitp
