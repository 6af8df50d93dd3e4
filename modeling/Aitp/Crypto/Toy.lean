import Aitp.Crypto.Jws
import Aitp.Json.Parse

/-! # Executable primitives

A stand-in for the third-party code that can be evaluated: real UTF-8 and JSON,
with signatures and digests that depend on lengths only. The verifiers are run
on concrete documents with it.
-/

namespace Aitp

/-- The text a byte string encodes in UTF-8. -/
def ofUtf8 : ℕ → Bytes → Option (List Char)
  | _, [] => some []
  | 0, _ => none
  | n + 1, bs =>
    match (bs.take 4).toByteArray.utf8DecodeChar? 0 with
    | some c => (ofUtf8 n (bs.drop c.utf8Size)).map (c :: ·)
    | none => none

theorem utf8DecodeChar_take (c : Char) (bs : Bytes) :
    ((String.utf8EncodeChar c ++ bs).take 4).toByteArray.utf8DecodeChar? 0 = some c := by
  have hl : (String.utf8EncodeChar c).length ≤ 4 := by
    simpa using c.utf8Size_le_four
  rw [List.take_append, List.take_of_length_le hl, List.toByteArray_append]
  exact ByteArray.utf8DecodeChar?_utf8EncodeChar_append

theorem ofUtf8_utf8 {cs : List Char} {n : ℕ} (hn : (utf8 cs).length ≤ n) :
    ofUtf8 n (utf8 cs) = some cs := by
  induction cs generalizing n with
  | nil => cases n <;> rfl
  | cons c cs ih =>
    have hc : utf8 (c :: cs) = String.utf8EncodeChar c ++ utf8 cs := by simp [utf8]
    have hs : (String.utf8EncodeChar c).length = c.utf8Size := by simp
    have hp : 0 < c.utf8Size := c.utf8Size_pos
    rw [hc, List.length_append, hs] at hn
    obtain ⟨b, bs, hb⟩ := List.exists_cons_of_length_pos (hs ▸ hp)
    obtain ⟨m, rfl⟩ : ∃ m, n = m + 1 := ⟨n - 1, by omega⟩
    have ht := ih (n := m) (by omega)
    have hd : (String.utf8EncodeChar c ++ utf8 cs).drop c.utf8Size = utf8 cs := by
      rw [← hs, List.drop_left]
    rw [hc, hb, List.cons_append, ofUtf8, ← List.cons_append, ← hb, utf8DecodeChar_take]
    · simp only [hd, ht, Option.map_some]
    · exact List.cons_ne_nil _ _

/-- The bytes a target is made of. -/
def Target.bytes : Target → Bytes
  | message bytes => bytes
  | digest preimage => preimage

namespace Toy

/-- The one signature accepted. -/
def signature (t : Target) : Bytes :=
  List.replicate rawSignatureLen (UInt8.ofNat t.bytes.length)

def primitives : Primitives where
  first bs := (ofUtf8 bs.length bs).bind fun cs =>
    (readValue cs.length cs).map fun (v, rest) => (v, rest.all [' ', '\t', '\n', '\r'].contains)
  isPoint _ _ := true
  affine bs := (bs, bs)
  verify _ t raw := decide (raw = signature t)
  sha256 bs := List.replicate 32 (UInt8.ofNat bs.length)
  url s := some ⟨s, none⟩

/-- A backend for any agent. -/
def signer (aid : Aid) : Signer where
  aid := aid
  sign t := some (signature t)

/-- The agent of the all-zero key. -/
def aid : Aid := ⟨"aid:pubkey:AAAAAAAAAAAAAAAAAAAAAAAAAAAAAAAAAAAAAAAAAAA", by decide⟩

theorem stripPrefix_ofList (p : String) (cs : List Char) : stripPrefix p (String.ofList cs) =
    if p.toList.isPrefixOf cs then some (String.ofList (cs.drop p.toList.length)) else none := by
  simp [stripPrefix]

/-- Agents are indexed by literals. -/
instance neZero_four : @NeZero ℕ Zero.ofOfNat0 4 := ⟨by decide⟩

/-- Agents of different keys. -/
def agent (n : Fin 4) : Aid :=
  ⟨String.ofList ("aid:pubkey:".toList ++ ['A', 'B', 'C', 'D'].get n :: List.replicate 42 'A'),
    by revert n; decide +kernel⟩

theorem identifier_agent (n : Fin 4) : (agent n).identifier =
    String.ofList (['A', 'B', 'C', 'D'].get n :: List.replicate 42 'A') := by
  have hv : (agent n).value = String.ofList
      ("aid:pubkey:".toList ++ ['A', 'B', 'C', 'D'].get n :: List.replicate 42 'A') := rfl
  have he : ∀ n, aidPubkeyEd25519Prefix.toList.isPrefixOf
      ("aid:pubkey:".toList ++ ['A', 'B', 'C', 'D'].get n :: List.replicate 42 'A') = false := by
    decide +kernel
  have hp : ∀ n, aidPubkeyP256Prefix.toList.isPrefixOf
      ("aid:pubkey:".toList ++ ['A', 'B', 'C', 'D'].get n :: List.replicate 42 'A') = false := by
    decide +kernel
  simp only [Aid.identifier, hv, stripPrefix_ofList, he, hp, Bool.false_eq_true, if_false,
    String.toList_ofList, aidPubkeyPrefix, List.drop_left]

/-- The key of an agent. -/
def agentKey (n : Fin 4) : VerifyingKey := ⟨(agent n).algorithm, (agent n).pubkeyCompressedBytes⟩

theorem agentKey_ne : agentKey 0 ≠ agentKey 1 := by
  simp only [agentKey, ne_eq, VerifyingKey.mk.injEq, not_and]
  rintro -
  simp only [Aid.pubkeyCompressedBytes, identifier_agent, String.toList_ofList]
  decide +kernel

theorem agent_injective : Function.Injective agent := by
  have h : ∀ n m : Fin 4, (agent n).value = (agent m).value → n = m := by decide +kernel
  exact fun n m he => h n m (congrArg Aid.value he)

theorem agent_ne : agent 1 ≠ agent 0 := fun h => agentKey_ne (by simp only [agentKey, h])

/-- The version 4 identifier with one free digit. -/
def uuid (n : Fin 16) : Uuid :=
  ⟨n.val :: List.replicate 11 0 ++ 4 :: List.replicate 3 0 ++ 8 :: List.replicate 15 0, by simp,
    by simp⟩

/-- A token signed by an agent. -/
def signed (aid : Aid) (typ : String) (claims : Json) : String :=
  (signCompact (signer aid) typ claims).toOption.getD ""

theorem signCompact_signer {aid : Aid} {typ : String} {claims : Json}
    (h : typNeedsNoEscape typ = true) :
    signCompact (signer aid) typ claims = .ok (signed aid typ claims) := by
  simp [signed, signCompact, compactSigningInput, h, ensure, Signer.signRaw, signer, okOr, bind,
    Except.bind, pure, Except.pure, Except.toOption]

theorem first_text (v : Json) : primitives.first (utf8 v.text) = some (v, true) := by
  have hr := Json.readValue_text v v.text.length [] le_rfl stops_nil
  rw [List.append_nil] at hr
  simp [primitives, ofUtf8_utf8 le_rfl, hr]

theorem document_text (v : Json) : primitives.document (utf8 v.text) = some v := by
  rw [Primitives.document, first_text]

theorem checkV4_uuid (n : Fin 16) : (uuid n).checkV4 = .ok () := by
  revert n
  decide

/-- A version 4 identifier as it is drawn. -/
def drawnV4 (n : Fin 16) : RandomV4 := ⟨uuid n, checkV4_uuid n⟩

theorem readsText : primitives.ReadsText where
  int z _ _ := document_text (.int z)
  rounded z _ _ := by
    simp [Primitives.readsJcs, Primitives.readsNumber, document_text, Json.canon, Json.isNumber]
  text v h := by
    have hk : v.readable primitives.keeps nestingLimit = true := by
      refine Json.readable_mono (fun n hn => ?_) v le_rfl h
      simpa [Primitives.keeps, Primitives.readsNumber, document_text] using hn
    rw [document_text, Primitives.reread_of_keeps hk]

theorem signer_lawful (aid : Aid) :
    (signer aid).Lawful primitives ⟨aid.algorithm, aid.pubkeyCompressedBytes⟩ := by
  refine ⟨VerifyingKey.fromAid_eq_ok.mpr ⟨rfl, rfl⟩, ?_⟩
  rintro t raw h
  obtain rfl := Option.some.inj h
  exact ⟨by simp [signature], by simp [primitives]⟩

end Toy

end Aitp
