import Aitp.Crypto.Spelling
import Aitp.Crypto.Toy
import Aitp.Foundation.Ascii
import Aitp.Foundation.Separated
import Aitp.Handshake.PinnedKey
import Aitp.Renewal.Types

/-! # The inputs of the proofs of possession

`spiffe_x509_proof_input` of `spiffe.rs`, beside the pinned-key and the renewal input. Each of the
three is a domain tag and fields without zero bytes, a zero byte after each of them, and the bytes
of a nonce: the bytes that are signed say which proof they are for, between whom and of what.
-/

namespace Aitp

def spiffeX509ProofDomain : Bytes := asBytes "aitp-spiffe-x509-v1\x00"

/-- The text of the one error that a proof input reports. -/
def HandshakeError.identityText : HandshakeError → String
  | .identity reason => "identity verification failed: " ++ reason
  | _ => ""

/-- `spiffe_x509_proof_input`: `none` is the panic of the `expect`. -/
def spiffeX509ProofInput (senderAid receiverAid : Aid) (messageId : Uuid) (timestamp : Timestamp)
    (popNonce : String) : Except IdentityVerifyError (Option Bytes) := do
  let pinned ← mapErr (fun e => .rejected e.identityText)
    (pinnedKeyProofInput senderAid receiverAid messageId timestamp popNonce)
  return (pinned.dropPrefix? pinnedKeyProofDomain).map (spiffeX509ProofDomain ++ ·)

/-! ## Texts without zero bytes -/

/-- ASCII text without a NUL. -/
def IsPlain (cs : List Char) : Prop := ∀ c ∈ cs, c.toNat ≠ 0 ∧ c.toNat < 128

theorem isPlain_of_all {cs : List Char}
    (h : cs.all (fun c => decide (c.toNat ≠ 0 ∧ c.toNat < 128)) = true) : IsPlain cs :=
  fun c hc => of_decide_eq_true (List.all_eq_true.mp h c hc)

theorem IsPlain.zero_notMem {cs : List Char} (h : IsPlain cs) : 0 ∉ utf8 cs :=
  zero_notMem_utf8 (fun c hc => (h c hc).2) fun c hc => (h c hc).1

theorem isPlain_append {cs ds : List Char} (hc : IsPlain cs) (hd : IsPlain ds) :
    IsPlain (cs ++ ds) := by
  intro c h
  rcases List.mem_append.mp h with h | h
  · exact hc c h
  · exact hd c h

theorem isPlain_decoded {cs : List Char} (h : (Base64Url.decodeChars cs).isSome = true) :
    IsPlain cs := by
  obtain ⟨bs, hb⟩ := Option.isSome_iff_exists.mp h
  intro c hc
  rw [← Base64Url.encodeChars_of_decodeChars hb] at hc
  have hs := Base64Url.isBase64Url_of_mem_encodeChars hc
  simp only [Base64Url.isBase64Url, Base64Url.sextet] at hs
  split_ifs at hs <;> first | omega | simp at hs

theorem isPlain_value (aid : Aid) : IsPlain aid.value.toList := by
  obtain ⟨s, hv, -, hd, -⟩ := aid.exists_spelling
  have hh : ∀ s : Spelling, IsPlain s.head.toList := by
    rintro (_ | _ | _) <;> exact isPlain_of_all (by decide)
  rw [hv, String.toList_append]
  exact isPlain_append (hh s) (isPlain_decoded hd)

theorem isPlain_writeNibbles {ns : List ℕ} (hn : ∀ n ∈ ns, n < 16) (k : ℕ) :
    IsPlain (writeNibbles k ns) := by
  have hd : ∀ n < 16, (hexDigit n).toNat ≠ 0 ∧ (hexDigit n).toNat < 128 := by decide
  induction k generalizing ns with
  | zero => simp [writeNibbles, IsPlain]
  | succ k ih =>
    simp only [writeNibbles]
    split_ifs
    · exact List.forall_mem_cons.mpr ⟨by decide, ih hn⟩
    · cases ns with
      | nil => simp [IsPlain]
      | cons n ns =>
        obtain ⟨hlt, hns⟩ := List.forall_mem_cons.mp hn
        exact List.forall_mem_cons.mpr ⟨hd n hlt, ih hns⟩

theorem isPlain_hyphenated (u : Uuid) : IsPlain u.hyphenated.toList := by
  rw [Uuid.hyphenated, String.toList_ofList]
  exact isPlain_writeNibbles u.hex 36

theorem intText_injective {z w : ℤ} (h : intText z = intText w) : z = w := by
  rw [← intOfText_intText z, h, intOfText_intText]

theorem isPlain_intText (z : ℤ) : IsPlain (intText z) := by
  intro c hc
  have hn := isNumeral_of_mem_intText hc
  simp only [isNumeral, Char.isDigit, Bool.or_eq_true, Bool.and_eq_true, decide_eq_true_eq,
    beq_iff_eq] at hn
  rcases hn with (((hd | rfl) | rfl) | rfl) | rfl
  · have h0 := UInt32.le_iff_toNat_le.mp hd.1
    have h9 := UInt32.le_iff_toNat_le.mp hd.2
    have he : c.val.toNat = c.toNat := rfl
    have hz : ('0' : Char).val.toNat = 48 := rfl
    have hs : ('9' : Char).val.toNat = 57 := rfl
    omega
  all_goals decide

/-! ## What is proved, and the bytes that are signed for it -/

/-- What a proof of possession is about. -/
inductive ProofContext where
  | pinnedKey (sender receiver : Aid) (messageId : Uuid) (timestamp : Timestamp) (nonce : Bytes)
  | spiffeX509 (sender receiver : Aid) (messageId : Uuid) (timestamp : Timestamp) (nonce : Bytes)
  | renewal (iss : Aid) (jti : Uuid) (nonce : Bytes)

namespace ProofContext

/-- The bytes are the input of the proof, as its function computes it. -/
def SignedAs : ProofContext → Bytes → Prop
  | pinnedKey sender receiver messageId timestamp nonce, input =>
    ∃ popNonce, decodeStrict popNonce = some nonce ∧
      pinnedKeyProofInput sender receiver messageId timestamp popNonce = .ok input
  | spiffeX509 sender receiver messageId timestamp nonce, input =>
    ∃ popNonce, decodeStrict popNonce = some nonce ∧
      spiffeX509ProofInput sender receiver messageId timestamp popNonce = .ok (some input)
  | renewal iss jti nonce, input =>
    nonce.length = nonceLen ∧ renewalPopInput iss.value jti.hyphenated nonce = input

/-- The fields of the input, the tag first. -/
def fields : ProofContext → List Bytes
  | pinnedKey sender receiver messageId timestamp _ =>
    [asBytes "aitp-pinned-key-v1", asBytes sender.value, asBytes receiver.value,
      asBytes messageId.hyphenated, utf8 (intText timestamp)]
  | spiffeX509 sender receiver messageId timestamp _ =>
    [asBytes "aitp-spiffe-x509-v1", asBytes sender.value, asBytes receiver.value,
      asBytes messageId.hyphenated, utf8 (intText timestamp)]
  | renewal iss jti _ =>
    [asBytes "aitp-renewal-pop-v1", asBytes iss.value, asBytes jti.hyphenated]

/-- The bytes of the nonce. -/
def nonce : ProofContext → Bytes
  | pinnedKey _ _ _ _ nonce => nonce
  | spiffeX509 _ _ _ _ nonce => nonce
  | renewal _ _ nonce => nonce

end ProofContext

variable {sender receiver : Aid} {messageId : Uuid} {timestamp : Timestamp} {popNonce : String}

theorem pinnedKeyProofInput_ok {input : Bytes}
    (h : pinnedKeyProofInput sender receiver messageId timestamp popNonce = .ok input) :
    ∃ nonce, decodeStrict popNonce = some nonce ∧
      input = Separated.join 0
        (ProofContext.pinnedKey sender receiver messageId timestamp nonce).fields nonce := by
  simp only [pinnedKeyProofInput, handshakeProofInput, bind_eq_ok, okOr_eq_ok, ensure_eq_ok,
    pure_eq_ok, exists_const] at h
  obtain ⟨nonce, hn, -, rfl⟩ := h
  have hd : pinnedKeyProofDomain = asBytes "aitp-pinned-key-v1" ++ [0] := by decide
  refine ⟨nonce, hn, ?_⟩
  simp [ProofContext.fields, hd]

/-- The `expect` does not panic, and the fields come after the tag of the other proof. -/
theorem spiffeX509ProofInput_ok {answer : Option Bytes}
    (h : spiffeX509ProofInput sender receiver messageId timestamp popNonce = .ok answer) :
    ∃ nonce, decodeStrict popNonce = some nonce ∧
      answer = some (Separated.join 0
        (ProofContext.spiffeX509 sender receiver messageId timestamp nonce).fields nonce) := by
  simp only [spiffeX509ProofInput, bind_eq_ok, mapErr_eq_ok, pure_eq_ok] at h
  obtain ⟨pinned, hp, rfl⟩ := h
  obtain ⟨nonce, hn, rfl⟩ := pinnedKeyProofInput_ok hp
  have hd : pinnedKeyProofDomain = asBytes "aitp-pinned-key-v1" ++ [0] := by decide
  have hs : spiffeX509ProofDomain = asBytes "aitp-spiffe-x509-v1" ++ [0] := by decide
  refine ⟨nonce, hn, ?_⟩
  have hj : Separated.join 0
      (ProofContext.pinnedKey sender receiver messageId timestamp nonce).fields nonce =
      pinnedKeyProofDomain ++ Separated.join 0 [asBytes sender.value, asBytes receiver.value,
        asBytes messageId.hyphenated, utf8 (intText timestamp)] nonce := by
    simp [ProofContext.fields, hd]
  rw [hj, List.dropPrefix?_append_of_beq _ (beq_self_eq_true pinnedKeyProofDomain), Option.map_some,
    hs]
  simp [ProofContext.fields]

namespace ProofContext

variable {c c' : ProofContext} {input : Bytes}

theorem SignedAs.eq_join (h : c.SignedAs input) :
    input = Separated.join 0 c.fields c.nonce := by
  cases c with
  | pinnedKey sender receiver messageId timestamp nonce =>
    obtain ⟨popNonce, hn, hi⟩ := h
    obtain ⟨nonce', hn', rfl⟩ := pinnedKeyProofInput_ok hi
    obtain rfl := Option.some.inj (hn.symm.trans hn')
    rfl
  | spiffeX509 sender receiver messageId timestamp nonce =>
    obtain ⟨popNonce, hn, hi⟩ := h
    obtain ⟨nonce', hn', hs⟩ := spiffeX509ProofInput_ok hi
    obtain rfl := Option.some.inj (hn.symm.trans hn')
    exact Option.some.inj hs
  | renewal iss jti nonce =>
    obtain ⟨-, rfl⟩ := h
    simp [renewalPopInput, renewalPopDomainTag, fields, ProofContext.nonce]

theorem zero_notMem_handshake {f : Bytes} (hf : f ∈ [asBytes sender.value, asBytes receiver.value,
    asBytes messageId.hyphenated, utf8 (intText timestamp)]) : 0 ∉ f := by
  simp only [List.mem_cons, List.not_mem_nil, or_false] at hf
  rcases hf with rfl | rfl | rfl | rfl
  · exact (isPlain_value sender).zero_notMem
  · exact (isPlain_value receiver).zero_notMem
  · exact (isPlain_hyphenated messageId).zero_notMem
  · exact (isPlain_intText timestamp).zero_notMem

theorem zero_notMem_fields (c : ProofContext) : ∀ f ∈ c.fields, 0 ∉ f := by
  have ht : ∀ tag ∈ ["aitp-pinned-key-v1", "aitp-spiffe-x509-v1", "aitp-renewal-pop-v1"],
      0 ∉ asBytes tag := by
    decide
  cases c with
  | pinnedKey sender receiver messageId timestamp nonce =>
    exact List.forall_mem_cons.mpr ⟨ht _ (by simp), fun _ => zero_notMem_handshake⟩
  | spiffeX509 sender receiver messageId timestamp nonce =>
    exact List.forall_mem_cons.mpr ⟨ht _ (by simp), fun _ => zero_notMem_handshake⟩
  | renewal iss jti nonce =>
    simp only [fields, List.forall_mem_cons]
    exact ⟨ht _ (by simp), (isPlain_value _).zero_notMem, (isPlain_hyphenated _).zero_notMem,
      by simp⟩

theorem length_fields_eq (h : c.fields.head? = c'.fields.head?) :
    c.fields.length = c'.fields.length := by
  have h₁ : asBytes "aitp-pinned-key-v1" ≠ asBytes "aitp-renewal-pop-v1" := by decide
  have h₂ : asBytes "aitp-spiffe-x509-v1" ≠ asBytes "aitp-renewal-pop-v1" := by decide
  cases c <;> cases c' <;> simp_all [fields]

theorem aid_eq_of_bytes {a b : Aid} (h : asBytes a.value = asBytes b.value) : a = b :=
  Aid.ext (asBytes_injective h)

theorem uuid_eq_of_bytes {u v : Uuid} (h : asBytes u.hyphenated = asBytes v.hyphenated) : u = v :=
  Uuid.hyphenated_injective (asBytes_injective h)

/-- The fields of the two handshake proofs say what they are of. -/
theorem eq_of_handshake {sender' receiver' : Aid} {messageId' : Uuid} {timestamp' : Timestamp}
    (h : [asBytes sender.value, asBytes receiver.value, asBytes messageId.hyphenated,
        utf8 (intText timestamp)] =
      [asBytes sender'.value, asBytes receiver'.value, asBytes messageId'.hyphenated,
        utf8 (intText timestamp')]) :
    sender = sender' ∧ receiver = receiver' ∧ messageId = messageId' ∧ timestamp = timestamp' := by
  simp only [List.cons.injEq] at h
  obtain ⟨hs, hr, hm, ht, -⟩ := h
  exact ⟨aid_eq_of_bytes hs, aid_eq_of_bytes hr, uuid_eq_of_bytes hm,
    intText_injective (utf8_injective ht)⟩

theorem eq_of_fields (hf : c.fields = c'.fields) (hn : c.nonce = c'.nonce) : c = c' := by
  have hp : asBytes "aitp-pinned-key-v1" ≠ asBytes "aitp-spiffe-x509-v1" := by decide
  cases c with
  | pinnedKey sender receiver messageId timestamp nonce =>
    cases c' with
    | pinnedKey =>
      obtain ⟨rfl, rfl, rfl, rfl⟩ := eq_of_handshake (List.cons.inj hf).2
      exact congrArg _ hn
    | spiffeX509 => exact absurd (List.cons.inj hf).1 hp
    | renewal => exact absurd (congrArg List.length hf) (by simp [fields])
  | spiffeX509 sender receiver messageId timestamp nonce =>
    cases c' with
    | pinnedKey => exact absurd (List.cons.inj hf).1 hp.symm
    | spiffeX509 =>
      obtain ⟨rfl, rfl, rfl, rfl⟩ := eq_of_handshake (List.cons.inj hf).2
      exact congrArg _ hn
    | renewal => exact absurd (congrArg List.length hf) (by simp [fields])
  | renewal iss jti nonce =>
    cases c' with
    | pinnedKey => exact absurd (congrArg List.length hf) (by simp [fields])
    | spiffeX509 => exact absurd (congrArg List.length hf) (by simp [fields])
    | renewal =>
      simp only [fields, List.cons.injEq] at hf
      obtain ⟨-, hi, hj, -⟩ := hf
      obtain rfl := aid_eq_of_bytes hi
      obtain rfl := uuid_eq_of_bytes hj
      exact congrArg _ hn

/-- The bytes that are signed for a proof of possession say everything that is proved. -/
theorem eq_of_signedAs (h : c.SignedAs input) (h' : c'.SignedAs input) : c = c' := by
  have hj := h.eq_join.symm.trans h'.eq_join
  have hh : c.fields.head? = c'.fields.head? := by
    obtain ⟨f, fs, hf⟩ : ∃ f fs, c.fields = f :: fs := by
      cases c <;> exact ⟨_, _, rfl⟩
    obtain ⟨g, gs, hg⟩ : ∃ g gs, c'.fields = g :: gs := by
      cases c' <;> exact ⟨_, _, rfl⟩
    have hf0 := c.zero_notMem_fields f (hf ▸ List.mem_cons_self)
    have hg0 := c'.zero_notMem_fields g (hg ▸ List.mem_cons_self)
    rw [hf, hg] at hj ⊢
    rw [Separated.head_eq hf0 hg0 hj, List.head?_cons, List.head?_cons]
  obtain ⟨hf, hn⟩ := Separated.join_inj (length_fields_eq hh) c.zero_notMem_fields
    c'.zero_notMem_fields hj
  exact eq_of_fields hf hn

theorem eq_of_signedAs_zero :
    ∃ input, (pinnedKey Toy.aid Toy.aid (Toy.uuid 0) (-1) (List.replicate 16 0)).SignedAs input ∧
      ∀ c', c'.SignedAs input →
        pinnedKey Toy.aid Toy.aid (Toy.uuid 0) (-1) (List.replicate 16 0) = c' := by
  have hd : decodeStrict "AAAAAAAAAAAAAAAAAAAAAA" = some (List.replicate 16 0) := by decide
  obtain ⟨input, hi⟩ : ∃ input, pinnedKeyProofInput Toy.aid Toy.aid (Toy.uuid 0) (-1)
      "AAAAAAAAAAAAAAAAAAAAAA" = .ok input :=
    ⟨_, by simp [pinnedKeyProofInput, handshakeProofInput, hd, nonceLen, ensure]; rfl⟩
  exact ⟨input, ⟨_, hd, hi⟩, fun c' h => eq_of_signedAs ⟨_, hd, hi⟩ h⟩

end ProofContext

end Aitp
