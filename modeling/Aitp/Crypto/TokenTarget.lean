import Aitp.Crypto.CompactForm
import Aitp.Crypto.Reveal
import Aitp.Foundation.Ascii

/-! # What a key signs of a token

The signature of a token is over the encodings of its header and its payload, so that it
determines both. The other artifacts of a key are signed over other bytes: no token's
hold a zero, nor start with a brace.
-/

namespace Aitp

/-- What is signed of a token with some header and payload. -/
def tokenTarget (algorithm : AidAlgorithm) (header payload : Bytes) : Target :=
  rawTarget algorithm (asBytes (encodeBase64Url header ++ "." ++ encodeBase64Url payload))

/-- The `typ` that a header reads as. -/
def headerTyp (P : Primitives) (header : Bytes) : Option String :=
  ((P.document header).bind decodeJwsHeader).map JwsHeader.typ

theorem rawTarget_inj {a a' : AidAlgorithm} {m m' : Bytes} (h : rawTarget a m = rawTarget a' m') :
    a = a' ∧ m = m' := by
  cases a <;> cases a' <;> simp_all [rawTarget]

section

variable {header header' payload payload' : Bytes} {a a' : AidAlgorithm}

theorem toList_tokenText (header payload : Bytes) :
    (encodeBase64Url header ++ "." ++ encodeBase64Url payload).toList =
      Base64Url.encodeChars header ++ '.' :: Base64Url.encodeChars payload := by
  simp [encodeBase64Url, String.toList_append]

theorem tokenTarget_inj (h : tokenTarget a header payload = tokenTarget a' header' payload') :
    a = a' ∧ header = header' ∧ payload = payload' := by
  obtain ⟨ha, hm⟩ := rawTarget_inj h
  have ht := congrArg String.toList (asBytes_injective hm)
  rw [toList_tokenText, toList_tokenText] at ht
  obtain ⟨hh, -, hp⟩ := (List.append_cons_inj_of_notMem (dot_notMem_encodeChars _)
    (dot_notMem_encodeChars _)).mp ht
  have decode : ∀ {bs bs' : Bytes}, Base64Url.encodeChars bs = Base64Url.encodeChars bs' →
      bs = bs' := by
    intro bs bs' he
    have hd := Base64Url.decodeChars_encodeChars bs
    rw [he, Base64Url.decodeChars_encodeChars] at hd
    exact (Option.some.inj hd).symm
  exact ⟨ha, decode hh, decode hp⟩

theorem mem_tokenText {b : UInt8}
    (h : b ∈ asBytes (encodeBase64Url header ++ "." ++ encodeBase64Url payload)) :
    ∃ c : Char, b = UInt8.ofNat c.toNat ∧ c.toNat < 128 ∧
      (Base64Url.isBase64Url c = true ∨ c = '.') := by
  have hc : ∀ c ∈ Base64Url.encodeChars header ++ '.' :: Base64Url.encodeChars payload,
      Base64Url.isBase64Url c = true ∨ c = '.' := by
    intro c hc
    rcases List.mem_append.mp hc with hc | hc
    · exact .inl (Base64Url.isBase64Url_of_mem_encodeChars hc)
    · rcases List.mem_cons.mp hc with rfl | hc
      · exact .inr rfl
      · exact .inl (Base64Url.isBase64Url_of_mem_encodeChars hc)
  have hascii : IsAscii (Base64Url.encodeChars header ++ '.' :: Base64Url.encodeChars payload) := by
    intro c hm
    rcases hc c hm with h | rfl
    · obtain ⟨n, hn⟩ := Option.isSome_iff_exists.mp h
      exact Base64Url.toNat_lt_of_sextet hn
    · decide
  rw [asBytes, toList_tokenText, utf8_ascii hascii, List.mem_map] at h
  obtain ⟨c, hm, rfl⟩ := h
  exact ⟨c, rfl, hascii c hm, hc c hm⟩

theorem ne_tokenTarget {m : Bytes} {b : UInt8} (hb : b = 0 ∨ b = 0x7b) (hm : b ∈ m) :
    Target.digest m ≠ tokenTarget a header payload := by
  intro h
  obtain ⟨-, rfl⟩ := rawTarget_inj (a := .p256) h
  obtain ⟨c, rfl, hlt, hc⟩ := mem_tokenText hm
  have hn : c.toNat = 0 ∨ c.toNat = 0x7b := by
    rcases hb with h | h
    all_goals
      have hn := congrArg UInt8.toNat h
      rw [UInt8.toNat_ofNat', Nat.mod_eq_of_lt (hlt.trans (by decide))] at hn
    · exact .inl hn
    · exact .inr hn
  have hchar : c = Char.ofNat 0 ∨ c = Char.ofNat 0x7b := by
    rcases hn with h | h
    · exact .inl (by rw [← h, Char.ofNat_toNat])
    · exact .inr (by rw [← h, Char.ofNat_toNat])
  rcases hchar with rfl | rfl
  · revert hc
    decide
  · revert hc
    decide

end

/-! ## Tokens -/

variable {P : Primitives} {signer : Signer} {typ token : String} {payload : Bytes}

theorem headerTyp_headerValue (hP : P.ReadsText) (aid : Aid) (typ : String) :
    headerTyp P (headerValue aid typ).jcs = some typ := by
  rw [headerTyp, document_headerValue hP, Option.bind_some, decodeJwsHeader_headerValue]
  rfl

end Aitp
