import Aitp.Crypto.Keys

/-! # Spellings of one key

An Ed25519 key has two agent identifiers, the untagged one and the one with the
algorithm in front, and a P-256 key has one. Two identifiers denote one key when
they are equal or are the two spellings of an Ed25519 key, which is what
`same_key` in `aitp-experimental/src/a2a.rs` compares.
-/

namespace Aitp

def sameKey (a b : Aid) : Bool :=
  decide (a.algorithm = b.algorithm) && decide (a.identifier = b.identifier)

/-- The forms an identifier is spelled in. -/
inductive Spelling where
  | untagged
  | ed25519
  | p256
  deriving DecidableEq

namespace Spelling

/-- What stands before the encoded key. -/
def head : Spelling → String
  | .untagged => aidPubkeyPrefix
  | .ed25519 => aidPubkeyEd25519Prefix
  | .p256 => aidPubkeyP256Prefix

def algorithm : Spelling → AidAlgorithm
  | .untagged | .ed25519 => .ed25519
  | .p256 => .p256

end Spelling

namespace Aid

/-- The key an identifier denotes. -/
def key (a : Aid) : VerifyingKey := ⟨a.algorithm, a.pubkeyCompressedBytes⟩

/-- Two identifiers are the untagged and the tagged spelling of one Ed25519 key. -/
def Respelled (a b : Aid) : Prop :=
  ∃ identifier, a.value = aidPubkeyPrefix ++ identifier ∧
      b.value = aidPubkeyEd25519Prefix ++ identifier ∨
    a.value = aidPubkeyEd25519Prefix ++ identifier ∧ b.value = aidPubkeyPrefix ++ identifier

theorem isSome_of_validateEd25519Identifier {id : String}
    (h : validateEd25519Identifier id = true) :
    (Base64Url.decodeChars id.toList).isSome = true ∧ ':' ∉ id.toList := by
  simp only [validateEd25519Identifier, Bool.and_eq_true, List.all_eq_true] at h
  obtain ⟨⟨-, hall⟩, hs⟩ := h
  refine ⟨hs, ?_⟩
  intro hm
  exact absurd (hall _ hm) (by decide)

theorem isSome_of_validateP256Identifier {id : String} (h : validateP256Identifier id = true) :
    (Base64Url.decodeChars id.toList).isSome = true ∧ ':' ∉ id.toList := by
  simp only [validateP256Identifier, Bool.and_eq_true, List.all_eq_true] at h
  obtain ⟨⟨-, hall⟩, hs⟩ := h
  constructor
  · split at hs
    · next heq => rw [heq]; rfl
    · cases hs
  · intro hm
    exact absurd (hall _ hm) (by decide)

theorem exists_spelling (a : Aid) : ∃ s : Spelling, a.value = s.head ++ a.identifier ∧
    a.algorithm = s.algorithm ∧ (Base64Url.decodeChars a.identifier.toList).isSome = true ∧
      ':' ∉ a.identifier.toList := by
  have hv := a.valid
  unfold isValid at hv
  unfold identifier algorithm
  cases he : stripPrefix aidPubkeyEd25519Prefix a.value with
  | some id =>
    simp only [he] at hv
    refine ⟨.ed25519, eq_append_of_stripPrefix he, ?_, isSome_of_validateEd25519Identifier hv⟩
    rw [stripPrefix_p256_of_ed25519 he]
    rfl
  | none =>
    simp only [he] at hv
    cases hp : stripPrefix aidPubkeyP256Prefix a.value with
    | some id =>
      simp only [hp] at hv
      exact ⟨.p256, eq_append_of_stripPrefix hp, rfl, isSome_of_validateP256Identifier hv⟩
    | none =>
      simp only [hp] at hv
      cases hu : stripPrefix aidPubkeyPrefix a.value with
      | none => simp [hu] at hv
      | some id =>
        simp only [hu] at hv
        split_ifs at hv
        have hid : String.ofList (a.value.toList.drop aidPubkeyPrefix.toList.length) = id := by
          rw [eq_append_of_stripPrefix hu, String.toList_append, List.drop_left,
            String.ofList_toList]
        rw [hid]
        exact ⟨.untagged, eq_append_of_stripPrefix hu, rfl, isSome_of_validateEd25519Identifier hv⟩

theorem append_mark_inj {α : Type} {m : α} {xs ys us vs : List α} (hu : m ∉ us) (hv : m ∉ vs)
    (h : xs ++ m :: us = ys ++ m :: vs) : xs = ys ∧ us = vs := by
  rcases List.append_eq_append_iff.mp h with ⟨zs, rfl, hz⟩ | ⟨zs, rfl, hz⟩
  · cases zs with
    | nil => simpa using hz
    | cons z zs =>
      obtain ⟨-, rfl⟩ := List.cons.inj hz
      exact absurd (List.mem_append_right _ List.mem_cons_self) hu
  · cases zs with
    | nil => simpa using hz.symm
    | cons z zs =>
      obtain ⟨-, rfl⟩ := List.cons.inj hz
      exact absurd (List.mem_append_right _ List.mem_cons_self) hv

theorem spelling_eq {a : Aid} {s : Spelling} {id : String} (h : a.value = s.head ++ id)
    (hc : ':' ∉ id.toList) : a.algorithm = s.algorithm ∧ a.identifier = id := by
  have hhead : ∀ s : Spelling, s.head.toList = s.head.toList.dropLast ++ [':'] := by
    rintro (_ | _ | _) <;> decide
  have hinj : ∀ s t : Spelling, s.head.toList.dropLast = t.head.toList.dropLast → s = t := by
    rintro (_ | _ | _) (_ | _ | _) <;> decide
  obtain ⟨t, ht, hal, -, hn⟩ := a.exists_spelling
  have heq := congrArg String.toList (h.symm.trans ht)
  rw [String.toList_append, String.toList_append, hhead s, hhead t, List.append_assoc,
    List.append_assoc] at heq
  obtain ⟨hst, hid⟩ := append_mark_inj hc hn heq
  obtain rfl := hinj s t hst
  exact ⟨hal, (String.toList_injective hid).symm⟩

theorem identifier_eq_iff {a b : Aid} :
    a.identifier = b.identifier ↔ a.pubkeyCompressedBytes = b.pubkeyCompressedBytes := by
  constructor
  · intro h
    rw [pubkeyCompressedBytes, pubkeyCompressedBytes, h]
  · intro h
    obtain ⟨-, -, -, ha, -⟩ := a.exists_spelling
    obtain ⟨-, -, -, hb, -⟩ := b.exists_spelling
    obtain ⟨bs, hbs⟩ := Option.isSome_iff_exists.mp ha
    obtain ⟨cs, hcs⟩ := Option.isSome_iff_exists.mp hb
    rw [pubkeyCompressedBytes, pubkeyCompressedBytes, hbs, hcs, Option.getD_some,
      Option.getD_some] at h
    subst h
    apply String.toList_injective
    exact (Base64Url.encodeChars_of_decodeChars hbs).symm.trans
      (Base64Url.encodeChars_of_decodeChars hcs)

/-- `same_key` compares keys. -/
theorem sameKey_iff {a b : Aid} : sameKey a b = true ↔ a.key = b.key := by
  simp only [sameKey, Bool.and_eq_true, decide_eq_true_eq, identifier_eq_iff, key,
    VerifyingKey.mk.injEq]

theorem key_eq_of_value {a b : Aid} {id : String} (ha : a.value = aidPubkeyPrefix ++ id)
    (hb : b.value = aidPubkeyEd25519Prefix ++ id) : a.key = b.key := by
  have hv := b.valid
  rw [hb, isValid, stripPrefix_append] at hv
  have hn := (isSome_of_validateEd25519Identifier hv).2
  have ha' : a.algorithm = .ed25519 ∧ a.identifier = id := spelling_eq (s := .untagged) ha hn
  have hb' : b.algorithm = .ed25519 ∧ b.identifier = id := spelling_eq (s := .ed25519) hb hn
  rw [key, key, ha'.1, hb'.1, identifier_eq_iff.mp (ha'.2.trans hb'.2.symm)]

theorem key_eq_iff {a b : Aid} : a.key = b.key ↔ a = b ∨ a.Respelled b := by
  constructor
  · intro h
    obtain ⟨hal, hb⟩ := VerifyingKey.mk.inj h
    have hid := identifier_eq_iff.mpr hb
    obtain ⟨s, hs, has, -, -⟩ := a.exists_spelling
    obtain ⟨t, ht, hbt, -, -⟩ := b.exists_spelling
    have hst : s.algorithm = t.algorithm := has.symm.trans (hal.trans hbt)
    rw [← hid] at ht
    rcases s with _ | _ | _ <;> rcases t with _ | _ | _
    · exact .inl (ext (hs.trans ht.symm))
    · exact .inr ⟨_, .inl ⟨hs, ht⟩⟩
    · cases hst
    · exact .inr ⟨_, .inr ⟨hs, ht⟩⟩
    · exact .inl (ext (hs.trans ht.symm))
    · cases hst
    · cases hst
    · cases hst
    · exact .inl (ext (hs.trans ht.symm))
  · rintro (rfl | ⟨id, ⟨ha, hb⟩ | ⟨ha, hb⟩⟩)
    · rfl
    · exact key_eq_of_value ha hb
    · exact (key_eq_of_value hb ha).symm

end Aid

end Aitp
