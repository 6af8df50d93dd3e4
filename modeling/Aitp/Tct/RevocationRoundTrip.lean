import Aitp.Crypto.RoundTrip
import Aitp.Tct.Revocation

/-! # Revocation lists on the wire

A list that was signed, written and read again is the same list, and verifies under its
issuer until it expires.
-/

namespace Aitp

open Json

/-- `Serialize for RevocationListEnvelope`. -/
def RevocationListEnvelope.toValue (env : RevocationListEnvelope) : Json :=
  .obj <| Serde.written revocationEnvelopeFields
    [some env.revocationList.toValue, some (.str env.signature)]

/-! ## Writing and reading -/

/-- A list that Rust's types can hold, and the parser can read: its times are `i64`s, and its
extensions a map of `n` levels. -/
structure RevocationList.Writable (P : Primitives) (n : ℕ) (l : RevocationList) : Prop where
  publishedAt : l.publishedAt.Fits
  expiresAt : l.expiresAt.Fits
  revokedAt : ∀ e ∈ l.entries, e.revokedAt.Fits
  extensions : Holdable P n l.extensions

theorem Serde.vec_map_of_mem {α : Type} {dec : Json → Option α} {wr : α → Json} {as : List α}
    (h : ∀ a ∈ as, dec (wr a) = some a) : Serde.vec dec (.arr (as.map wr)) = some as := by
  rw [Serde.vec]
  induction as with
  | nil => rfl
  | cons a as ih =>
    have hrest := ih fun b hb => h b (List.mem_cons_of_mem a hb)
    rw [List.map_cons, List.mapM_cons, h a List.mem_cons_self, hrest]
    rfl

section

variable {P : Primitives} {e : RevocationEntry}

theorem RevocationEntry.decode_toValue (hj : e.jti.checkV4 = .ok ()) (hr : e.revokedAt.Fits) :
    decodeRevocationEntry e.toValue = some e := by
  have hs : ∀ o : Option String, Serde.optional Json.asStr (o.map .str) = some o :=
    Serde.optional_map_of fun _ => ⟨nofun, rfl⟩
  unfold decodeRevocationEntry toValue
  rw [Serde.structFields_obj_written (by decide) rfl (by simp [revocationEntryFields])]
  simp [decodeV4_hyphenated hj, i64_of_fits hr, hs]

theorem RevocationEntry.readable_toValue (hP : P.ReadsText) (hr : e.revokedAt.Fits) {n : ℕ} :
    e.toValue.readable P.keeps (n + 1) = true := by
  refine Serde.readable_written ?_
  simp only [List.all_cons, List.all_nil, Option.all_some, readable_str, hr.readable_int hP,
    readable_map_str, Bool.and_true]

theorem RevocationEntry.distinctKeys_toValue : e.toValue.distinctKeys = true := by
  refine Serde.distinctKeys_written_of_all (by decide) ?_
  simp only [List.all_cons, List.all_nil, Option.all_some, distinctKeys_str, distinctKeys_int,
    all_distinctKeys_map_str, Bool.and_true]

end

namespace RevocationList.Writable

variable {P : Primitives} {n : ℕ} {l : RevocationList}

theorem decode_toValue (h : l.Writable P n) (hj : ∀ e ∈ l.entries, e.jti.checkV4 = .ok ()) :
    decodeRevocationList l.toValue = some l := by
  have hentries : Serde.vec decodeRevocationEntry
      (.arr (l.entries.map RevocationEntry.toValue)) = some l.entries :=
    Serde.vec_map_of_mem fun e he => RevocationEntry.decode_toValue (hj e he) (h.revokedAt e he)
  have hx := h.extensions.optional_map
  unfold decodeRevocationList toValue
  rw [Serde.structFields_obj_written (by decide) rfl (by simp [revocationListFields])]
  simp [Json.asStr, decodeAid_value, i64_of_fits h.publishedAt, i64_of_fits h.expiresAt, hentries,
    hx]

theorem readable_toValue (hP : P.ReadsText) (h : l.Writable P (n + 2)) :
    l.toValue.readable P.keeps (n + 3) = true := by
  have hentries : (Json.arr (l.entries.map RevocationEntry.toValue)).readable P.keeps (n + 2) =
      true := by
    apply readable_arr
    intro v hv
    obtain ⟨e, he, rfl⟩ := List.mem_map.mp hv
    exact RevocationEntry.readable_toValue hP (h.revokedAt e he)
  refine Serde.readable_written ?_
  simp only [List.all_cons, List.all_nil, Option.all_some, readable_str,
    h.publishedAt.readable_int hP, h.expiresAt.readable_int hP, hentries,
    h.extensions.all_readable, Bool.and_true]

theorem distinctKeys_toValue (h : l.Writable P n) : l.toValue.distinctKeys = true := by
  have hentries : (Json.arr (l.entries.map RevocationEntry.toValue)).distinctKeys = true := by
    apply distinctItems_iff.mpr
    intro v hv
    obtain ⟨e, -, rfl⟩ := List.mem_map.mp hv
    exact RevocationEntry.distinctKeys_toValue
  refine Serde.distinctKeys_written_of_all (by decide) ?_
  simp only [List.all_cons, List.all_nil, Option.all_some, distinctKeys_str, distinctKeys_int,
    hentries, h.extensions.all_distinctKeys, Bool.and_true]

end RevocationList.Writable

/-! ## Signed lists -/

variable {P : Primitives} {n : ℕ} {issuer : Signer} {key : VerifyingKey} {l : RevocationList}
  {env : RevocationListEnvelope}

theorem revocationSigningBytes_eq_ok {bytes : Bytes} : revocationSigningBytes l = .ok bytes ↔
    (∀ e ∈ l.entries, e.jti.checkV4 = .ok ()) ∧ bytes = l.toValue.jcs := by
  simp only [revocationSigningBytes, bind_eq_ok, forEach_eq_ok, mapErr_eq_ok, pure_eq_ok]
  constructor
  · rintro ⟨⟨⟩, hj, rfl⟩
    exact ⟨hj, rfl⟩
  · rintro ⟨hj, rfl⟩
    exact ⟨(), hj, rfl⟩

theorem signRevocationList_eq_ok : signRevocationList l issuer = .ok env ↔
    (∀ e ∈ l.entries, e.jti.checkV4 = .ok ()) ∧
      ∃ sig, issuer.signJcs l.toValue.jcs = .ok sig ∧ env = ⟨l, sig⟩ := by
  simp only [signRevocationList, bind_eq_ok, mapErr_eq_ok, pure_eq_ok,
    revocationSigningBytes_eq_ok]
  constructor
  · rintro ⟨_, ⟨hj, rfl⟩, sig, hs, rfl⟩
    exact ⟨hj, sig, hs, rfl⟩
  · rintro ⟨hj, sig, hs, rfl⟩
    exact ⟨_, ⟨hj, rfl⟩, sig, hs, rfl⟩

theorem Signer.Total.signRevocationList (hs : issuer.Total P key)
    (hj : ∀ e ∈ l.entries, e.jti.checkV4 = .ok ()) :
    ∃ env, Aitp.signRevocationList l issuer = .ok env ∧ env.revocationList = l := by
  obtain ⟨sig, hsig⟩ := hs.signJcs l.toValue.jcs
  exact ⟨⟨l, sig⟩, signRevocationList_eq_ok.mpr ⟨hj, sig, hsig, rfl⟩, rfl⟩

theorem verifyRevocationList_signed (hs : issuer.Lawful P key)
    (h : signRevocationList l issuer = .ok env) (hv : l.version = protocolVersion)
    (hi : l.issuer = issuer.aid) {now : Timestamp} (hx : now ≤ l.expiresAt) :
    verifyRevocationList P env ⟨issuer.aid, now⟩ = .ok () := by
  obtain ⟨hj, sig, hsig, rfl⟩ := signRevocationList_eq_ok.mp h
  obtain ⟨hparse, hverify⟩ := signJcs_verifies hs hsig
  have hbytes : revocationSigningBytes l = .ok l.toValue.jcs :=
    revocationSigningBytes_eq_ok.mpr ⟨hj, rfl⟩
  have hkey : VerifyingKey.fromAid P l.issuer = .ok key := hi ▸ hs.1
  simp only [verifyRevocationList, bind_eq_ok, ensure_eq_ok, mapErr_eq_ok, exists_const,
    Bool.not_eq_true', Timestamp.isInThePast_eq_false, beq_iff_eq, decide_eq_true_eq]
  exact ⟨hv, hx, hi, key, hkey, sig, hparse, _, hbytes, hverify⟩

namespace RevocationListEnvelope

theorem readable_toValue (hP : P.ReadsText) (h : env.revocationList.Writable P (n + 2)) :
    env.toValue.readable P.keeps (n + 4) = true := by
  refine Serde.readable_written ?_
  simp only [List.all_cons, List.all_nil, Option.all_some, readable_str, h.readable_toValue hP,
    Bool.and_true]

theorem distinctKeys_toValue (h : env.revocationList.Writable P n) :
    env.toValue.distinctKeys = true := by
  refine Serde.distinctKeys_written_of_all (by decide) ?_
  simp only [List.all_cons, List.all_nil, Option.all_some, distinctKeys_str,
    h.distinctKeys_toValue, Bool.and_true]

theorem decode_toValue (h : env.revocationList.Writable P n)
    (hj : ∀ e ∈ env.revocationList.entries, e.jti.checkV4 = .ok ()) :
    decodeRevocationListEnvelope env.toValue = some env := by
  unfold decodeRevocationListEnvelope toValue
  rw [Serde.structFields_obj_written (by decide) rfl (by simp [revocationEnvelopeFields])]
  simp [h.decode_toValue hj, Json.asStr]

theorem index_jti (e : RevocationEntry) : e.toValue.index "jti" = .str e.jti.hyphenated := by
  rw [Json.index, RevocationEntry.toValue, @Serde.get_obj_written revocationEntryFields
    [some (.str e.jti.hyphenated), some (.int e.revokedAt), e.reason.map .str] (by decide) rfl 0
    ⟨"jti", .required⟩ rfl]
  rfl

theorem parse_toValue (h : env.revocationList.Writable P n)
    (hj : ∀ e ∈ env.revocationList.entries, e.jti.checkV4 = .ok ()) :
    parseRevocationSnapshotWire ⟨env.toValue, distinctKeys_toValue h⟩ = .ok env := by
  have hbody : env.toValue.get "revocation_list" = some env.revocationList.toValue :=
    @Serde.get_obj_written revocationEnvelopeFields _ (by decide) rfl 0
      ⟨"revocation_list", .required⟩ rfl
  have hentries : env.revocationList.toValue.get "entries" =
      some (.arr (env.revocationList.entries.map RevocationEntry.toValue)) :=
    @Serde.get_obj_written revocationListFields _ (by decide) rfl 4 ⟨"entries", .required⟩ rfl
  have hmem : checkMembers env.toValue revocationEnvelopeMembers = none :=
    checkMembers_obj_written (by decide)
  have hmem' : checkMembers env.revocationList.toValue revocationListMembers = none :=
    checkMembers_obj_written (by decide)
  simp only [parseRevocationSnapshotWire, bind_eq_ok, ensureMembers_eq_ok, okOr_eq_ok,
    exists_const]
  refine ⟨hmem, (), ?_, (), ?_, decode_toValue h hj⟩
  · rw [hbody, ifPresent_some, ensureMembers_eq_ok]
    exact hmem'
  · have hlist : ((env.toValue.index "revocation_list").index "entries").asArray =
        some (env.revocationList.entries.map RevocationEntry.toValue) := by
      simp only [Json.index, hbody, Option.getD_some, hentries]
      rfl
    rw [hlist, Option.getD_some, forEach_eq_ok]
    intro s hs
    rw [List.filterMap_map, List.mem_filterMap] at hs
    obtain ⟨e, he, hs⟩ := hs
    rw [Function.comp_apply, index_jti] at hs
    obtain rfl := Option.some.inj hs
    rw [Uuid.parseV4_hyphenated (hj e he)]
    rfl

end RevocationListEnvelope

end Aitp
