import Aitp.Spiffe.Bundle
import Mathlib.Data.List.Nodup
import Mathlib.Data.List.Pairwise

/-! # The order of the keys of a bundle

When `from_jwk_set` answers the same for every order of the keys of a set, and accepts it only if
no two `jwt-svid` keys carry one `kid`. A set with a key of an unsupported type that shares its
`kid` with another `jwt-svid` key is accepted once the unsupported keys come first.
-/

namespace Aitp

/-- The keys of a JWK Set. -/
def jwkSetKeys (value : Json) : Option (List Json) :=
  (value.get "keys").bind Json.asArray

/-- The same keys, in some order. -/
def Reordered (value value' : Json) : Prop :=
  ∃ keys keys', jwkSetKeys value = some keys ∧ jwkSetKeys value' = some keys' ∧ keys.Perm keys'

/-- The `kid` of a key that says it is a `jwt-svid` key. -/
def kidOfJwtSvid (jwk : Json) : Option String :=
  if jwk.getStr "use" = some "jwt-svid" then jwk.getStr "kid" else none

/-- The `kid`s of the `jwt-svid` keys, of supported types and of others. -/
def jwtSvidKids (value : Json) : List String :=
  ((jwkSetKeys value).getD []).filterMap kidOfJwtSvid

section

variable (C : BundleCodec) (value : Json)

/-- Some key of the set is refused for what it is. -/
def RefusesKey : Prop :=
  ∃ jwk ∈ (jwkSetKeys value).getD [], keyRole C jwk = .refused

/-- The `kid`s of the `jwt-svid` keys of supported types. -/
def supportedKids : List String :=
  ((jwkSetKeys value).getD []).filterMap fun jwk => (keyRole C jwk).keptKid

/-- `from_jwk_set` accepts the set. -/
def KeysAccepted : Prop :=
  ∃ bundle, SpiffeBundle.fromJwkSet C value = .ok bundle

/-- The order of the keys does not matter, and `kid`s do not repeat. -/
structure OrderFree : Prop where
  accepted : ∀ value', Reordered value value' → (KeysAccepted C value' ↔ KeysAccepted C value)
  distinct : KeysAccepted C value → (jwtSvidKids value).Nodup
  authorities : ∀ value' bundle bundle', Reordered value value' →
    SpiffeBundle.fromJwkSet C value = .ok bundle →
    SpiffeBundle.fromJwkSet C value' = .ok bundle' →
      bundle.jwtAuthorities.Perm bundle'.jwtAuthorities ∧
        bundle.x509Authorities.Perm bundle'.x509Authorities

end

variable {C : BundleCodec} {value : Json} {keys : List Json}

theorem fromJwkSet_eq_ok {bundle : SpiffeBundle} (hk : jwkSetKeys value = some keys) :
    SpiffeBundle.fromJwkSet C value = .ok bundle ↔
      (∀ jwk ∈ keys, keyRole C jwk ≠ .refused) ∧
        keys.Pairwise (fun i j => ¬ (keyRole C i).Collides (keyRole C j)) ∧
        bundle = ⟨keys.filterMap fun jwk => (keyRole C jwk).key,
          keys.filterMap fun jwk => (keyRole C jwk).der⟩ := by
  have hn : ∀ jwk ∈ keys, ∀ kid, (keyRole C jwk).kid = some kid →
      ¬ ({} : SpiffeBundle).Holds kid := by
    rintro jwk - kid - ⟨key, hm, -⟩
    exact absurd hm List.not_mem_nil
  unfold jwkSetKeys at hk
  rw [SpiffeBundle.fromJwkSet, hk, okOr_some, ok_bind, SpiffeBundle.foldlM_add_eq_ok]
  exact and_congr_right fun _ => and_iff_right hn

theorem accepted_iff (hk : jwkSetKeys value = some keys) : KeysAccepted C value ↔
    (∀ jwk ∈ keys, keyRole C jwk ≠ .refused) ∧
      keys.Pairwise fun i j => ¬ (keyRole C i).Collides (keyRole C j) := by
  constructor
  · rintro ⟨bundle, h⟩
    obtain ⟨hr, hp, -⟩ := (fromJwkSet_eq_ok hk).mp h
    exact ⟨hr, hp⟩
  · rintro ⟨hr, hp⟩
    exact ⟨_, (fromJwkSet_eq_ok hk).mpr ⟨hr, hp, rfl⟩⟩

/-- What a key that is not refused counts as carries its `kid`. -/
theorem kid_keyRole {jwk : Json} (h : keyRole C jwk ≠ .refused) :
    kidOfJwtSvid jwk = (keyRole C jwk).kid := by
  unfold kidOfJwtSvid
  unfold keyRole at h ⊢
  split at h
  · rename_i hu
    rw [if_pos hu]
    unfold jwtSvidRole at h ⊢
    cases hk : jwtSvidKid jwk with
    | none => simp [hk] at h
    | some kid =>
      have hg := (Option.filter_eq_some_iff.mp hk).1
      simp only [hk] at h ⊢
      cases hj : JwkPublicKey.fromJwkJson jwk with
      | ok key => exact hg
      | error e =>
        cases e with
        | malformed reason => simp [hj] at h
        | unsupported reason => exact hg
  · rename_i hu
    rw [if_neg (by rw [hu]; decide)]
    unfold x509SvidRole
    split <;> rfl
  · rename_i hu _
    rw [if_neg hu]
    rfl

theorem jwtSvidKids_eq (hk : jwkSetKeys value = some keys)
    (hr : ∀ jwk ∈ keys, keyRole C jwk ≠ .refused) :
    jwtSvidKids value = keys.filterMap fun jwk => (keyRole C jwk).kid := by
  rw [jwtSvidKids, hk, Option.getD_some]
  exact List.filterMap_congr fun jwk hm => kid_keyRole (hr jwk hm)

theorem nodup_kids_iff {f : Json → Option String} :
    (keys.filterMap f).Nodup ↔
      keys.Pairwise fun i j => ∀ kid, f i = some kid → f j ≠ some kid := by
  rw [List.Nodup, List.pairwise_filterMap]
  refine List.Pairwise.iff fun {i j} => ?_
  simp only [ne_eq]
  constructor
  · intro h kid hi hj
    exact h kid hi kid hj rfl
  · rintro h kid hi kid' hj rfl
    exact h kid hi hj

/-- Keys that all carry a `kid` of their own do not collide. -/
theorem pairwise_of_nodup_kids (h : (keys.filterMap fun jwk => (keyRole C jwk).kid).Nodup) :
    keys.Pairwise fun i j => ¬ (keyRole C i).Collides (keyRole C j) := by
  refine (nodup_kids_iff.mp h).imp fun {i j} hij => ?_
  rintro ⟨kid, hi, hj⟩
  exact hij kid (kid_of_keptKid hi) hj

/-- Supported keys that do not collide carry a `kid` of their own. -/
theorem nodup_kept_of_pairwise
    (h : keys.Pairwise fun i j => ¬ (keyRole C i).Collides (keyRole C j)) :
    (keys.filterMap fun jwk => (keyRole C jwk).keptKid).Nodup := by
  refine nodup_kids_iff.mpr (h.imp fun {i j} hij kid hi hj => ?_)
  exact hij ⟨kid, hi, kid_of_keptKid hj⟩

/-- The keys, those that are kept last. -/
def keptLast (C : BundleCodec) (keys : List Json) : List Json :=
  keys.filter (fun jwk => !(keyRole C jwk).keptKid.isSome) ++
    keys.filter fun jwk => (keyRole C jwk).keptKid.isSome

theorem keptLast_perm : keys.Perm (keptLast C keys) := by
  refine (List.filter_append_perm (fun jwk => (keyRole C jwk).keptKid.isSome) keys).symm.trans ?_
  exact List.perm_append_comm

theorem pairwise_keptLast (h : (keys.filterMap fun jwk => (keyRole C jwk).keptKid).Nodup) :
    (keptLast C keys).Pairwise fun i j => ¬ (keyRole C i).Collides (keyRole C j) := by
  have hn : ∀ i j, (keyRole C i).keptKid.isSome = false →
      ¬ (keyRole C i).Collides (keyRole C j) := by
    rintro i j hi ⟨kid, hk, -⟩
    simp [hk] at hi
  have hk := nodup_kids_iff.mp h
  rw [keptLast, List.pairwise_append]
  refine ⟨?_, ?_, ?_⟩
  · refine List.pairwise_of_forall_mem_list fun i hi j _ => hn i j ?_
    simpa using (List.mem_filter.mp hi).2
  · refine (List.Pairwise.filter _ hk).imp_of_mem fun {i j} _ hj hij => ?_
    rintro ⟨kid, hi, hkid⟩
    obtain ⟨kid', hj'⟩ := Option.isSome_iff_exists.mp (List.mem_filter.mp hj).2
    obtain rfl := Option.some.inj ((kid_of_keptKid hj').symm.trans hkid)
    exact hij _ hi hj'
  · intro i hi j _
    refine hn i j ?_
    simpa using (List.mem_filter.mp hi).2

/-- A refused key, or two supported keys of one `kid`, are refused in every order. -/
theorem not_accepted {keys' : List Json} {value' : Json} (hk' : jwkSetKeys value' = some keys')
    (hp : keys.Perm keys') (h : (∃ jwk ∈ keys, keyRole C jwk = .refused) ∨
      ¬ (keys.filterMap fun jwk => (keyRole C jwk).keptKid).Nodup) : ¬ KeysAccepted C value' := by
  intro ha
  obtain ⟨hr, hpw⟩ := (accepted_iff hk').mp ha
  rcases h with ⟨jwk, hm, he⟩ | hn
  · exact hr jwk (hp.mem_iff.mp hm) he
  · exact hn ((hp.filterMap _).nodup_iff.mpr (nodup_kept_of_pairwise hpw))

/-- Keys that are not refused and all carry a `kid` of their own are accepted in every order. -/
theorem accepted_of_nodup {keys' : List Json} {value' : Json}
    (hk' : jwkSetKeys value' = some keys') (hp : keys.Perm keys')
    (hr : ∀ jwk ∈ keys, keyRole C jwk ≠ .refused)
    (hn : (keys.filterMap fun jwk => (keyRole C jwk).kid).Nodup) : KeysAccepted C value' :=
  (accepted_iff hk').mpr ⟨fun jwk hm => hr jwk (hp.mem_iff.mpr hm),
    pairwise_of_nodup_kids ((hp.filterMap _).nodup_iff.mp hn)⟩

theorem authorities_perm {value' : Json} {bundle bundle' : SpiffeBundle}
    (h : Reordered value value') (hb : SpiffeBundle.fromJwkSet C value = .ok bundle)
    (hb' : SpiffeBundle.fromJwkSet C value' = .ok bundle') :
    bundle.jwtAuthorities.Perm bundle'.jwtAuthorities ∧
      bundle.x509Authorities.Perm bundle'.x509Authorities := by
  obtain ⟨keys, keys', hk, hk', hp⟩ := h
  obtain ⟨-, -, rfl⟩ := (fromJwkSet_eq_ok hk).mp hb
  obtain ⟨-, -, rfl⟩ := (fromJwkSet_eq_ok hk').mp hb'
  exact ⟨hp.filterMap _, hp.filterMap _⟩

theorem OrderFree.nodup_kids (h : OrderFree C value) (hk : jwkSetKeys value = some keys)
    (hr : ∀ jwk ∈ keys, keyRole C jwk ≠ .refused)
    (hn : (keys.filterMap fun jwk => (keyRole C jwk).keptKid).Nodup) :
    (jwtSvidKids value).Nodup := by
  have hk' : jwkSetKeys (.obj [("keys", .arr (keptLast C keys))]) = some (keptLast C keys) := rfl
  have ha : KeysAccepted C (.obj [("keys", .arr (keptLast C keys))]) :=
    (accepted_iff hk').mpr
      ⟨fun jwk hm => hr jwk (keptLast_perm.mem_iff.mpr hm), pairwise_keptLast hn⟩
  exact h.distinct ((h.accepted _ ⟨_, _, hk, hk', keptLast_perm⟩).mp ha)

theorem orderFree_of_refused (hk : jwkSetKeys value = some keys)
    (h : (∃ jwk ∈ keys, keyRole C jwk = .refused) ∨
      ¬ (keys.filterMap fun jwk => (keyRole C jwk).keptKid).Nodup) : OrderFree C value := by
  refine ⟨?_, fun ha => absurd ha (not_accepted hk (List.Perm.refl _) h),
    fun value' bundle bundle' hv hb hb' => authorities_perm hv hb hb'⟩
  rintro value' ⟨ks, keys', hks, hk', hp⟩
  obtain rfl := Option.some.inj (hk.symm.trans hks)
  exact iff_of_false (not_accepted hk' hp h) (not_accepted hk (List.Perm.refl _) h)

theorem orderFree_of_nodup (hk : jwkSetKeys value = some keys)
    (hr : ∀ jwk ∈ keys, keyRole C jwk ≠ .refused) (hn : (jwtSvidKids value).Nodup) :
    OrderFree C value := by
  have hkids := hn
  rw [jwtSvidKids_eq hk hr] at hkids
  refine ⟨?_, fun _ => hn, fun value' bundle bundle' hv hb hb' => authorities_perm hv hb hb'⟩
  rintro value' ⟨ks, keys', hks, hk', hp⟩
  obtain rfl := Option.some.inj (hk.symm.trans hks)
  exact iff_of_true (accepted_of_nodup hk' hp hr hkids)
    (accepted_of_nodup hk (List.Perm.refl _) hr hkids)

/-- The order does not matter, and `kid`s do not repeat, exactly for the sets with a refused key,
with two supported keys of one `kid`, or without two `jwt-svid` keys of one `kid`. -/
theorem orderFree_iff (C : BundleCodec) (value : Json) : OrderFree C value ↔
    RefusesKey C value ∨ ¬ (supportedKids C value).Nodup ∨ (jwtSvidKids value).Nodup := by
  cases hk : jwkSetKeys value with
  | none =>
    refine iff_of_true ⟨?_, ?_, ?_⟩ (.inr (.inr (by simp [jwtSvidKids, hk])))
    · rintro value' ⟨keys, -, hs, -⟩
      simp [hk] at hs
    · simp [jwtSvidKids, hk]
    · rintro value' bundle bundle' ⟨keys, -, hs, -⟩
      simp [hk] at hs
  | some keys =>
    have hs : supportedKids C value = keys.filterMap fun jwk => (keyRole C jwk).keptKid := by
      rw [supportedKids, hk, Option.getD_some]
    have hr : RefusesKey C value ↔ ∃ jwk ∈ keys, keyRole C jwk = .refused := by
      rw [RefusesKey, hk, Option.getD_some]
    rw [hr, hs]
    constructor
    · intro h
      by_contra hc
      simp only [not_or, not_not, not_exists, not_and] at hc
      exact hc.2.2 (h.nodup_kids hk hc.1 hc.2.1)
    · intro h
      by_cases hbad : (∃ jwk ∈ keys, keyRole C jwk = .refused) ∨
          ¬ (keys.filterMap fun jwk => (keyRole C jwk).keptKid).Nodup
      · exact orderFree_of_refused hk hbad
      · rw [← or_assoc] at h
        exact orderFree_of_nodup hk (fun jwk hm he => hbad (.inl ⟨jwk, hm, he⟩))
          (h.resolve_left hbad)

namespace Toy

def bundleCodec : BundleCodec := ⟨fun _ => .error "", fun _ => .error "", id⟩

/-- A `jwt-svid` key of a type that is not supported. -/
def symmetricJwk : Json :=
  .obj [("use", .str "jwt-svid"), ("kid", .str "a"), ("kty", .str "oct")]

/-- A `jwt-svid` key with the same `kid`. -/
def rsaJwk : Json :=
  .obj [("use", .str "jwt-svid"), ("kid", .str "a"), ("kty", .str "RSA"), ("n", .str "AQAB"),
    ("e", .str "AQAB")]

end Toy

/-- One order of two keys of one `kid` is accepted, the other is not. -/
theorem orderFree_shared_kid :
    (SpiffeBundle.fromJwkSet Toy.bundleCodec
        (.obj [("keys", .arr [Toy.symmetricJwk, Toy.rsaJwk])])).isOk = true ∧
      (SpiffeBundle.fromJwkSet Toy.bundleCodec
        (.obj [("keys", .arr [Toy.rsaJwk, Toy.symmetricJwk])])).isOk = false ∧
      ¬ OrderFree Toy.bundleCodec (.obj [("keys", .arr [Toy.symmetricJwk, Toy.rsaJwk])]) := by
  have ha : (SpiffeBundle.fromJwkSet Toy.bundleCodec
      (.obj [("keys", .arr [Toy.symmetricJwk, Toy.rsaJwk])])).isOk = true := by decide +kernel
  refine ⟨ha, by decide +kernel, fun h => ?_⟩
  exact absurd (h.distinct (exists_ok_of_isOk ha)) (by decide +kernel)

end Aitp
