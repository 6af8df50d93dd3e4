import Aitp.Crypto.Spelling
import Aitp.Transport.ManifestFetch

/-! # Binding an Agent Card

`bind_manifest` of `aitp-experimental/src/a2a.rs`: a Card is bound to a Manifest that was fetched
for it or to one that is held verified. A held Manifest is not parsed or verified again; only its
expiry is checked once more. Its endpoint has to be a plain `https` URL in either case, so a
Manifest that verified with the localhost switch on binds no better than one fetched anew.
-/

namespace Aitp

inductive A2aBindingError where
  | extensionMissing
  | extensionNotUnique
  | paramsMalformed (member : String)
  | securitySchemeInvalid
  | manifestNotFound
  | manifest (error : ManifestError)
  | aidMismatch
  | pinnedAidMismatch
  | interfacesKeyInvalid
  | interfaceNotListed
  deriving DecidableEq

/-- `A2A_INTERFACES_KEY`. -/
def a2aInterfacesKey : String := "rfc-aitp-0014.a2a_interfaces"

structure CardPointer where
  aid : Aid
  manifestUrl : Url

inductive ManifestFetch (P : Primitives) where
  | fetched (bytes : Bytes)
  | verified (held : VerifiedManifest P)
  | unreachable

structure BindingContext where
  now : Timestamp
  expectedAid : Option Aid

structure BoundAgentCard (P : Primitives) where
  manifest : VerifiedManifest P
  interfaceUrl : String

def isControl (c : Char) : Bool :=
  c.toNat ≤ 0x1f || (0x7f ≤ c.toNat && c.toNat ≤ 0x9f)

def eqIgnoreAsciiCase (cs ds : List Char) : Bool :=
  cs.map Char.toLower == ds.map Char.toLower

section

variable (P : Primitives)

def httpsUrl (s : String) : Option Url := do
  let rest ← stripPrefix "https://" s
  let authority := rest.toList.takeWhile fun c => !(c == '/' || c == '?' || c == '#')
  let plain := !authority.isEmpty && authority.all (fun c => c.toNat < 128) &&
    !authority.any (fun c => c == '@' || c == '%') &&
    !s.toList.any fun c => isWhitespace c || isControl c || c == '\\'
  if !plain then none
  let url ← P.url s
  let rawHost := authority.takeWhile (· != ':')
  let same := authority.head? == some '[' ||
    url.host.any fun h => eqIgnoreAsciiCase h.toList rawHost
  if same then some url else none

/-- The Manifest of a body, verified at the time and under the setting of a context; the text of
the JSON parser's error is left out. -/
def verifyBytes (bytes : Bytes) (ctx : ManifestVerifyContext) :
    Except A2aBindingError (VerifiedManifest P) := do
  let body ← okOr (CheckedJson.fromSlice P bytes) (.manifest (.malformed ""))
  let manifest ← mapErr .manifest (parseManifestWire body)
  mapErr .manifest (verifiedManifest P manifest ctx)

def verifyFetched (bytes : Bytes) (now : Timestamp) :
    Except A2aBindingError (VerifiedManifest P) :=
  verifyBytes P bytes ⟨now, false⟩

/-- Step 3 of `bind_manifest`: the Manifest to bind to. -/
def obtainManifest (fetch : ManifestFetch P) (now : Timestamp) :
    Except A2aBindingError (VerifiedManifest P) :=
  match fetch with
  | .unreachable => .error .manifestNotFound
  | .fetched bytes => verifyFetched P bytes now
  | .verified held => do
    ensure (!held.manifest.expiresAt.isInThePast now) (.manifest .expired)
    return held

/-- Steps 4 and 5 of `bind_manifest`: the agent identifier and the interface. -/
def bindVerified (pointer : CardPointer) (manifest : VerifiedManifest P)
    (selectedInterfaceUrl : String) (ctx : BindingContext) :
    Except A2aBindingError (BoundAgentCard P) := do
  ensure (httpsUrl P manifest.manifest.handshakeEndpoint).isSome
    (.manifest (.malformed "handshake_endpoint is not an HTTPS URL"))
  ensure (sameKey manifest.manifest.aid pointer.aid) .aidMismatch
  ifPresent ctx.expectedAid fun pinned =>
    ensure (sameKey manifest.manifest.aid pinned) .pinnedAidMismatch
  let interfaces ← okOr ((manifest.manifest.extensions.bind fun e =>
    e.lookup a2aInterfacesKey).bind Json.asArray) .interfacesKeyInvalid
  let entries ← okOr (interfaces.mapM Json.asStr) .interfacesKeyInvalid
  ensure (entries.contains selectedInterfaceUrl) .interfaceNotListed
  ensure (httpsUrl P selectedInterfaceUrl).isSome .interfacesKeyInvalid
  return ⟨manifest, selectedInterfaceUrl⟩

def bindManifest (pointer : CardPointer) (fetch : ManifestFetch P) (selectedInterfaceUrl : String)
    (ctx : BindingContext) : Except A2aBindingError (BoundAgentCard P) := do
  let manifest ← obtainManifest P fetch ctx.now
  bindVerified P pointer manifest selectedInterfaceUrl ctx

/-- What a bound card stands for: a verified Manifest that has not expired, of the agent that the
Card and the client name, that lists the interface; the interface and the handshake are behind
plain `https` URLs. -/
structure CardBinds (pointer : CardPointer) (url : String) (ctx : BindingContext)
    (bound : BoundAgentCard P) : Prop where
  unexpired : ctx.now ≤ bound.manifest.manifest.expiresAt
  ofCard : bound.manifest.manifest.aid.key = pointer.aid.key
  ofPinned : ∀ pinned, ctx.expectedAid = some pinned →
    bound.manifest.manifest.aid.key = pinned.key
  signed : ∃ key, VerifyingKey.fromAid P bound.manifest.manifest.aid = .ok key ∧
    key.verifyJcs P (manifestSigningBytes bound.manifest.manifest)
      bound.manifest.manifest.signature = .ok ()
  interface : bound.interfaceUrl = url
  listed : ∃ extensions interfaces, bound.manifest.manifest.extensions = some extensions ∧
    extensions.lookup a2aInterfacesKey = some (.arr interfaces) ∧ .str url ∈ interfaces
  interfaceHttps : (httpsUrl P url).isSome = true
  endpointHttps : (httpsUrl P bound.manifest.manifest.handshakeEndpoint).isSome = true

end

variable {P : Primitives} {m : Manifest} {seen : ManifestVerifyContext} {bytes : Bytes}
  {held : VerifiedManifest P} {pointer : CardPointer} {url : String} {ctx : BindingContext}
  {bound : BoundAgentCard P}

theorem stripPrefix_of_httpsUrl {s : String} (h : (httpsUrl P s).isSome = true) :
    (stripPrefix "https://" s).isSome = true := by
  cases hs : stripPrefix "https://" s with
  | none => simp [httpsUrl, hs] at h
  | some rest => rfl

/-- The grammar of a Manifest reads only the localhost switch of its context, and of it only the
endpoint depends. -/
theorem checkGrammar_of_https {ctx : ManifestVerifyContext}
    (h : checkGrammar P m seen = .ok ())
    (hs : (stripPrefix "https://" m.handshakeEndpoint).isSome = true) :
    checkGrammar P m ctx = .ok () := by
  have hn : isLocalhostHttp P m.handshakeEndpoint = false := by
    obtain ⟨rest, hr⟩ := Option.isSome_iff_exists.mp hs
    have hp : stripPrefix "http://" m.handshakeEndpoint = none := by
      rw [eq_append_of_stripPrefix hr]
      simp [stripPrefix, String.toList_append]
    simp [isLocalhostHttp, hp]
  simp only [checkGrammar, hn, Bool.and_false, Bool.or_false] at h ⊢
  exact h

/-- A Manifest that verified once verifies at every time before its expiry, if its endpoint is an
`https` one. -/
theorem verifyManifest_again {ctx : ManifestVerifyContext}
    (h : verifyManifest P m seen = .ok ())
    (hs : (stripPrefix "https://" m.handshakeEndpoint).isSome = true)
    (he : m.expiresAt.isInThePast ctx.now = false) : verifyManifest P m ctx = .ok () := by
  simp only [verifyManifest, bind_eq_ok, ensure_eq_ok, exists_const] at h ⊢
  obtain ⟨hv, _, hg, -, h⟩ := h
  exact ⟨hv, (), checkGrammar_of_https hg hs, by rw [he]; rfl, h⟩

theorem verifyManifest_unexpired (h : verifyManifest P m seen = .ok ()) :
    m.expiresAt.isInThePast seen.now = false := by
  simp only [verifyManifest, bind_eq_ok, ensure_eq_ok, exists_const] at h
  obtain ⟨-, _, -, he, -⟩ := h
  simpa using he

theorem verifiedManifest_eq_ok {v : VerifiedManifest P} :
    verifiedManifest P m seen = .ok v ↔ verifyManifest P m seen = .ok () ∧ v.manifest = m := by
  constructor
  · intro h
    unfold verifiedManifest at h
    split at h
    · next hv =>
      obtain rfl := Except.ok.inj h
      exact ⟨hv, rfl⟩
    · cases h
  · rintro ⟨hv, rfl⟩
    exact verifiedManifest_of_ok hv

theorem verifyBytes_eq_ok : verifyBytes P bytes seen = .ok held ↔
    ∃ body, CheckedJson.fromSlice P bytes = some body ∧
      parseManifestWire body = .ok held.manifest ∧
      verifyManifest P held.manifest seen = .ok () := by
  simp only [verifyBytes, bind_eq_ok, okOr_eq_ok, mapErr_eq_ok, verifiedManifest_eq_ok]
  constructor
  · rintro ⟨body, hb, m, hm, hv, rfl⟩
    exact ⟨body, hb, hm, hv⟩
  · rintro ⟨body, hb, hm, hv⟩
    exact ⟨body, hb, _, hm, hv, rfl⟩

theorem str_mem_of_entries {interfaces : List Json} {entries : List String} {entry : String}
    (h : interfaces.mapM Json.asStr = some entries) (he : entry ∈ entries) :
    .str entry ∈ interfaces := by
  induction interfaces generalizing entries with
  | nil =>
    obtain rfl : entries = [] := by simpa [eq_comm] using h
    cases he
  | cons v vs ih =>
    simp only [List.mapM_cons, Option.bind_eq_bind, Option.bind_eq_some_iff, Option.pure_def,
      Option.some.injEq] at h
    obtain ⟨s, hs, rest, hr, rfl⟩ := h
    rcases List.mem_cons.mp he with rfl | he
    · rw [Json.asStr_eq_some.mp hs]
      exact List.mem_cons_self
    · exact List.mem_cons_of_mem _ (ih hr he)

/-- What is bound to a Manifest has its endpoint behind `https`. -/
theorem bindVerified_ok (h : bindVerified P pointer held url ctx = .ok bound) :
    bound = ⟨held, url⟩ ∧ (httpsUrl P held.manifest.handshakeEndpoint).isSome = true ∧
      sameKey held.manifest.aid pointer.aid = true ∧
      (∀ pinned, ctx.expectedAid = some pinned → sameKey held.manifest.aid pinned = true) ∧
      (∃ extensions interfaces, held.manifest.extensions = some extensions ∧
        extensions.lookup a2aInterfacesKey = some (.arr interfaces) ∧ .str url ∈ interfaces) ∧
      (httpsUrl P url).isSome = true := by
  simp only [bindVerified, bind_eq_ok, ensure_eq_ok, okOr_eq_ok, ifPresent_eq_ok, pure_eq_ok,
    exists_const] at h
  obtain ⟨he, hc, hp, interfaces, hi, entries, hs, hl, hu, rfl⟩ := h
  obtain ⟨v, hv, ha⟩ := Option.bind_eq_some_iff.mp hi
  obtain ⟨extensions, hx, hk⟩ := Option.bind_eq_some_iff.mp hv
  refine ⟨rfl, he, hc, fun pinned hpin => hp pinned hpin, ⟨extensions, interfaces, hx, ?_, ?_⟩, hu⟩
  · cases v with
    | arr vs =>
      obtain rfl := Option.some.inj ha
      exact hk
    | _ => cases ha
  · exact str_mem_of_entries hs (List.contains_iff_mem.mp hl)

theorem obtainManifest_unexpired {fetch : ManifestFetch P} {now : Timestamp}
    {found : VerifiedManifest P} (h : obtainManifest P fetch now = .ok found) :
    found.manifest.expiresAt.isInThePast now = false := by
  cases fetch with
  | fetched bytes =>
    obtain ⟨body, -, -, hv⟩ := verifyBytes_eq_ok.mp h
    exact verifyManifest_unexpired hv
  | verified held =>
    simp only [obtainManifest, bind_eq_ok, ensure_eq_ok, pure_eq_ok, exists_const] at h
    obtain ⟨he, rfl⟩ := h
    simpa using he
  | unreachable => cases h

/-- A Manifest that is held and one that is fetched again are one Manifest, as long as it has not
expired and its endpoint is an `https` one. -/
theorem obtainManifest_verified (h : verifyBytes P bytes seen = .ok held)
    (hs : (stripPrefix "https://" held.manifest.handshakeEndpoint).isSome = true)
    {now : Timestamp} : obtainManifest P (.verified held) now = .ok held ↔
      obtainManifest P (.fetched bytes) now = .ok held := by
  obtain ⟨body, hb, hm, hv⟩ := verifyBytes_eq_ok.mp h
  constructor
  · intro ho
    exact verifyBytes_eq_ok.mpr
      ⟨body, hb, hm, verifyManifest_again hv hs (obtainManifest_unexpired ho)⟩
  · intro ho
    have he := obtainManifest_unexpired ho
    simp [obtainManifest, he, ensure, bind, Except.bind, pure, Except.pure]

theorem VerifiedManifest.eq_of_manifest {a b : VerifiedManifest P}
    (h : a.manifest = b.manifest) : a = b := by
  cases a
  cases b
  obtain rfl := h
  rfl

theorem eq_of_obtainManifest_fetched (h : verifyBytes P bytes seen = .ok held)
    {now : Timestamp} {found : VerifiedManifest P}
    (hf : obtainManifest P (.fetched bytes) now = .ok found) : found = held := by
  obtain ⟨body, hb, hm, -⟩ := verifyBytes_eq_ok.mp h
  obtain ⟨body', hb', hm', -⟩ := verifyBytes_eq_ok.mp hf
  obtain rfl : body' = body := Option.some.inj (hb'.symm.trans hb)
  exact VerifiedManifest.eq_of_manifest (Except.ok.inj (hm'.symm.trans hm))

theorem eq_of_obtainManifest_verified {now : Timestamp} {found : VerifiedManifest P}
    (hf : obtainManifest P (.verified held) now = .ok found) : found = held := by
  simp only [obtainManifest, bind_eq_ok, ensure_eq_ok, pure_eq_ok, exists_const] at hf
  exact hf.2.symm

theorem bindManifest_eq_ok {fetch : ManifestFetch P} :
    bindManifest P pointer fetch url ctx = .ok bound ↔
      ∃ found, obtainManifest P fetch ctx.now = .ok found ∧
        bindVerified P pointer found url ctx = .ok bound := by
  simp only [bindManifest, bind_eq_ok]

theorem binds_of_bindManifest {fetch : ManifestFetch P}
    (h : bindManifest P pointer fetch url ctx = .ok bound) : CardBinds P pointer url ctx bound := by
  obtain ⟨found, ho, h⟩ := bindManifest_eq_ok.mp h
  obtain ⟨rfl, he, hc, hp, hl, hu⟩ := bindVerified_ok h
  obtain ⟨seen, hv⟩ := found.verified
  have hn := obtainManifest_unexpired ho
  refine ⟨?_, Aid.sameKey_iff.mp hc, fun pinned hpin => Aid.sameKey_iff.mp (hp pinned hpin), ?_,
    rfl, hl, hu, he⟩
  · exact Timestamp.isInThePast_eq_false.mp hn
  · exact fromAid_of_verifyManifest hv

/-- A card is bound to a Manifest held verified exactly when it is bound to the same bytes fetched
anew, and to the same one; and a bound card is what it stands for. -/
theorem bindManifest_cached (h : verifyBytes P bytes seen = .ok held) :
    (∀ bound, bindManifest P pointer (.verified held) url ctx = .ok bound ↔
      bindManifest P pointer (.fetched bytes) url ctx = .ok bound) ∧
    ∀ fetch bound, bindManifest P pointer fetch url ctx = .ok bound →
      CardBinds P pointer url ctx bound := by
  refine ⟨fun bound => ?_, fun fetch bound => binds_of_bindManifest⟩
  rw [bindManifest_eq_ok, bindManifest_eq_ok]
  constructor
  · rintro ⟨found, ho, hb⟩
    obtain rfl := eq_of_obtainManifest_verified ho
    have hs := stripPrefix_of_httpsUrl (bindVerified_ok hb).2.1
    exact ⟨found, (obtainManifest_verified h hs).mp ho, hb⟩
  · rintro ⟨found, ho, hb⟩
    obtain rfl := eq_of_obtainManifest_fetched h ho
    have hs := stripPrefix_of_httpsUrl (bindVerified_ok hb).2.1
    exact ⟨found, (obtainManifest_verified h hs).mpr ho, hb⟩

namespace Toy

/-- The URL parser for URLs of one host. -/
def hostPrimitives : Primitives :=
  { primitives with url := fun s => some ⟨s, some "agent.example"⟩ }

/-- A Manifest with one interface. -/
def interfaceBuilder : ManifestBuilder :=
  { manifestBuilder (agent 0) ["demo.echo"] [] with
    extensions := [(a2aInterfacesKey, .arr [.str "https://agent.example/a2a"])] }

theorem interfaceBuilder_sent : ∃ built : Manifest, interfaceBuilder.Describes 100 built ∧
    ∃ held : VerifiedManifest hostPrimitives, held.manifest = built ∧
      verifyBytes hostPrimitives (utf8 built.wrapped.text) ⟨100, true⟩ = .ok held := by
  have he : isHttpsUri hostPrimitives "https://agent.example/aitp" = true := by decide +kernel
  have he' : isHttpsUri primitives "https://agent.example/aitp" = true := by decide +kernel
  have hg : checkGrammar hostPrimitives
      { manifest (agent 0) ["demo.echo"] [] 100 with
        extensions := some interfaceBuilder.extensions } ⟨100, true⟩ = .ok () := by
    have h : checkGrammar primitives (manifest (agent 0) ["demo.echo"] [] 100) ⟨100, true⟩ =
        .ok () := checkGrammar_manifest 0 (by decide) (by decide) ⟨by decide, by decide⟩
    have hend : (manifest (agent 0) ["demo.echo"] [] 100).handshakeEndpoint =
      "https://agent.example/aitp" := rfl
    simp only [checkGrammar, hend, he, he', Bool.true_or] at h ⊢
    exact h
  have hs : (signer (agent 0)).Total hostPrimitives ⟨(agent 0).algorithm, _⟩ :=
    ⟨⟨VerifyingKey.fromAid_eq_ok.mpr ⟨rfl, rfl⟩, (signer_lawful (agent 0)).2⟩, fun _ => rfl⟩
  have hread : hostPrimitives.ReadsText := ⟨readsText.int, readsText.rounded, readsText.text⟩
  have hx : Holdable hostPrimitives 3 (some interfaceBuilder.extensions) := by
    rintro _ ⟨⟩
    exact ⟨by decide +kernel, by decide⟩
  obtain ⟨built, -, hd, hw⟩ := manifest_roundTrip (b := interfaceBuilder) hread hs
    ⟨by decide, hx⟩ ⟨rfl, rfl, rfl, rfl, rfl, rfl, rfl, rfl, rfl, rfl, rfl⟩ hg zeroNonce
  obtain ⟨value, hv, hp, hverify⟩ := hw _ (.inr ⟨rfl, by decide⟩)
  have hx : built.expiresAt = Timestamp.saturatingAdd 100 defaultManifestTtl := hd.expiresAt
  have hok := hverify 100 (hx ▸ by decide)
  exact ⟨built, hd, ⟨built, _, hok⟩, rfl, verifyBytes_eq_ok.mpr ⟨value, hv, hp, hok⟩⟩

end Toy

open Toy in
theorem bindManifest_cached_held : ∃ (bytes : Bytes) (held : VerifiedManifest hostPrimitives)
    (bound : BoundAgentCard hostPrimitives),
    bindManifest hostPrimitives ⟨held.manifest.aid, ⟨"", none⟩⟩ (.verified held)
      "https://agent.example/a2a" ⟨200, none⟩ = .ok bound ∧
    bindManifest hostPrimitives ⟨held.manifest.aid, ⟨"", none⟩⟩ (.fetched bytes)
      "https://agent.example/a2a" ⟨200, none⟩ = .ok bound ∧
    CardBinds hostPrimitives ⟨held.manifest.aid, ⟨"", none⟩⟩ "https://agent.example/a2a" ⟨200, none⟩
      bound := by
  obtain ⟨built, hd, held, rfl, hv⟩ := interfaceBuilder_sent
  have hend : "https://agent.example/aitp" = held.manifest.handshakeEndpoint :=
    Option.some.inj hd.handshakeEndpoint
  have hx : held.manifest.extensions = some interfaceBuilder.extensions := hd.extensions
  have hexp : held.manifest.expiresAt = Timestamp.saturatingAdd 100 defaultManifestTtl :=
    hd.expiresAt
  have ho : obtainManifest hostPrimitives (.verified held) 200 = .ok held := by
    rw [obtainManifest, hexp]
    rfl
  have hu : (httpsUrl hostPrimitives "https://agent.example/aitp").isSome = true ∧
    (httpsUrl hostPrimitives "https://agent.example/a2a").isSome = true := by decide +kernel
  have hb : bindVerified hostPrimitives ⟨held.manifest.aid, ⟨"", none⟩⟩ held
      "https://agent.example/a2a" ⟨200, none⟩ = .ok ⟨held, "https://agent.example/a2a"⟩ := by
    simp only [bindVerified, bind_eq_ok, ensure_eq_ok, okOr_eq_ok, ifPresent_eq_ok, pure_eq_ok,
      exists_const]
    refine ⟨hend ▸ hu.1, Aid.sameKey_iff.mpr rfl, by simp, [.str "https://agent.example/a2a"], ?_,
      ["https://agent.example/a2a"], rfl, by simp, hu.2, trivial⟩
    rw [hx]
    rfl
  have hok := bindManifest_eq_ok.mpr ⟨held, ho, hb⟩
  have hx := @bindManifest_cached hostPrimitives ⟨100, true⟩ (utf8 held.manifest.wrapped.text) held
    ⟨held.manifest.aid, ⟨"", none⟩⟩ "https://agent.example/a2a" ⟨200, none⟩ hv
  exact ⟨_, held, _, hok, (hx.1 _).mp hok, hx.2 _ _ hok⟩

end Aitp
