import Aitp.Foundation.Transition
import Aitp.SessionBundle.RoundTrip
import Aitp.Transport.SourceIp

/-! # The session bundle server

`session_bundle/server.rs`. A coordinator posts bundles, and participants fetch them by the
identifier of their session. Fetched is the bundle that was posted last for the session, and it
is read as it was written, whatever is posted for other sessions.
-/

namespace Aitp

open Transition

/-! ## The routes -/

def maxBundleBytes : ℕ := 512 * 1024

/-- A request to store a bundle, with its body unless that cannot be read. -/
structure BundlePost where
  contentType : Option Bytes
  body : Option Bytes

/-- The texts of the errors that the server reports. -/
structure BundleTexts where
  malformed : Bytes → String
  display : SessionBundleError → String

/-- What the routes answer. -/
inductive BundleAnswer where
  | text (status : ℕ) (message : String)
  | stored (sessionId : Uuid)
  | found (bundle : SessionTrustBundle)

namespace BundleAnswer

def status : BundleAnswer → ℕ
  | text status _ => status
  | stored _ => 200
  | found _ => 200

def body : BundleAnswer → Bytes
  | text _ message => asBytes message
  | stored sessionId => utf8 (Json.obj [("session_id", .str sessionId.hyphenated)]).text
  | found bundle => utf8 bundle.wrapped.text

end BundleAnswer

/-- The bundles that are held, each under its session. -/
abbrev BundleStore := AList fun _ : Uuid => SessionTrustBundle

section

variable (P : Primitives) (texts : BundleTexts)

/-- How a bundle that is not well formed is refused. -/
def refuseBundle : SessionBundleError → BundleAnswer
  | .unknownField field =>
    .text 400 ("UNKNOWN_FIELD: unknown field `" ++ field ++ "` in session bundle")
  | e => .text 400 ("SESSION_BUNDLE_INVALID: " ++ texts.display e)

/-- What `store_bundle` reads of a request, or its answer. -/
def readBundlePost (post : BundlePost) : Except BundleAnswer SessionTrustBundle := do
  let contentType := ((post.contentType.bind headerToStr).getD []).map Char.toLower
  ensure ("application/json".toList.isPrefixOf contentType)
    (.text 400 "expected Content-Type: application/json")
  let tooLarge := .text 400 "oversized or unreadable body (limit 524288 bytes)"
  let body ← okOr post.body tooLarge
  ensure (decide (body.length ≤ maxBundleBytes)) tooLarge
  let value ← okOr (CheckedJson.fromSlice P body)
    (.text 400 ("malformed session bundle: " ++ texts.malformed body))
  mapErr (refuseBundle texts) (parseSessionBundleEnvelope value)

def storeBundle (store : BundleStore) (post : BundlePost) : BundleAnswer × BundleStore :=
  match readBundlePost P texts post with
  | .ok bundle => (.stored bundle.sessionId, store.insert bundle.sessionId bundle)
  | .error answer => (answer, store)

end

def fetchBundle (store : BundleStore) (sessionId : String) : BundleAnswer :=
  match Uuid.tryParse sessionId with
  | none => .text 400 "session_id is not a UUID"
  | some id =>
    match store.lookup id with
    | some bundle => .found bundle
    | none => .text 404 "no session bundle stored for that session_id"

/-! ## Runs -/

/-- A store, and the bundles that it accepted, the newest first. -/
structure BundleWorld where
  store : BundleStore
  accepted : List SessionTrustBundle

section

variable (P : Primitives) (texts : BundleTexts)

def BundleWorld.after (w : BundleWorld) (post : BundlePost) : BundleWorld where
  store := (storeBundle P texts w.store post).2
  accepted := (readBundlePost P texts post).toOption.toList ++ w.accepted

/-- A server that starts empty. A fetch changes nothing, so that only what is posted is a step. -/
def bundleServer : System BundleWorld BundlePost where
  init w := w = ⟨∅, []⟩
  step w post w' := w' = w.after P texts post

/-- A bundle was read of a body that is small enough, repeats no key and wraps it. -/
def SessionTrustBundle.Read (bundle : SessionTrustBundle) : Prop :=
  ∃ body value, body.length ≤ maxBundleBytes ∧ CheckedJson.fromSlice P body = some value ∧
    (value.value.get "session_bundle").isSome = true ∧
    parseSessionBundleEnvelope value = .ok bundle

/-- What the server keeps to. -/
structure BundleServerLaw (w : BundleWorld) : Prop where
  found : ∀ sessionId bundle, fetchBundle w.store sessionId = .found bundle ↔
    ∃ id, Uuid.tryParse sessionId = some id ∧
      w.accepted.find? (fun b => b.sessionId = id) = some bundle
  absent : ∀ sessionId, (fetchBundle w.store sessionId).status = 404 ↔
    ∃ id, Uuid.tryParse sessionId = some id ∧ ∀ b ∈ w.accepted, b.sessionId ≠ id
  read : ∀ b ∈ w.accepted, b.Read P

end

variable {P : Primitives} {texts : BundleTexts} {w : BundleWorld} {post : BundlePost}
  {bundle : SessionTrustBundle}

theorem read_of_readBundlePost (h : readBundlePost P texts post = .ok bundle) : bundle.Read P := by
  simp only [readBundlePost, bind_eq_ok, ensure_eq_ok, okOr_eq_ok, mapErr_eq_ok, exists_const,
    decide_eq_true_eq] at h
  obtain ⟨-, body, -, hsize, value, hv, hp⟩ := h
  refine ⟨body, value, hsize, hv, ?_, hp⟩
  simp only [parseSessionBundleEnvelope, bind_eq_ok, ensure_eq_ok, exists_const] at hp
  exact hp.1

theorem BundleWorld.after_of_ok (h : readBundlePost P texts post = .ok bundle) :
    w.after P texts post = ⟨w.store.insert bundle.sessionId bundle, bundle :: w.accepted⟩ := by
  simp only [BundleWorld.after, storeBundle, h, Except.toOption, Option.toList_some,
    List.singleton_append]

theorem BundleWorld.after_of_error {answer : BundleAnswer}
    (h : readBundlePost P texts post = .error answer) : w.after P texts post = w := by
  simp only [BundleWorld.after, storeBundle, h, Except.toOption, Option.toList_none,
    List.nil_append]

/-- What every step keeps. -/
structure BundleWorld.Kept (P : Primitives) (w : BundleWorld) : Prop where
  newest : ∀ id, w.store.lookup id = w.accepted.find? fun b => b.sessionId = id
  read : ∀ b ∈ w.accepted, b.Read P

theorem BundleWorld.Kept.after (h : w.Kept P) (post : BundlePost) :
    (w.after P texts post).Kept P := by
  cases hr : readBundlePost P texts post with
  | error answer => rwa [after_of_error hr]
  | ok bundle =>
    rw [after_of_ok hr]
    constructor
    · intro id
      show (w.store.insert bundle.sessionId bundle).lookup id =
        (bundle :: w.accepted).find? fun b => b.sessionId = id
      by_cases hi : id = bundle.sessionId
      · subst hi
        rw [AList.lookup_insert, List.find?_cons_of_pos (by simp)]
      · rw [AList.lookup_insert_ne hi, h.newest id,
          List.find?_cons_of_neg (by simpa using Ne.symm hi)]
    · intro b hb
      rcases List.mem_cons.mp hb with rfl | hb
      · exact read_of_readBundlePost hr
      · exact h.read b hb

theorem bundlesKept_of_reachable (h : (bundleServer P texts).Reachable w) : w.Kept P := by
  refine h.invariant ?_ ?_
  · rintro w rfl
    exact ⟨fun id => AList.lookup_empty id, List.forall_mem_nil _⟩
  · rintro w post _ hw rfl
    exact hw.after post

theorem fetchBundle_eq_found {store : BundleStore} {sessionId : String} :
    fetchBundle store sessionId = .found bundle ↔
      ∃ id, Uuid.tryParse sessionId = some id ∧ store.lookup id = some bundle := by
  unfold fetchBundle
  cases Uuid.tryParse sessionId with
  | none => simp
  | some id => cases hl : store.lookup id <;> simp [hl]

theorem fetchBundle_status_eq {store : BundleStore} {sessionId : String} :
    (fetchBundle store sessionId).status = 404 ↔
      ∃ id, Uuid.tryParse sessionId = some id ∧ store.lookup id = none := by
  unfold fetchBundle
  cases Uuid.tryParse sessionId with
  | none => simp [BundleAnswer.status]
  | some id => cases hl : store.lookup id <;> simp [hl, BundleAnswer.status]

/-- In every run a session's bundle that was accepted last is found, under any spelling of the
session's identifier, and nothing else is. -/
theorem bundleServer_law (h : (bundleServer P texts).Reachable w) : BundleServerLaw P w := by
  have hk := bundlesKept_of_reachable h
  constructor
  · intro sessionId bundle
    simp only [fetchBundle_eq_found, hk.newest]
  · intro sessionId
    simp only [fetchBundle_status_eq, hk.newest, List.find?_eq_none, decide_eq_true_eq, ne_eq]
  · exact hk.read

/-! ## What is posted is fetched -/

/-- The request that a coordinator posts a bundle with. -/
def SessionTrustBundle.posted (bundle : SessionTrustBundle) : BundlePost where
  contentType := some (asBytes "application/json")
  body := some (utf8 bundle.wrapped.text)

/-- A bundle that the server takes the text of. -/
structure SessionTrustBundle.Postable (P : Primitives) (bundle : SessionTrustBundle) : Prop extends
    bundle.Writable P where
  size : (utf8 bundle.wrapped.text).length ≤ maxBundleBytes

theorem readBundlePost_posted (hP : P.ReadsText) (h : bundle.Postable P) :
    readBundlePost P texts bundle.posted = .ok bundle := by
  have htype : "application/json".toList.isPrefixOf
      (((some (asBytes "application/json")).bind headerToStr).getD [] |>.map Char.toLower) =
        true := by decide
  simp only [readBundlePost, SessionTrustBundle.posted, bind_eq_ok, ensure_eq_ok, okOr_eq_ok,
    mapErr_eq_ok, exists_const, Option.some.injEq]
  obtain ⟨value, hv, hp⟩ := parseSessionBundleEnvelope_sent hP h.toWritable
  exact ⟨htype, _, rfl, decide_eq_true h.size, value, hv, hp⟩

theorem lookup_foldl_after {posts : List BundlePost} {id : Uuid}
    (hposts : ∀ post ∈ posts, ∀ b, readBundlePost P texts post = .ok b → b.sessionId ≠ id) :
    (posts.foldl (fun w post => w.after P texts post) w).store.lookup id =
      w.store.lookup id := by
  induction posts generalizing w with
  | nil => rfl
  | cons post posts ih =>
    rw [List.forall_mem_cons] at hposts
    rw [List.foldl_cons, ih hposts.2]
    cases hr : readBundlePost P texts post with
    | error answer => rw [BundleWorld.after_of_error hr]
    | ok b =>
      rw [BundleWorld.after_of_ok hr]
      exact AList.lookup_insert_ne (Ne.symm (hposts.1 b hr))

/-- A bundle that is posted is stored, and whoever fetches it under its session reads it as it was
written, until another is accepted for the session. -/
theorem bundle_distributed (hP : P.ReadsText) (h : bundle.Postable P) {posts : List BundlePost}
    (hposts : ∀ post ∈ posts, ∀ b, readBundlePost P texts post = .ok b →
      b.sessionId ≠ bundle.sessionId)
    {sessionId : String} (hid : Uuid.tryParse sessionId = some bundle.sessionId) :
    (storeBundle P texts w.store bundle.posted).1 = .stored bundle.sessionId ∧
      ∃ value, CheckedJson.fromSlice P (fetchBundle (posts.foldl (fun w post =>
          w.after P texts post) (w.after P texts bundle.posted)).store sessionId).body =
            some value ∧ parseSessionBundleEnvelope value = .ok bundle := by
  have hr : readBundlePost P texts bundle.posted = .ok bundle := readBundlePost_posted hP h
  have hheld : (w.after P texts bundle.posted).store.lookup bundle.sessionId = some bundle := by
    rw [BundleWorld.after_of_ok hr]
    exact AList.lookup_insert _
  have hfound := fetchBundle_eq_found.mpr ⟨_, hid, (lookup_foldl_after hposts).trans hheld⟩
  constructor
  · simp only [storeBundle, hr]
  · rw [hfound]
    exact parseSessionBundleEnvelope_sent hP h.toWritable

namespace Toy

/-- A bundle of a session, as long as it lives. -/
def sessionBundle (session : Fin 16) (expiresAt : Timestamp) : SessionTrustBundle where
  version := protocolVersion
  sessionId := uuid session
  coordinator := agent 0
  issuedAt := 100
  expiresAt := expiresAt
  participants := [⟨agent 1, "a.b.c"⟩]
  extensions := none
  signature := "AA"

def plainTexts : BundleTexts := ⟨fun _ => "", fun _ => ""⟩

def postedBundles : List SessionTrustBundle :=
  [sessionBundle 1 200, sessionBundle 1 300, sessionBundle 2 200]

theorem postable_postedBundles : ∀ b ∈ postedBundles, b.Postable primitives := by
  have hsize : ∀ b ∈ postedBundles, (utf8 b.wrapped.text).length ≤ maxBundleBytes := by
    decide +kernel
  have hfits : ∀ b ∈ postedBundles, b.issuedAt.Fits ∧ b.expiresAt.Fits := by decide
  have hext : ∀ b ∈ postedBundles, b.extensions = none := by simp [postedBundles, sessionBundle]
  intro b hb
  refine ⟨⟨(hfits b hb).1, (hfits b hb).2, ?_⟩, hsize b hb⟩
  rw [hext b hb]
  exact nofun

/-- A server that two bundles of one session were posted to. -/
def postedTwice : BundleWorld :=
  (BundleWorld.after primitives plainTexts ⟨∅, []⟩ (sessionBundle 1 200).posted).after primitives
    plainTexts (sessionBundle 1 300).posted

end Toy

open Toy in
/-- The second bundle of a session is found. -/
theorem bundleServer_law_toy : BundleServerLaw primitives postedTwice ∧
    fetchBundle postedTwice.store (uuid 1).hyphenated = .found (sessionBundle 1 300) := by
  have hlaw : BundleServerLaw primitives postedTwice :=
    bundleServer_law (((System.Reachable.init rfl).step rfl).step rfl :
      (bundleServer primitives plainTexts).Reachable postedTwice)
  refine ⟨hlaw, (hlaw.found _ _).mpr ⟨uuid 1, Uuid.tryParse_hyphenated _, ?_⟩⟩
  have hread : readBundlePost primitives plainTexts (sessionBundle 1 300).posted =
      .ok (sessionBundle 1 300) :=
    readBundlePost_posted readsText (postable_postedBundles _ (by simp [postedBundles]))
  rw [postedTwice, BundleWorld.after_of_ok hread]
  exact List.find?_cons_of_pos (decide_eq_true rfl)

open Toy in
/-- A bundle is fetched after one of another session was posted. -/
theorem bundle_distributed_toy : ∃ value,
    CheckedJson.fromSlice primitives (fetchBundle ((BundleWorld.after primitives plainTexts ⟨∅, []⟩
        (sessionBundle 1 200).posted).after primitives plainTexts
          (sessionBundle 2 200).posted).store (uuid 1).hyphenated).body = some value ∧
      parseSessionBundleEnvelope value = .ok (sessionBundle 1 200) := by
  have hother := postable_postedBundles (sessionBundle 2 200) (by simp [postedBundles])
  have hposts : ∀ post ∈ [(sessionBundle 2 200).posted], ∀ b,
      readBundlePost primitives plainTexts post = .ok b →
        b.sessionId ≠ (sessionBundle 1 200).sessionId := by
    intro post hp b hb
    obtain rfl := List.mem_singleton.mp hp
    obtain rfl := Except.ok.inj ((readBundlePost_posted readsText hother).symm.trans hb)
    decide
  exact (bundle_distributed readsText (postable_postedBundles _ (by simp [postedBundles])) hposts
    (Uuid.tryParse_hyphenated (uuid 1))).2

end Aitp
