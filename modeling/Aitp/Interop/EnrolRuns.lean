import Aitp.Interop.Enrol

/-! # Runs of enrolments

Requests to the enrolment routes of the interop peer, handled side by side: a request whose
challenge was consumed is pending until its key is inserted. Whom the peer trusts proved its key
over a challenge of its own; whoever answers its challenge in time comes to be trusted.
-/

namespace Aitp

open Transition Eviction

/-- A request whose challenge was consumed, at some reading of the clock, and the record that the
store had of the challenge. -/
structure Redeemed where
  request : ParsedEnroll
  now : Timestamp
  entry : Entry
  deriving DecidableEq

/-- The stores, the requests pending, and those whose keys were inserted, newest first. -/
structure EnrolWorld where
  nonces : NonceBook
  keys : EnrolledKeys
  pending : List Redeemed
  enrolments : List Redeemed

/-- A route is called at a reading of the clock, or the key of a pending request is inserted. The
answers of the limiters and the nonces drawn are part of the event. -/
inductive EnrolEvent where
  | challenge (now : Timestamp) (limiter : Option ℕ) (drawn : Option Nonce)
  | enroll (now : Timestamp) (limiter : Option ℕ) (body : Bytes)
  | insert (r : Redeemed)
  | status (now : Timestamp)

namespace Interop

variable (P : Primitives) (peer : Interop)

/-- When an enrolment lapses. -/
def lapse (r : Redeemed) : Timestamp := r.now.saturatingAdd peer.enrolTtl

/-- What `enroll` answers at last. -/
def enrolled (r : Redeemed) : Enrolled := ⟨r.request.key.toAid, peer.lapse r, [echoCap]⟩

/-- The section of `enroll` on the nonce store: its answer, unless the key is to be inserted. -/
def redeem (w : EnrolWorld) (request : ParsedEnroll) (now : Timestamp) :
    EnrolWorld × Except Refusal Redeemed :=
  let r := w.nonces.consume peer.nonces request.nonce peer.aid now
  match r.2, w.nonces.held peer.nonces request.nonce with
  | .consumed, some entry =>
    ({ w with nonces := r.1, pending := ⟨request, now, entry⟩ :: w.pending },
      .ok ⟨request, now, entry⟩)
  | _, _ => ({ w with nonces := r.1 }, .error badNonce)

/-- One step of any request. -/
def enrolNext (w : EnrolWorld) : EnrolEvent → Option EnrolWorld
  | .challenge now limiter drawn =>
    some { w with nonces := (peer.enrollChallenge w.nonces limiter drawn now).1 }
  | .enroll now limiter body =>
    match peer.checkEnroll P limiter body with
    | .ok request => some (peer.redeem w request now).1
    | .error _ => some w
  | .insert r =>
    if r ∈ w.pending then
      some { w with
        keys := w.keys.insert r.request.key (peer.lapse r)
        pending := w.pending.erase r
        enrolments := r :: w.enrolments }
    else none
  | .status now => some { w with keys := (w.keys.len now).1 }

/-- Any requests to a peer that has started. -/
def enrolment : System EnrolWorld EnrolEvent :=
  .ofNext ⟨.new, .new peer.enrolCap, [], []⟩ (peer.enrolNext P)

end Interop

variable {P : Primitives} {peer : Interop} {w w' : EnrolWorld} {r : Redeemed}
  {request : ParsedEnroll} {now : Timestamp}

namespace Interop

/-- The section on the nonce store leaves it, or consumes the challenge and keeps the request. -/
theorem redeem_cases (w : EnrolWorld) (request : ParsedEnroll) (now : Timestamp) :
    (∃ e, w.nonces.held peer.nonces request.nonce = some e ∧ e.verifier = peer.aid ∧
      now ≤ e.expiresAt ∧
      peer.redeem w request now =
        ({ w with
          nonces := (w.nonces.consume peer.nonces request.nonce peer.aid now).1
          pending := ⟨request, now, e⟩ :: w.pending }, .ok ⟨request, now, e⟩) ∧
      (w.nonces.consume peer.nonces request.nonce peer.aid now).1.consumed =
        e :: w.nonces.consumed) ∨
    peer.redeem w request now =
        ({ w with nonces := (w.nonces.consume peer.nonces request.nonce peer.aid now).1 },
          .error badNonce) ∧
      (w.nonces.consume peer.nonces request.nonce peer.aid now).1.consumed = w.nonces.consumed := by
  by_cases hc : (w.nonces.consume peer.nonces request.nonce peer.aid now).2 = .consumed
  · obtain ⟨e, he, hv, hn, hcons⟩ := NonceBook.held_of_consume hc
    refine .inl ⟨e, he, hv, hn, ?_, hcons⟩
    simp only [redeem, hc, he]
  · refine .inr ⟨?_, NonceBook.consumed_consume_of_ne hc⟩
    simp only [redeem]
    split
    · next h _ => exact absurd h hc
    · rfl

end Interop

/-- What a step is. -/
inductive EnrolStep (P : Primitives) (peer : Interop) (w : EnrolWorld) : EnrolWorld → Prop
  | none : EnrolStep P peer w w
  | issue (rec : IssuedNonce) :
    EnrolStep P peer w { w with nonces := (w.nonces.issue peer.nonces rec).1 }
  | redeem {request : ParsedEnroll} (now : Timestamp)
      (hk : VerifyingKey.fromAid P request.aid = .ok request.key)
      (hs : request.key.verifyJcs P (enrolSigningInput request.aid peer.aid request.nonce)
        request.signature = .ok ()) :
      EnrolStep P peer w (peer.redeem w request now).1
  | insert {r : Redeemed} (hr : r ∈ w.pending) :
    EnrolStep P peer w { w with
      keys := w.keys.insert r.request.key (peer.lapse r)
      pending := w.pending.erase r
      enrolments := r :: w.enrolments }
  | status (now : Timestamp) : EnrolStep P peer w { w with keys := (w.keys.len now).1 }

theorem EnrolStep.of_next {ev : EnrolEvent} (h : peer.enrolNext P w ev = some w') :
    EnrolStep P peer w w' := by
  cases ev with
  | challenge now limiter drawn =>
    obtain rfl := Option.some.inj h
    unfold Interop.enrollChallenge
    split
    · exact .none
    · exact .none
    · exact .issue _
  | enroll now limiter body =>
    simp only [Interop.enrolNext] at h
    split at h
    · next request hc =>
      obtain rfl := Option.some.inj h
      obtain ⟨hk, hs⟩ := checkEnroll_ok hc
      exact .redeem now hk hs
    · obtain rfl := Option.some.inj h
      exact .none
  | insert r =>
    simp only [Interop.enrolNext] at h
    split_ifs at h with hr
    obtain rfl := Option.some.inj h
    exact .insert hr
  | status now =>
    obtain rfl := Option.some.inj h
    exact .status now

/-! ## Whom the peer trusts -/

/-- A request was signed under the key it enrols, for this peer, over a challenge that the peer
issued and that had not expired. -/
structure Redeemed.Proved (P : Primitives) (peer : Interop) (nonces : NonceBook) (r : Redeemed) :
    Prop where
  key : VerifyingKey.fromAid P r.request.aid = .ok r.request.key
  signed : ∃ input, r.request.key.verifyJcs P input r.request.signature = .ok () ∧
    EnrolsOnly input r.request.aid peer.aid r.request.nonce
  issued : ∃ rec, nonces.issued[r.entry.serial]? = some rec ∧ rec.nonce = r.request.nonce ∧
    rec.verifier = peer.aid ∧ r.now ≤ rec.expiresAt

/-- The key trusted under an identifier is the last one enrolled under it, until that enrolment
lapses; each enrolment proved its key over a challenge of its own. -/
structure EnrolLaw (P : Primitives) (peer : Interop) (w : EnrolWorld) : Prop where
  bounded : w.keys.inner.map.entries.length ≤ max peer.enrolCap 1
  trusted : ∀ key now, w.keys.isTrusted key now = true →
    ∃ r, w.enrolments.find? (fun r => r.request.key.toAid.value = key.toAid.value) = some r ∧
      r.request.key = key ∧ now ≤ peer.lapse r
  proved : ∀ r ∈ w.enrolments, r.Proved P peer w.nonces
  single : (w.enrolments.map fun r => r.entry.serial).Nodup

namespace EnrolWorld

/-- The enrolments as the store of keys was given them. -/
def history (peer : Interop) (w : EnrolWorld) : Pairs String (VerifyingKey × Timestamp) :=
  w.enrolments.map fun r => ⟨r.request.key.toAid.value, (r.request.key, peer.lapse r)⟩

/-- What a key of the store was given last is the last enrolment under it. -/
theorem find?_of_dlookup {rs : List Redeemed} {aid : String} {v : VerifyingKey × Timestamp}
    (h : List.dlookup aid (rs.map fun r => (⟨r.request.key.toAid.value,
      (r.request.key, peer.lapse r)⟩ : Σ _ : String, VerifyingKey × Timestamp)) = some v) :
    ∃ r, rs.find? (fun r => r.request.key.toAid.value = aid) = some r ∧
      v = (r.request.key, peer.lapse r) := by
  induction rs with
  | nil => cases h
  | cons r rs ih =>
    by_cases hr : r.request.key.toAid.value = aid
    · subst hr
      rw [List.map_cons, List.dlookup_cons_eq] at h
      exact ⟨r, List.find?_cons_of_pos (by simp), (Option.some.inj h).symm⟩
    · rw [List.map_cons, List.dlookup_cons_ne _ _ (Ne.symm hr)] at h
      obtain ⟨r', hf, hv⟩ := ih h
      exact ⟨r', by rw [List.find?_cons_of_neg (by simpa using hr), hf], hv⟩

/-- What was consumed is what requests are pending or enrolled for. -/
structure Kept (P : Primitives) (peer : Interop) (w : EnrolWorld) : Prop where
  nonces : w.nonces.Sound peer.nonces
  redeemed : ((w.pending ++ w.enrolments).map Redeemed.entry).Perm w.nonces.consumed
  proved : ∀ r ∈ w.pending ++ w.enrolments, r.Proved P peer w.nonces
  cap : w.keys.cap = max peer.enrolCap 1
  keys : w.keys.inner.Sound Prod.snd (max peer.enrolCap 1) (w.history peer)

end EnrolWorld

open EnrolWorld

theorem Redeemed.Proved.mono {nonces nonces' : NonceBook} (h : r.Proved P peer nonces)
    (hp : nonces.issued <+: nonces'.issued) : r.Proved P peer nonces' := by
  obtain ⟨rec, hr, hrest⟩ := h.issued
  obtain ⟨more, hm⟩ := hp
  refine ⟨h.key, h.signed, rec, ?_, hrest⟩
  rw [← hm, List.getElem?_append_left (List.getElem?_eq_some_iff.mp hr).1, hr]

theorem EnrolWorld.Kept.step (h : w.Kept P peer) (hs : EnrolStep P peer w w') :
    w'.Kept P peer := by
  cases hs with
  | none => exact h
  | issue rec =>
    constructor
    · exact h.nonces.issue rec
    · exact h.redeemed
    · exact fun r hr => (h.proved r hr).mono (NonceBook.issued_issue rec)
    · exact h.cap
    · exact h.keys
  | @redeem request now hk hsig =>
    have hn := h.nonces.consume request.nonce peer.aid now
    rcases @Interop.redeem_cases peer w request now with ⟨e, he, hv, hx, hr, hc⟩ | ⟨hr, hc⟩
    · rw [hr]
      obtain ⟨rec, hrec, hrn, hrv, hrx⟩ := h.nonces.issued _ e he
      constructor
      · exact hn
      · rw [hc]
        exact h.redeemed.cons e
      · intro r hm
        rcases List.mem_cons.mp hm with rfl | hm
        · exact ⟨hk, ⟨_, hsig, enrolsOnly_signingInput _ _ _⟩, rec, hrec, hrn, hrv.trans hv,
            hx.trans_eq hrx.symm⟩
        · exact (h.proved r hm).mono List.prefix_rfl
      · exact h.cap
      · exact h.keys
    · rw [hr]
      constructor
      · exact hn
      · rw [hc]
        exact h.redeemed
      · exact fun r hm => (h.proved r hm).mono List.prefix_rfl
      · exact h.cap
      · exact h.keys
  | @insert r hr =>
    have hperm : (w.pending.erase r ++ r :: w.enrolments).Perm (w.pending ++ w.enrolments) :=
      List.perm_middle.trans ((List.perm_cons_erase hr).symm.append_right w.enrolments)
    constructor
    · exact h.nonces
    · exact (hperm.map _).trans h.redeemed
    · exact fun r' hm => h.proved r' (hperm.mem_iff.mp hm)
    · exact h.cap
    · have hk := h.keys.insert (2 * w.keys.cap) r.request.key.toAid.value
        (r.request.key, peer.lapse r)
      rw [← h.cap] at hk ⊢
      exact hk
  | status now =>
    constructor
    · exact h.nonces
    · exact h.redeemed
    · exact h.proved
    · exact h.cap
    · exact h.keys.retain fun v => !v.2.isInThePast now

theorem enrolKept_of_reachable (h : (peer.enrolment P).Reachable w) : w.Kept P peer := by
  refine h.invariant ?_ fun _ _ _ hk hs => hk.step (.of_next hs)
  rintro w rfl
  exact ⟨NonceBook.sound_new, .refl _, nofun, rfl, .empty⟩

/-- In every run the peer trusts only keys that proved themselves to it. -/
theorem enrolment_law (h : (peer.enrolment P).Reachable w) : EnrolLaw P peer w := by
  have hk := enrolKept_of_reachable h
  constructor
  · exact hk.keys.bounded
  · intro key now ht
    obtain ⟨expiresAt, hl, hn⟩ := EnrolledKeys.isTrusted_iff.mp ht
    obtain ⟨r, hf, hv⟩ := find?_of_dlookup (hk.keys.newest _ _ hl)
    obtain ⟨rfl, rfl⟩ := Prod.mk.inj hv
    exact ⟨r, hf, rfl, hn⟩
  · exact fun r hr => hk.proved r (List.mem_append_right _ hr)
  · have hnd : (w.nonces.consumed.map Entry.serial).Nodup :=
      Tickets.redeemed_nodup hk.nonces.tickets
    have hp := (hk.redeemed.map Entry.serial).nodup_iff.mpr hnd
    rw [List.map_map, List.map_append] at hp
    exact (List.nodup_append.mp hp).2.1

/-! ## Whoever answers is enrolled -/

/-- While a challenge is outstanding no clock is past its expiry, and nobody else signs over its
nonce. -/
def EnrolEvent.Spares (P : Primitives) (peer : Interop) (nonce : Nonce) (expiresAt : Timestamp) :
    EnrolEvent → Prop
  | .challenge now _ _ => now ≤ expiresAt
  | .enroll now limiter body => now ≤ expiresAt ∧
      ∀ request, peer.checkEnroll P limiter body = .ok request → request.nonce ≠ nonce
  | .insert _ | .status _ => True

section

variable {signer : Signer} {key : VerifyingKey} {nonce : Nonce} {c : EnrollChallenge}

/-- A challenge that was issued is held, for this peer. -/
theorem enrollChallenge_ok {nonces : NonceBook} {limiter : Option ℕ} {drawn : Option Nonce}
    (h : (peer.enrollChallenge nonces limiter drawn now).2 = .ok c) :
    ∃ nonce, drawn = some nonce ∧ c.nonce = encodeBase64Url nonce.bytes ∧ c.peerAid = peer.aid ∧
      c.expiresAt = now.saturatingAdd challengeTtl ∧
      (peer.enrollChallenge nonces limiter drawn now).1.held peer.nonces nonce =
        some ⟨peer.aid, c.expiresAt, nonces.issued.length⟩ := by
  unfold Interop.enrollChallenge at h ⊢
  generalize Refusal.checkRate limiter = rate at h ⊢
  cases rate with
  | error e => cases h
  | ok u =>
    cases drawn with
    | none => cases h
    | some nonce =>
      simp only [mapErr_eq_ok, map_eq_bind, bind_eq_ok, Except.ok.injEq] at h
      obtain ⟨u, hu, rfl⟩ := h
      exact ⟨nonce, rfl, rfl, rfl, rfl, NonceBook.held_of_issue hu⟩

/-- Events that spare an outstanding challenge leave it outstanding. -/
theorem held_of_spares {e : Entry} {es : List EnrolEvent}
    (he : ∀ ev ∈ es, ev.Spares P peer nonce e.expiresAt)
    (hh : w.nonces.held peer.nonces nonce = some e)
    (hr : System.runNext (peer.enrolNext P) w es = some w') :
    w'.nonces.held peer.nonces nonce = some e := by
  induction es generalizing w with
  | nil => exact Option.some.inj hr ▸ hh
  | cons ev es ih =>
    obtain ⟨w₁, hw, hr⟩ := Option.bind_eq_some_iff.mp hr
    rw [List.forall_mem_cons] at he
    refine ih he.2 ?_ hr
    have hspare := he.1
    cases ev with
    | challenge now limiter drawn =>
      obtain rfl := Option.some.inj hw
      unfold Interop.enrollChallenge
      split
      · exact hh
      · exact hh
      · exact NonceBook.held_issue_of_held hh hspare
    | enroll now limiter body =>
      simp only [Interop.enrolNext] at hw
      split at hw
      · next request hc =>
        obtain rfl := Option.some.inj hw
        have hkeep : (w.nonces.consume peer.nonces request.nonce peer.aid now).1.held
            peer.nonces nonce = some e :=
          NonceBook.held_consume_of_held hh (hspare.2 request hc).symm hspare.1
        rcases @Interop.redeem_cases peer w request now with ⟨_, -, -, -, hr, -⟩ | ⟨hr, -⟩
        · rw [hr]
          exact hkeep
        · rw [hr]
          exact hkeep
      · obtain rfl := Option.some.inj hw
        exact hh
    | insert r =>
      simp only [Interop.enrolNext] at hw
      split_ifs at hw
      obtain rfl := Option.some.inj hw
      exact hh
    | status now =>
      obtain rfl := Option.some.inj hw
      exact hh

/-- An answer to a challenge that is held is pending once it was received. -/
theorem enrolNext_answer (hP : P.ReadsText) (hs : signer.Total P key)
    (hn : c.nonce = encodeBase64Url nonce.bytes) (hp : c.peerAid = peer.aid)
    (hx : c.expiresAt.Fits) {e : Entry} (hh : w.nonces.held peer.nonces nonce = some e)
    (hv : e.verifier = peer.aid) (ht : now ≤ e.expiresAt) :
    ∃ body r w', answerEnrollChallenge P signer (utf8 c.toValue.text) = some body ∧
      peer.enrolNext P w (.enroll now none body) = some w' ∧ r ∈ w'.pending ∧
      r.request.key = key ∧ r.now = now := by
  obtain ⟨body, sig, hbody, hcheck⟩ := checkEnroll_answer hP hs hn hp hx
  have hcons : (w.nonces.consume peer.nonces nonce peer.aid now).2 = .consumed :=
    hv ▸ NonceBook.consume_of_held hh ht
  refine ⟨body, ⟨⟨signer.aid, key, nonce, sig⟩, now, e⟩,
    (peer.redeem w ⟨signer.aid, key, nonce, sig⟩ now).1, hbody, ?_, ?_, rfl, rfl⟩
  · simp only [Interop.enrolNext, hcheck]
  · simp only [Interop.redeem, hcons, hh]
    exact List.mem_cons_self

end

/-! ## A small peer -/

open Toy

theorem enrollChallenge_toy : (interop.enrollChallenge .new none (some (octetNonce 0)) 0).2 =
    .ok ⟨encodeBase64Url (octetNonce 0).bytes, interop.aid, 60⟩ :=
  rfl

theorem signer_agent : (signer (agent 1)).Total primitives (agentKey 1) :=
  ⟨signer_lawful _, fun _ => rfl⟩

/-- The peer after it issues a challenge over a nonce. -/
def afterChallenge (w : EnrolWorld) (now : Timestamp) (b : UInt8) : EnrolWorld :=
  { w with nonces := (interop.enrollChallenge w.nonces none (some (octetNonce b)) now).1 }

theorem reachable_challenge {w : EnrolWorld} (h : (interop.enrolment primitives).Reachable w)
    (now : Timestamp) (b : UInt8) :
    (interop.enrolment primitives).Reachable (afterChallenge w now b) :=
  h.step (show interop.enrolNext primitives w (.challenge now none (some (octetNonce b))) = _
    from rfl)

/-- The peer after its first challenge. -/
def challenged : EnrolWorld := afterChallenge ⟨.new, .new 2, [], []⟩ 0 0

theorem reachable_challenged : (interop.enrolment primitives).Reachable challenged :=
  reachable_challenge (.init rfl) 0 0

theorem enrolments_enroll {w w' : EnrolWorld} {now : Timestamp} {limiter : Option ℕ} {body : Bytes}
    (h : interop.enrolNext primitives w (.enroll now limiter body) = some w') :
    w'.enrolments = w.enrolments := by
  simp only [Interop.enrolNext] at h
  split at h
  · next request _ =>
    obtain rfl := Option.some.inj h
    rcases @Interop.redeem_cases interop w request now with ⟨_, -, -, -, hr, -⟩ | ⟨hr, -⟩ <;> rw [hr]
  · exact Option.some.inj h ▸ rfl

/-- Agent 1 answers a challenge that the peer holds and is enrolled by it. -/
theorem exists_enrolled {w : EnrolWorld} (h : (interop.enrolment primitives).Reachable w)
    {c : EnrollChallenge} {nonce : Nonce} {e : Entry} (hn : c.nonce = encodeBase64Url nonce.bytes)
    (hp : c.peerAid = interop.aid) (hx : c.expiresAt.Fits)
    (hh : w.nonces.held interop.nonces nonce = some e) (hv : e.verifier = interop.aid)
    (ht : 0 ≤ e.expiresAt) :
    ∃ body r w', (∀ request, interop.checkEnroll primitives none body = .ok request →
        request.nonce = nonce) ∧
      System.runNext (interop.enrolNext primitives) w [.enroll 0 none body, .insert r] = some w' ∧
      (interop.enrolment primitives).Reachable w' ∧
      w'.enrolments.length = w.enrolments.length + 1 := by
  obtain ⟨body, r, w₂, hbody, hw₂, hmem, -, -⟩ :=
    enrolNext_answer readsText signer_agent hn hp hx hh hv ht
  obtain ⟨_, _, hbody', hcheck⟩ := checkEnroll_answer readsText signer_agent hn hp hx
  obtain rfl := Option.some.inj (hbody.symm.trans hbody')
  have hinsert : interop.enrolNext primitives w₂ (.insert r) = some _ := if_pos hmem
  refine ⟨body, r, _, ?_, ?_, (h.step hw₂).step hinsert, ?_⟩
  · intro request hr
    rw [← Except.ok.inj (hcheck.symm.trans hr)]
  · simp only [System.runNext, hw₂, Option.bind_some, hinsert]
  · exact congrArg (fun rs : List Redeemed => rs.length + 1) (enrolments_enroll hw₂)

/-- The peer after its second challenge. -/
def twiceChallenged : EnrolWorld := afterChallenge challenged 0 1

/-- Agent 1 enrols twice, over the two challenges that it was given. -/
theorem enrolment_law_toy :
    ∃ w : EnrolWorld, w.enrolments.length = 2 ∧ EnrolLaw primitives interop w := by
  have hsecond : (interop.enrollChallenge challenged.nonces none (some (octetNonce 1)) 0).2 =
      .ok ⟨encodeBase64Url (octetNonce 1).bytes, interop.aid, 60⟩ :=
    rfl
  obtain ⟨_, hn₀, hcn₀, hcp₀, -, hheld₀⟩ := enrollChallenge_ok enrollChallenge_toy
  obtain ⟨_, hn₁, hcn₁, hcp₁, -, hheld₁⟩ := enrollChallenge_ok hsecond
  obtain rfl := Option.some.inj hn₀
  obtain rfl := Option.some.inj hn₁
  have hspares : ∀ ev ∈ [EnrolEvent.challenge 0 none (some (octetNonce 1))],
      ev.Spares primitives interop (octetNonce 0) 60 := by
    intro ev hev
    obtain rfl := List.mem_singleton.mp hev
    exact show (0 : Timestamp) ≤ 60 by decide
  have hsecondRun : System.runNext (interop.enrolNext primitives) challenged
      [EnrolEvent.challenge 0 none (some (octetNonce 1))] = some twiceChallenged := rfl
  have hheld₀ := held_of_spares hspares hheld₀ hsecondRun
  obtain ⟨body, r, w, hover, hrun, hreach, hlength⟩ :=
    exists_enrolled (reachable_challenge reachable_challenged 0 1) hcn₀ hcp₀ (by decide) hheld₀ rfl
      (show (0 : Timestamp) ≤ 60 by decide)
  have hheld₁ := by
    refine held_of_spares (w := twiceChallenged) ?_ hheld₁ hrun
    simp only [List.forall_mem_cons]
    refine ⟨⟨show (0 : Timestamp) ≤ 60 by decide, ?_⟩, trivial, List.forall_mem_nil _⟩
    intro request hr
    rw [hover request hr]
    decide
  obtain ⟨_, _, w', -, -, hreach', hlength'⟩ :=
    exists_enrolled hreach hcn₁ hcp₁ (by decide) hheld₁ rfl (show (0 : Timestamp) ≤ 60 by decide)
  exact ⟨w', by rw [hlength', hlength]; rfl, enrolment_law hreach'⟩

end Aitp
