import Aitp.Transport.NetworkSteps

/-! # What an honest agent relies on

No two of its runs and sessions have one nonce, what it took under an honest name was
signed, and what its key signed of the handshake came from one of its runs or sessions.
Each act keeps this.
-/

namespace Aitp

variable {P : Primitives} {J : Jose} {own : Aid} {said said' : AitpEnvelope → Prop}

/-! ## The invariant -/

/-- What a run did so far: the HELLO_ACK it took, the COMMIT it posted, and what it returned. -/
structure InitiatorRun.Sound (P : Primitives) (own : Aid) (said : AitpEnvelope → Prop)
    (run : InitiatorRun) : Prop where
  self : run.config.ownManifest.aid = own
  pinned : ∃ store, run.config.trustMode = .pinnedKeys store
  awaiting : run.commit = none → run.session = none ∧
    ∀ s, run.driver = some s → s = .awaitingHelloAck run.popNonce run.peerManifest.aid
  posted : ∀ commit peerPk, run.commit = some (commit, peerPk) →
    (∃ e ack payload, said e ∧
      HelloAckTaken P run.popNonce run.peerManifest.aid peerPk e commit ack payload) ∧
    ∀ s, run.driver = some s →
      ∃ peer, s = .awaitingCommitAck run.popNonce peer ∧ peer.aid = run.peerManifest.aid
  returned : ∀ session, run.session = some session →
    ∃ e m, said e ∧ CommitAckTaken P own run.popNonce run.peerManifest.aid e m session

theorem InitiatorRun.Sound.mono {run : InitiatorRun} (h : run.Sound P own said)
    (hs : ∀ e, said e → said' e) : run.Sound P own said' where
  self := h.self
  pinned := h.pinned
  awaiting := h.awaiting
  posted commit peerPk hc := by
    obtain ⟨⟨e, ack, payload, hsaid, htaken⟩, hdriver⟩ := h.posted commit peerPk hc
    exact ⟨⟨e, ack, payload, hs e hsaid, htaken⟩, hdriver⟩
  returned session hr := by
    obtain ⟨e, m, hsaid, htaken⟩ := h.returned session hr
    exact ⟨e, m, hs e hsaid, htaken⟩

theorem InitiatorRun.Sound.stop {run : InitiatorRun} (h : run.Sound P own said) :
    { run with driver := none }.Sound P own said where
  self := h.self
  pinned := h.pinned
  awaiting hc := ⟨(h.awaiting hc).1, by rintro _ ⟨⟩⟩
  posted commit peerPk hc := ⟨(h.posted commit peerPk hc).1, by rintro _ ⟨⟩⟩
  returned := h.returned

theorem InitiatorRun.Sound.finish {run : InitiatorRun} {e : AitpEnvelope} {m : MutualCommitPayload}
    {session : SessionContext} (h : run.Sound P own said) (hc : run.commit ≠ none) (he : said e)
    (hm : CommitAckTaken P own run.popNonce run.peerManifest.aid e m session) :
    { run with driver := none, session := some session }.Sound P own said where
  self := h.self
  pinned := h.pinned
  awaiting hn := absurd hn hc
  posted commit peerPk hc := ⟨(h.posted commit peerPk hc).1, by rintro _ ⟨⟩⟩
  returned := by
    rintro _ ⟨⟩
    exact ⟨e, m, he, hm⟩

namespace Party

/-- The nonces that an agent's runs and sessions have. -/
def nonces (p : Party) : List String :=
  p.runs.map InitiatorRun.popNonce ++ p.opened.map AwaitingCommit.myPopNonce

/-- The nonces of the sessions that wait for a COMMIT. -/
def waitingNonces (entries : List (Uuid × SessionEntry)) : List String :=
  entries.filterMap fun x => x.2.responder.awaiting.map AwaitingCommit.myPopNonce

/-- The nonces of the sessions that wait for a COMMIT, or completed on one. -/
def spent (p : Party) : List String :=
  waitingNonces p.state.sessions.entries ++ p.completed.map fun c => c.session.myPopNonce

/-- One of the agent's runs posted these bytes. -/
def Posted (p : Party) (e : AitpEnvelope) : Prop :=
  ∃ run ∈ p.runs, ∃ commit peerPk, run.commit = some (commit, peerPk) ∧ e.target = commit.target

/-- One of the agent's sessions completed with this answer. -/
def Answered (p : Party) (m : MutualCommitPayload) : Prop :=
  ∃ c ∈ p.completed, m.tct = c.ack.tct ∧ m.popNonceEcho = c.ack.popNonceEcho

/-- What is read of an envelope that the agent signed says what the agent did. -/
structure Wrote (p : Party) (e : AitpEnvelope) : Prop where
  helloAck : ∀ m, decodeMutualHelloAckPayload e.payload = some m →
    ∃ o ∈ p.opened, o.myPopNonce = m.popNonce ∧ o.peerPopNonce = m.popNonceEcho
  commit : ∀ m, decodeMutualCommitPayload e.payload = some m →
    p.Posted e ∨ e.messageType = .mutualCommitAck ∧ p.Answered m

structure Sound (P : Primitives) (own : Aid) (said : AitpEnvelope → Prop) (p : Party) : Prop where
  nodup : p.nonces.Nodup
  drawn : ∀ s ∈ p.nonces, ∃ n ∈ p.drawn, freshNonce (some n) = .ok s
  runs : ∀ run ∈ p.runs, run.Sound P own said
  waiting : ∀ x ∈ p.state.sessions.entries, ∃ w ∈ p.opened, x.2.responder = .awaitingCommit w
  opened : ∀ c ∈ p.completed, c.session ∈ p.opened
  once : p.spent.Nodup
  length : ∀ o ∈ p.opened, o.peerPopNonce.length = 22
  completed : ∀ c ∈ p.completed, said c.commit ∧ c.commit.messageType = .mutualCommit ∧
    ∃ m, CommitTaken P own c m
  signed : ∀ e : AitpEnvelope, e.target ∈ p.signed → p.Wrote e

theorem New.sound {p : Party} (h : p.New) : p.Sound P own said where
  nodup := by simp [nonces, h.runs, h.opened]
  drawn := by simp [nonces, h.runs, h.opened]
  runs := by simp [h.runs]
  waiting := by simp [h.sessions, UuidMap.empty]
  opened := by simp [h.completed]
  once := by simp [spent, waitingNonces, h.sessions, h.completed, UuidMap.empty]
  length := by simp [h.opened]
  completed := by simp [h.completed]
  signed := by simp [h.signed]

/-! ## What keeps it -/

theorem freshNonce_injective {n n' : Nonce} {s : String} (h : freshNonce (some n) = .ok s)
    (h' : freshNonce (some n') = .ok s) : n = n' := by
  obtain ⟨_, hn, rfl⟩ := freshNonce_eq_ok h
  obtain ⟨_, hn', hs⟩ := freshNonce_eq_ok h'
  obtain rfl := Option.some.inj hn
  obtain rfl := Option.some.inj hn'
  have hd := congrArg decodeStrict hs
  rw [decodeStrict_encodeBase64Url, decodeStrict_encodeBase64Url] at hd
  cases n
  cases n'
  simpa using hd

variable {p p' : Party} {e : AitpEnvelope}

theorem Wrote.mono (h : p.Wrote e) (hr : ∀ run ∈ p.runs, ∀ x, run.commit = some x →
      ∃ run' ∈ p'.runs, run'.commit = some x)
    (ho : p.opened ⊆ p'.opened) (hc : p.completed ⊆ p'.completed) : p'.Wrote e where
  helloAck m hm := by
    obtain ⟨o, hmem, hn⟩ := h.helloAck m hm
    exact ⟨o, ho hmem, hn⟩
  commit m hm := by
    rcases h.commit m hm with ⟨run, hrun, commit, peerPk, hcommit, ht⟩ | ⟨ht, c, hmem, hn⟩
    · obtain ⟨run', hrun', hcommit'⟩ := hr run hrun _ hcommit
      exact .inl ⟨run', hrun', commit, peerPk, hcommit', ht⟩
    · exact .inr ⟨ht, c, hc hmem, hn⟩

theorem Wrote.grow (h : p.Wrote e) (hr : p.runs ⊆ p'.runs) (ho : p.opened ⊆ p'.opened)
    (hc : p.completed ⊆ p'.completed) : p'.Wrote e := by
  refine h.mono ?_ ho hc
  intro run hrun x hx
  exact ⟨run, hr hrun, hx⟩

theorem Wrote.of_eq (h : p.Wrote e) (hr : p'.runs = p.runs) (ho : p'.opened = p.opened)
    (hc : p'.completed = p.completed) : p'.Wrote e :=
  h.grow (hr ▸ List.Subset.refl _) (ho ▸ List.Subset.refl _) (hc ▸ List.Subset.refl _)

theorem wrote_of_none (h : decodeMutualHelloAckPayload e.payload = none ∧
    decodeMutualCommitPayload e.payload = none) : p.Wrote e where
  helloAck m hm := by
    rw [h.1] at hm
    cases hm
  commit m hm := by
    rw [h.2] at hm
    cases hm

theorem Sound.mono (h : p.Sound P own said) (hs : ∀ e, said e → said' e) :
    p.Sound P own said' where
  nodup := h.nodup
  drawn := h.drawn
  runs run hr := (h.runs run hr).mono hs
  waiting := h.waiting
  opened := h.opened
  once := h.once
  length := h.length
  completed c hc := by
    obtain ⟨hsaid, hrest⟩ := h.completed c hc
    exact ⟨hs _ hsaid, hrest⟩
  signed := h.signed

namespace Sound

theorem draw (h : p.Sound P own said) (ns : List Nonce) :
    { p with drawn := ns ++ p.drawn }.Sound P own said :=
  { h with
    drawn := by
      intro s hs
      obtain ⟨n, hn, ht⟩ := h.drawn s hs
      exact ⟨n, List.mem_append_right ns hn, ht⟩
    signed := by
      intro e he
      exact (h.signed e he).of_eq rfl rfl rfl }

theorem sign (h : p.Sound P own said) {signed : Set Target}
    (hs : ∀ e : AitpEnvelope, e.target ∈ signed → e.target ∈ p.signed ∨ p.Wrote e) :
    { p with signed := signed }.Sound P own said :=
  { h with
    signed := by
      intro e he
      rcases hs e he with hold | hnew
      · exact (h.signed e hold).of_eq rfl rfl rfl
      · exact hnew.of_eq rfl rfl rfl }

theorem shrink (h : p.Sound P own said) {state : HandshakeState}
    (hs : state.sessions.entries.Sublist p.state.sessions.entries) :
    { p with state := state }.Sound P own said :=
  { h with
    waiting := by
      intro x hx
      exact h.waiting x (hs.subset hx)
    once := h.once.sublist ((hs.filterMap _).append (List.Sublist.refl _))
    signed := by
      intro e he
      exact (h.signed e he).of_eq rfl rfl rfl }

theorem setRun (h : p.Sound P own said) {i : ℕ} {run run' : InitiatorRun}
    (hi : p.runs[i]? = some run) (hr : run'.Sound P own said) (hn : run'.popNonce = run.popNonce)
    (hc : ∀ x, run.commit = some x → run'.commit = some x) :
    { p with runs := p.runs.set i run' }.Sound P own said := by
  have hnonces : { p with runs := p.runs.set i run' }.nonces = p.nonces := by
    have hmap : (p.runs.set i run').map InitiatorRun.popNonce = p.runs.map InitiatorRun.popNonce := by
      obtain ⟨hlt, rfl⟩ := List.getElem?_eq_some_iff.mp hi
      refine List.map_set.trans (Eq.trans ?_ (List.set_getElem_self (i := i) (by simpa using hlt)))
      rw [List.getElem_map, hn]
    simp only [nonces, hmap]
  have hkeep : ∀ run₀ ∈ p.runs, ∀ x, run₀.commit = some x →
      ∃ run₁ ∈ p.runs.set i run', run₁.commit = some x := by
    intro run₀ hmem x hx
    obtain ⟨j, hj⟩ := List.mem_iff_getElem?.mp hmem
    by_cases hij : i = j
    · subst hij
      obtain rfl := Option.some.inj (hi.symm.trans hj)
      refine ⟨run', List.mem_iff_getElem?.mpr ⟨i, ?_⟩, hc x hx⟩
      exact List.getElem?_set_self (List.getElem?_eq_some_iff.mp hi).1
    · refine ⟨run₀, List.mem_iff_getElem?.mpr ⟨j, ?_⟩, hx⟩
      rw [List.getElem?_set_ne hij, hj]
  exact { h with
    nodup := hnonces ▸ h.nodup
    drawn := hnonces ▸ h.drawn
    runs := by
      intro run₀ hmem
      rcases List.mem_or_eq_of_mem_set hmem with hold | rfl
      · exact h.runs run₀ hold
      · exact hr
    signed := by
      intro e he
      exact (h.signed e he).mono hkeep (List.Subset.refl _) (List.Subset.refl _) }

theorem fresh (h : p.Sound P own said) {n : Nonce} {s : String} (hn : n ∉ p.drawn)
    (hs : freshNonce (some n) = .ok s) : s ∉ p.nonces := by
  intro hmem
  obtain ⟨n', hn', hs'⟩ := h.drawn s hmem
  obtain rfl := freshNonce_injective hs hs'
  exact hn hn'

theorem mem_nonces_of_spent (h : p.Sound P own said) {s : String} (hs : s ∈ p.spent) :
    s ∈ p.nonces := by
  refine List.mem_append_right _ (List.mem_map.mpr ?_)
  rcases List.mem_append.mp hs with hlive | hdone
  · obtain ⟨x, hx, hw⟩ := List.mem_filterMap.mp hlive
    obtain ⟨w, hmem, hr⟩ := h.waiting x hx
    rw [hr] at hw
    exact ⟨w, hmem, Option.some.inj hw⟩
  · obtain ⟨c, hc, rfl⟩ := List.mem_map.mp hdone
    exact ⟨c.session, h.opened c hc, rfl⟩

theorem drawn_cons (h : p.Sound P own said) {n : Nonce} {t s : String}
    (ht : freshNonce (some n) = .ok t) (hs : s ∈ t :: p.nonces) :
    ∃ n' ∈ n :: p.drawn, freshNonce (some n') = .ok s := by
  rcases List.mem_cons.mp hs with rfl | hold
  · exact ⟨n, List.mem_cons_self, ht⟩
  · obtain ⟨n', hn', hs'⟩ := h.drawn s hold
    exact ⟨n', List.mem_cons_of_mem n hn', hs'⟩

theorem addRun (h : p.Sound P own said) {run : InitiatorRun} {n : Nonce} (hn : n ∉ p.drawn)
    (ht : freshNonce (some n) = .ok run.popNonce) (hr : run.Sound P own said) :
    { p with runs := p.runs ++ [run], drawn := n :: p.drawn }.Sound P own said := by
  have hperm : { p with runs := p.runs ++ [run], drawn := n :: p.drawn }.nonces.Perm
      (run.popNonce :: p.nonces) := by
    simp only [nonces, List.map_append, List.map_cons, List.map_nil, List.append_assoc,
      List.singleton_append]
    exact List.perm_middle
  exact { h with
    nodup := hperm.nodup_iff.mpr (List.nodup_cons.mpr ⟨h.fresh hn ht, h.nodup⟩)
    drawn := by
      intro s hs
      exact h.drawn_cons ht (hperm.mem_iff.mp hs)
    runs := by
      intro run' hmem
      rcases List.mem_append.mp hmem with hold | hnew
      · exact h.runs run' hold
      · obtain rfl := List.mem_singleton.mp hnew
        exact hr
    signed := by
      intro e he
      exact (h.signed e he).grow (List.subset_append_left _ _) (List.Subset.refl _)
        (List.Subset.refl _) }

/-- A session opens. -/
theorem addSession (h : p.Sound P own said) {w : AwaitingCommit} {n : Nonce} (hn : n ∉ p.drawn)
    (ht : freshNonce (some n) = .ok w.myPopNonce) (hl : w.peerPopNonce.length = 22)
    {state : HandshakeState} {id : Uuid} {instant : ℕ} {kept : List (Uuid × SessionEntry)}
    (hs : state.sessions.entries = (id, ⟨.awaitingCommit w, instant⟩) :: kept)
    (hk : kept.Sublist p.state.sessions.entries) :
    { p with state := state, opened := p.opened ++ [w], drawn := n :: p.drawn }.Sound P own said := by
  have hperm : List.Perm
      { p with state := state, opened := p.opened ++ [w], drawn := n :: p.drawn }.nonces
      (w.myPopNonce :: p.nonces) := by
    simp only [nonces, List.map_append, List.map_cons, List.map_nil, ← List.append_assoc]
    exact List.perm_append_singleton _ _
  have hkept : (waitingNonces kept ++ p.completed.map fun c => c.session.myPopNonce).Sublist
      p.spent :=
    (hk.filterMap _).append (List.Sublist.refl _)
  have hspent : { p with state := state, opened := p.opened ++ [w], drawn := n :: p.drawn }.spent =
      w.myPopNonce :: (waitingNonces kept ++ p.completed.map fun c => c.session.myPopNonce) := by
    simp only [spent, hs]
    rfl
  have hfresh := h.fresh hn ht
  exact { h with
    nodup := hperm.nodup_iff.mpr (List.nodup_cons.mpr ⟨hfresh, h.nodup⟩)
    drawn := by
      intro s hs
      exact h.drawn_cons ht (hperm.mem_iff.mp hs)
    waiting := by
      intro x hx
      rw [hs] at hx
      rcases List.mem_cons.mp hx with rfl | hold
      · exact ⟨w, List.mem_append_right _ List.mem_cons_self, rfl⟩
      · obtain ⟨w', hmem, hr⟩ := h.waiting x (hk.subset hold)
        exact ⟨w', List.mem_append_left _ hmem, hr⟩
    opened := by
      intro c hc
      exact List.mem_append_left _ (h.opened c hc)
    once := by
      rw [hspent]
      refine List.nodup_cons.mpr ⟨?_, h.once.sublist hkept⟩
      intro hmem
      exact hfresh (h.mem_nonces_of_spent (hkept.subset hmem))
    length := by
      intro o ho
      rcases List.mem_append.mp ho with hold | hnew
      · exact h.length o hold
      · obtain rfl := List.mem_singleton.mp hnew
        exact hl
    signed := by
      intro e he
      exact (h.signed e he).grow (List.Subset.refl _) (List.subset_append_left _ _)
        (List.Subset.refl _) }

/-- A session completes. -/
theorem complete (h : p.Sound P own said) {c : CompletedSession} {m : MutualCommitPayload}
    {state : HandshakeState} {kept : List (Uuid × SessionEntry)} {id : Uuid} {entry : SessionEntry}
    (hk : kept.Sublist p.state.sessions.entries)
    (hs : kept.Perm ((id, entry) :: state.sessions.entries))
    (he : entry.responder = .awaitingCommit c.session) (hsaid : said c.commit)
    (ht : c.commit.messageType = .mutualCommit) (hm : CommitTaken P own c m) :
    { p with state := state, completed := p.completed ++ [c] }.Sound P own said := by
  have hmem : ∀ x ∈ (id, entry) :: state.sessions.entries, x ∈ p.state.sessions.entries := by
    intro x hx
    exact hk.subset (hs.mem_iff.mpr hx)
  have hopened : c.session ∈ p.opened := by
    obtain ⟨w, hw, hr⟩ := h.waiting _ (hmem _ List.mem_cons_self)
    obtain rfl := Responder.awaitingCommit.inj (he.symm.trans hr)
    exact hw
  have hspent : List.Perm { p with state := state, completed := p.completed ++ [c] }.spent
      (waitingNonces kept ++ p.completed.map fun c => c.session.myPopNonce) := by
    have hw : waitingNonces ((id, entry) :: state.sessions.entries) =
        c.session.myPopNonce :: waitingNonces state.sessions.entries := by
      simp only [waitingNonces, List.filterMap_cons, he]
      rfl
    refine List.Perm.trans ?_ ((hs.filterMap _).symm.append_right _)
    change List.Perm _ (waitingNonces _ ++ _)
    rw [hw]
    simp only [spent, List.map_append, List.map_cons, List.map_nil, ← List.append_assoc]
    exact List.perm_append_singleton _ _
  exact { h with
    waiting := by
      intro x hx
      exact h.waiting x (hmem x (List.mem_cons_of_mem _ hx))
    opened := by
      intro c' hc
      rcases List.mem_append.mp hc with hold | hnew
      · exact h.opened c' hold
      · obtain rfl := List.mem_singleton.mp hnew
        exact hopened
    once := hspent.nodup_iff.mpr
      (h.once.sublist ((hk.filterMap _).append (List.Sublist.refl _)))
    completed := by
      intro c' hc
      rcases List.mem_append.mp hc with hold | hnew
      · exact h.completed c' hold
      · obtain rfl := List.mem_singleton.mp hnew
        exact ⟨hsaid, ht, m, hm⟩
    signed := by
      intro e he
      exact (h.signed e he).grow (List.Subset.refl _) (List.Subset.refl _)
        (List.subset_append_left _ _) }

/-! ## What each act keeps -/

theorem startRun (h : p.Sound P own said) {config : InitiatorConfig} {env : Surroundings}
    (ho : config.ownManifest.aid = own) (ht : ∃ store, config.trustMode = .pinnedKeys store)
    (hn : ∀ n ∈ env.popNonce, n ∉ p.drawn) : (p.startRun P config env).Sound P own said := by
  unfold Party.startRun
  simp only
  split
  · rename_i peerManifest initiator hello popNonce hstart hnonce
    obtain ⟨n, hdrawn, -⟩ := freshNonce_eq_ok hnonce
    obtain ⟨rfl, payload, hpayload⟩ := startHandshake_ok hnonce hstart
    have hrun : InitiatorRun.Sound P own said ⟨config, peerManifest, popNonce,
        some (.awaitingHelloAck popNonce peerManifest.aid), none, none⟩ := {
      self := ho
      pinned := ht
      awaiting := fun _ => ⟨rfl, fun s hs => (Option.some.inj hs).symm⟩
      posted := by rintro _ _ ⟨⟩
      returned := by rintro _ ⟨⟩ }
    have hadd := h.addRun (hn n hdrawn) (hdrawn ▸ hnonce) hrun
    rw [show env.popNonce.toList ++ p.drawn = n :: p.drawn by rw [hdrawn]; rfl]
    refine hadd.sign ?_
    rintro e (hold | hnew)
    · exact .inl hold
    · obtain ⟨-, -, hc⟩ := AitpEnvelope.of_target_eq (reveal_startHandshake hstart hnew)
      rw [hpayload] at hc
      exact .inr (wrote_of_none (not_read_of_hello hc))
  · exact h.draw _

theorem takeHelloAck (hP : P.ReadsText) (h : p.Sound P own said) {i : ℕ} {env : Surroundings}
    {response : Response} (ht : env.helloAckNow.Fits)
    (hsaid : ∀ e vk, readAitpEnvelopeResponse P response = .ok e →
      VerifyingKey.fromAid P e.sender = .ok vk → verifyEnvelopeSignature P e vk = .ok () → said e) :
    (p.takeHelloAck P J i env response).Sound P own said := by
  unfold Party.takeHelloAck
  split
  · rename_i config peerManifest popNonce initiator session hi
    have hrun := h.runs _ (List.mem_of_getElem? hi)
    obtain ⟨hnone, hdriver⟩ := hrun.awaiting rfl
    obtain rfl : initiator = .awaitingHelloAck popNonce peerManifest.aid := hdriver _ rfl
    obtain rfl : session = none := hnone
    split
    · rename_i initiator' commit peerPk htake
      obtain ⟨e, ack, payload, peer, hres, htaken, rfl, hpeer⟩ := takeHelloAck_ok hP ht htake
      obtain ⟨store, hstore⟩ := hrun.pinned
      have hkey := htaken.key
      rw [← htaken.sender] at hkey
      have hrun' : InitiatorRun.Sound P own said ⟨config, peerManifest, popNonce,
          some (.awaitingCommitAck popNonce peer), some (commit, peerPk), none⟩ := {
        self := hrun.self
        pinned := hrun.pinned
        awaiting := by rintro ⟨⟩
        posted := by
          rintro _ _ ⟨⟩
          refine ⟨⟨e, ack, payload, hsaid e peerPk hres hkey htaken.verified, htaken⟩, ?_⟩
          rintro _ ⟨⟩
          exact ⟨peer, rfl, hpeer⟩
        returned := by rintro _ ⟨⟩ }
      refine (h.setRun hi hrun' rfl (by rintro _ ⟨⟩)).sign ?_
      rintro e' (hold | hnew)
      · exact .inl hold
      · have htarget := reveal_takeHelloAck hstore htake hnew
        obtain ⟨-, -, hc⟩ := AitpEnvelope.of_target_eq htarget
        rw [htaken.posted] at hc
        obtain ⟨hnot, -⟩ := read_of_commit hc
        have hmem := List.mem_set (List.getElem?_eq_some_iff.mp hi).1
        refine .inr ⟨?_, fun m hm => .inl ⟨_, hmem _, commit, peerPk, rfl, htarget⟩⟩
        intro m hm
        rw [hnot] at hm
        cases hm
    · exact h.setRun hi hrun.stop rfl (by rintro _ ⟨⟩)
  · exact h

theorem takeCommitAck (h : p.Sound P own said) {i : ℕ} {env : Surroundings} {response : Response}
    (hsaid : ∀ e vk, readAitpEnvelopeResponse P response = .ok e →
      VerifyingKey.fromAid P e.sender = .ok vk → verifyEnvelopeSignature P e vk = .ok () → said e) :
    (p.takeCommitAck P i env response).Sound P own said := by
  unfold Party.takeCommitAck
  split
  · rename_i config peerManifest popNonce initiator commit peerPk session hi
    have hrun := h.runs _ (List.mem_of_getElem? hi)
    obtain ⟨htaken, hdriver⟩ := hrun.posted _ _ rfl
    obtain ⟨peer, hawait, hpeer⟩ := hdriver _ rfl
    split
    · rename_i returned htake
      rw [hawait] at htake
      obtain ⟨e, m, hres, hver, hack⟩ := takeCommitAck_ok htake
      obtain ⟨_, _, _, -, hbound⟩ := htaken
      have hkey := hbound.key
      rw [← hpeer, ← hack.sender] at hkey
      have hself : config.ownManifest.aid = own := hrun.self
      rw [hself, hpeer] at hack
      have hreturn := hrun.finish (by simp) (hsaid e peerPk hres hkey hver) hack
      exact h.setRun hi hreturn rfl (fun _ hx => hx)
    · exact h.setRun hi hrun.stop rfl (fun _ hx => hx)
  · exact h

theorem handleHello (h : p.Sound P own said) {server : HandshakeServer} {limits : SessionLimits}
    {request : Request} {draws : HelloDraws} {clock : TableClock} (ha : server.trustAnchors = [])
    (hv : server.identityVerifier = none) (hn : ∀ n ∈ draws.popNonce, n ∉ p.drawn) :
    (p.handleHello P J server limits request draws clock).Sound P own said := by
  unfold Party.handleHello
  simp only
  rcases hr : server.receiveHello P J limits p.state request draws clock with
    ⟨_ | ⟨responder, ack⟩, left⟩
  · refine (h.draw _).shrink ?_
    exact (HandshakeServer.receiveHello_error hr) ▸ List.Sublist.refl _
  · obtain ⟨hello, -, htake, hleft⟩ := HandshakeServer.receiveHello_ok hr
    obtain ⟨w, rfl, hnonce, hack, hecho, hl⟩ := takeHello_ok ha hv htake
    obtain ⟨n, hdrawn, -⟩ := freshNonce_eq_ok hnonce
    obtain ⟨kept, hentries, hkept⟩ := SessionTable.entries_openSession (.awaitingCommit w)
    have hadd := h.addSession (hn n hdrawn) (hdrawn ▸ hnonce) hl (hleft ▸ hentries) hkept
    simp only
    rw [show draws.popNonce.toList ++ p.drawn = n :: p.drawn by rw [hdrawn]; rfl]
    refine hadd.sign ?_
    rintro e (hold | hnew)
    · exact .inl hold
    · obtain ⟨answer, hanswer, htarget⟩ := reveal_serveHello hr hnew
      obtain ⟨-, -, hc⟩ := AitpEnvelope.of_target_eq htarget
      rw [payload_of_signHelloAck hanswer] at hc
      obtain ⟨hnot, hread⟩ := read_of_helloAck hc
      refine .inr ⟨fun m hm => ⟨w, List.mem_append_right _ List.mem_cons_self, ?_⟩, ?_⟩
      · obtain ⟨hmn, hme⟩ := hread m hm
        exact ⟨hack.symm.trans hmn.symm, hecho.symm.trans hme.symm⟩
      · intro m hm
        rw [hnot] at hm
        cases hm

theorem handleCommit (hP : P.ReadsText) (h : p.Sound P own said) {server : HandshakeServer}
    {limits : SessionLimits} {request : Request} {sessionId : Option String} {draws : CommitDraws}
    {clock : TableClock} (ho : server.manifest.aid = own) (ht : draws.now.Fits)
    (hsaid : ∀ e vk, request.parse P .mutualCommit = .ok e →
      VerifyingKey.fromAid P e.sender = .ok vk → verifyEnvelopeSignature P e vk = .ok () → said e) :
    (p.handleCommit P server limits request sessionId draws clock).Sound P own said := by
  unfold Party.handleCommit
  rcases hr : server.receiveCommit P limits p.state request sessionId draws clock with
    ⟨_ | completed, left⟩
  · refine h.shrink ?_
    have hleft : left =
        (server.receiveCommit P limits p.state request sessionId draws clock).2 := by rw [hr]
    rw [hleft]
    exact HandshakeServer.receiveCommit_sublist
  · obtain ⟨id, entry, hreceived, htaken, hdone⟩ := HandshakeServer.receiveCommit_ok hr
    obtain ⟨hw, m, hm⟩ := takeCommit_ok hP ht hdone
    obtain ⟨vk, hvk, hver⟩ := hm.verified
    have hparse := parse_of_receiveEnvelope hreceived
    obtain ⟨-, -, -, htype⟩ := parse_ok_iff.mp hparse
    have hadd := h.complete (SessionTable.sweepExpired_sublist _)
      (SessionTable.takeSession_ok htaken) hw (hsaid _ vk hparse hvk hver) htype (ho ▸ hm)
    refine hadd.sign ?_
    rintro e (hold | hnew)
    · exact .inl hold
    · have hlen : ∀ x ∈ p.state.sessions.entries, ∀ w, x.2.responder = .awaitingCommit w →
          w.peerPopNonce.length = 22 := by
        intro x hx w hr
        obtain ⟨w', hw', hr'⟩ := h.waiting x hx
        obtain rfl := Responder.awaitingCommit.inj (hr.symm.trans hr')
        exact h.length w hw'
      obtain ⟨answer, hanswer, htarget⟩ := reveal_serveCommit hlen hr hnew
      obtain ⟨hty, -, hc⟩ := AitpEnvelope.of_target_eq htarget
      obtain ⟨hack, hpayload⟩ := payload_of_signCommitAck hanswer
      rw [hpayload] at hc
      obtain ⟨hnot, hread⟩ := read_of_commit hc
      refine .inr ⟨?_, ?_⟩
      · intro m' hm'
        rw [hnot] at hm'
        cases hm'
      · intro m' hm'
        refine .inr ⟨?_, completed, List.mem_append_right _ List.mem_cons_self, hread m' hm'⟩
        exact hty.trans hack

end Sound

/-- Each act of an agent that acts for itself keeps what it relies on. -/
theorem Sound.after (hP : P.ReadsText) (h : p.Sound P own said) {signer : Signer} {act : Act}
    (ho : signer.aid = own) (hact : act.OwnedBy signer p.drawn)
    (hsaid : ∀ e vk, act.Delivers P e → VerifyingKey.fromAid P e.sender = .ok vk →
      verifyEnvelopeSignature P e vk = .ok () → said e) :
    (p.after P J act).Sound P own said := by
  cases act with
  | start config env =>
    obtain ⟨-, haid, hpinned, hn⟩ := hact
    exact h.startRun (haid.trans ho) hpinned hn
  | helloAck i env response => exact h.takeHelloAck hP hact hsaid
  | commitAck i env response => exact h.takeCommitAck hsaid
  | hello server limits request draws clock =>
    obtain ⟨-, -, ha, hv, hn⟩ := hact
    exact h.handleHello ha hv hn
  | commit server limits request sessionId draws clock =>
    obtain ⟨-, haid, ht⟩ := hact
    exact h.handleCommit hP (haid.trans ho) ht hsaid
  | sweep limits now => exact h.shrink (SessionTable.sweepExpired_sublist _)
  | sign target =>
    refine h.sign ?_
    rintro e (rfl | hold)
    · exact .inr (wrote_of_none (hact e rfl))
    · exact .inl hold

end Party

end Aitp
