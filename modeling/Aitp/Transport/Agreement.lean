import Aitp.Transport.NetworkHandshake
import Aitp.Transport.NetworkSound

/-! # Agreement

An agent that completes with an honest one shares both nonces, the COMMIT and the tokens
with exactly one session or run of it, whatever the other agents and the adversary do.
-/

namespace Aitp

open Transition

variable {ι : Type} {P : Primitives} {J : Jose} {key : ι → Signer}
  {w : ι → Party} {run : InitiatorRun} {c : CompletedSession}

/-! ## What holds of every agent -/

/-- What an honest agent is named as the sender of, it signed. -/
def Said (key : ι → Signer) (w : ι → Party) (e : AitpEnvelope) : Prop :=
  ∀ a, e.sender = (key a).aid → e.target ∈ (w a).signed

theorem Party.signed_subset_after (p : Party) (act : Act) : p.signed ⊆ (p.after P J act).signed := by
  cases act with
  | start config env =>
    simp only [Party.after, Party.startRun]
    split
    · exact Set.subset_union_left
    · exact Set.Subset.refl _
  | helloAck i env response =>
    simp only [Party.after, Party.takeHelloAck]
    split
    · split
      · exact Set.subset_union_left
      · exact Set.Subset.refl _
    · exact Set.Subset.refl _
  | commitAck i env response =>
    simp only [Party.after, Party.takeCommitAck]
    split
    · split <;> exact Set.Subset.refl _
    · exact Set.Subset.refl _
  | hello server limits request draws clock =>
    simp only [Party.after, Party.handleHello]
    split
    · exact Set.Subset.refl _
    · exact Set.subset_union_left
  | commit server limits request sessionId draws clock =>
    simp only [Party.after, Party.handleCommit]
    split
    · exact Set.Subset.refl _
    · exact Set.subset_union_left
  | sweep limits now => exact Set.Subset.refl _
  | sign target => exact Set.subset_insert target _

theorem network_sound [DecidableEq ι] (hP : P.ReadsText)
    (h : ((network P J).restrict (Honestly P key)).Reachable w) (a : ι) :
    (w a).Sound P (key a).aid (Said key w) := by
  refine h.invariant (I := fun w => ∀ a, (w a).Sound P (key a).aid (Said key w)) ?_ ?_ a
  · intro w hw a
    exact (hw a).sound
  · rintro w ⟨b, act⟩ w' ih ⟨⟨hact, hdelivers⟩, rfl⟩ a
    have hsigned : ∀ a, (w a).signed ⊆ (Function.update w b ((w b).after P J act) a).signed := by
      intro a
      by_cases hab : a = b
      · subst hab
        rw [Function.update_self]
        exact (w a).signed_subset_after act
      · rw [Function.update_of_ne hab]
    have hsaid : ∀ e, Said key w e → Said key (Function.update w b ((w b).after P J act)) e := by
      intro e he a hs
      exact hsigned a (he a hs)
    by_cases hab : a = b
    · subst hab
      rw [Function.update_self]
      refine ((ih a).mono hsaid).after hP rfl hact ?_
      intro e vk hd hvk hver
      refine hsaid e ?_
      intro a' hs
      exact hdelivers e hd a' vk hs hvk hver
    · rw [Function.update_of_ne hab]
      exact (ih a).mono hsaid

/-! ## What agreement is -/

/-- The payload of the COMMIT that a run posted. -/
def InitiatorRun.committed (run : InitiatorRun) : Option MutualCommitPayload :=
  run.commit.bind fun posted => decodeMutualCommitPayload posted.1.payload

/-- A run and a session with the same two nonces. -/
structure SameNonces (run : InitiatorRun) (c : CompletedSession) : Prop where
  initiator : run.popNonce = c.session.peerPopNonce
  responder : run.committed.map MutualCommitPayload.popNonceEcho = some c.session.myPopNonce

/-- The session completed on the COMMIT that the run posted, and holds the token in it. -/
structure Produced (run : InitiatorRun) (c : CompletedSession) : Prop where
  commit : run.commit.map (fun posted => posted.1.target) = some c.commit.target
  token : run.committed.map MutualCommitPayload.tct = some c.held.tct.token

def ExactlyOne {α : Type} (l : List α) (q : α → Prop) : Prop :=
  ∃! i : ℕ, ∃ x, l[i]? = some x ∧ q x

/-- A run that returned a session with an honest peer has its nonces in common with one session
that the peer completed with it, and each of them holds the token that the other issued. -/
def InitiatorAgrees (key : ι → Signer) (w : ι → Party) : Prop :=
  ∀ a b, ∀ run ∈ (w a).runs, ∀ session, run.session = some session →
    run.peerManifest.aid = (key b).aid →
    ExactlyOne (w b).completed (fun c => c.session.peer.aid = (key a).aid ∧ SameNonces run c) ∧
    ∀ c ∈ (w b).completed, c.session.peer.aid = (key a).aid → SameNonces run c →
      session.heldTct.token = c.ack.tct ∧ Produced run c

/-- A session that completed with an honest peer has its nonces in common with one run of the peer
that addresses it, which posted its COMMIT. -/
def ResponderAgrees (key : ι → Signer) (w : ι → Party) : Prop :=
  ∀ a b, ∀ c ∈ (w b).completed, c.session.peer.aid = (key a).aid →
    ExactlyOne (w a).runs (fun run => run.peerManifest.aid = (key b).aid ∧ SameNonces run c) ∧
    ∀ run ∈ (w a).runs, run.peerManifest.aid = (key b).aid → SameNonces run c → Produced run c

theorem exactlyOne_of_nodup {α β : Type} {f : α → β} {l : List α} {q : α → Prop} {x : α}
    (hn : (l.map f).Nodup) (hx : x ∈ l) (hq : q x) (hf : ∀ y, q y → f y = f x) :
    ExactlyOne l q := by
  obtain ⟨i, hi⟩ := List.mem_iff_getElem?.mp hx
  refine ⟨i, ⟨x, hi, hq⟩, ?_⟩
  rintro j ⟨y, hj, hy⟩
  have hmap : (l.map f)[i]? = (l.map f)[j]? := by
    rw [List.getElem?_map, List.getElem?_map, hi, hj, Option.map_some, Option.map_some, hf y hy]
  have hlt : i < (l.map f).length := by
    rw [List.length_map]
    exact (List.getElem?_eq_some_iff.mp hi).1
  exact ((List.getElem?_inj hlt hn).mp hmap).symm

/-! ## Agreement of every reachable state -/

section

variable {a b : ι} {session : SessionContext}

/-- The COMMIT on which a session completed with an honest peer is one that the peer's run posted
to it, in answer to the session's HELLO_ACK. -/
theorem exists_run (hs : ∀ a, (w a).Sound P (key a).aid (Said key w)) (hc : c ∈ (w b).completed)
    (ha : c.session.peer.aid = (key a).aid) :
    ∃ run ∈ (w a).runs, run.peerManifest.aid = (key b).aid ∧ SameNonces run c ∧ Produced run c := by
  obtain ⟨hsaid, htype, m, hm⟩ := (hs b).completed c hc
  have hwrote := (hs a).signed c.commit (hsaid a (hm.sender.trans ha))
  rcases hwrote.commit m hm.read with ⟨run, hrun, commit, peerPk, hcommit, ht⟩ | ⟨hack, -⟩
  · obtain ⟨⟨e, ack, payload, he, htaken⟩, -⟩ := ((hs a).runs run hrun).posted _ _ hcommit
    obtain ⟨-, -, hcanon⟩ := AitpEnvelope.of_target_eq ht
    rw [htaken.posted] at hcanon
    obtain ⟨htct, hecho⟩ := (read_of_commit hcanon).2 m hm.read
    have hpeer : run.peerManifest.aid = (key b).aid :=
      (hm.forOwn _ (htct ▸ htaken.token)).symm
    obtain ⟨o, ho, hnonce, hpeerNonce⟩ :=
      ((hs b).signed e (he b (htaken.sender.trans hpeer))).helloAck ack htaken.read
    have hopened : ((w b).opened.map AwaitingCommit.myPopNonce).Nodup := (hs b).nodup.of_append_right
    have hown : o.myPopNonce = c.session.myPopNonce := by
      rw [hnonce, ← htaken.answers, ← hecho, hm.echo]
    obtain rfl := List.inj_on_of_nodup_map hopened ho ((hs b).opened c hc) hown
    have hcommitted : run.committed = some payload := by
      simp only [InitiatorRun.committed, hcommit, Option.bind_some, htaken.posted, htaken.written]
    refine ⟨run, hrun, hpeer, ⟨?_, ?_⟩, ?_, ?_⟩
    · rw [hpeerNonce, htaken.echo]
    · rw [hcommitted, Option.map_some, htaken.answers, hnonce]
    · rw [hcommit, Option.map_some, ht]
    · rw [hcommitted, Option.map_some, ← htct, hm.held]
  · rw [htype] at hack
    cases hack

/-- The COMMIT_ACK on which a run returned is the answer of a session that completed, and no
COMMIT of the peer's. -/
theorem exists_session (hs : ∀ a, (w a).Sound P (key a).aid (Said key w)) (hrun : run ∈ (w a).runs)
    (hsession : run.session = some session) (hb : run.peerManifest.aid = (key b).aid) :
    ∃ c ∈ (w b).completed, c.session.peer.aid = (key a).aid ∧
      c.session.peerPopNonce = run.popNonce ∧ session.heldTct.token = c.ack.tct := by
  obtain ⟨e, m, hsaid, hm⟩ := ((hs a).runs run hrun).returned session hsession
  have hwrote := (hs b).signed e (hsaid b (hm.sender.trans hb))
  rcases hwrote.commit m hm.read with ⟨run', hrun', commit, peerPk, hcommit, ht⟩ |
    ⟨-, c, hc, htct, hecho⟩
  · obtain ⟨⟨e', ack, payload, he, htaken⟩, -⟩ := ((hs b).runs run' hrun').posted _ _ hcommit
    obtain ⟨-, -, hcanon⟩ := AitpEnvelope.of_target_eq ht
    rw [htaken.posted] at hcanon
    obtain ⟨htct, hecho⟩ := (read_of_commit hcanon).2 m hm.read
    have hpeer : run'.peerManifest.aid = (key a).aid :=
      (hm.forOwn _ (htct ▸ htaken.token)).symm
    obtain ⟨o, ho, hnonce, -⟩ :=
      ((hs a).signed e' (he a (htaken.sender.trans hpeer))).helloAck ack htaken.read
    -- The nonce of a run would be the nonce of a session.
    have hown : run.popNonce = o.myPopNonce := by
      rw [hnonce, ← htaken.answers, ← hecho, hm.echo]
    exact absurd hown ((List.nodup_append.mp (hs a).nodup).2.2 _ (List.mem_map_of_mem hrun) _
      (List.mem_map_of_mem ho))
  · obtain ⟨-, -, m', hm'⟩ := (hs b).completed c hc
    refine ⟨c, hc, (hm.forOwn _ (htct ▸ hm'.token)).symm, ?_, hm.held.trans htct⟩
    rw [← hm'.answers, ← hecho, hm.echo]

end

/-- Whoever completes with an honest agent agrees with it. -/
theorem mutual_agreement [DecidableEq ι] (hP : P.ReadsText)
    (h : ((network P J).restrict (Honestly P key)).Reachable w) :
    InitiatorAgrees key w ∧ ResponderAgrees key w := by
  have hs := network_sound hP h
  have hruns : ∀ a, ((w a).runs.map InitiatorRun.popNonce).Nodup := fun a =>
    (hs a).nodup.of_append_left
  have hdone : ∀ b, ((w b).completed.map fun c => c.session.myPopNonce).Nodup := fun b =>
    (hs b).once.of_append_right
  constructor
  · intro a b run hrun session hsession hb
    obtain ⟨c, hc, ha, hn, ht⟩ := exists_session hs hrun hsession hb
    obtain ⟨run', hrun', -, hsame, hproduced⟩ := exists_run hs hc ha
    have hnonce : run'.popNonce = run.popNonce := hsame.initiator.trans hn
    obtain rfl := List.inj_on_of_nodup_map (hruns a) hrun' hrun hnonce
    have hone : ∀ c', SameNonces run' c' → c'.session.myPopNonce = c.session.myPopNonce := by
      intro c' hc'
      exact Option.some.inj (hc'.responder.symm.trans hsame.responder)
    constructor
    · refine exactlyOne_of_nodup (hdone b) hc ⟨ha, hsame⟩ ?_
      rintro c' ⟨-, hc'⟩
      exact hone c' hc'
    · intro c' hc' _ hsame'
      obtain rfl := List.inj_on_of_nodup_map (hdone b) hc' hc (hone c' hsame')
      exact ⟨ht, hproduced⟩
  · intro a b c hc ha
    obtain ⟨run, hrun, hb, hsame, hproduced⟩ := exists_run hs hc ha
    have hone : ∀ run', SameNonces run' c → run'.popNonce = run.popNonce := by
      intro run' hrun'
      exact hrun'.initiator.trans hsame.initiator.symm
    constructor
    · refine exactlyOne_of_nodup (hruns a) hrun ⟨hb, hsame⟩ ?_
      rintro run' ⟨-, hrun'⟩
      exact hone run' hrun'
    · intro run' hrun' _ hsame'
      obtain rfl := List.inj_on_of_nodup_map (hruns a) hrun' hrun (hone run' hsame')
      exact hproduced

namespace Toy

def newParty : Party := ⟨[], ⟨newServerState, .empty⟩, [], [], [], ∅⟩

end Toy

open Toy in
/-- Agent 1 returns from a handshake with agent 0, which completed its session. -/
theorem mutual_agreement_completed : ∃ w : Fin 4 → Party,
    (∃ run ∈ (w 1).runs, ∃ session, run.session = some session ∧
      run.peerManifest.aid = agent 0) ∧
    (∃ c ∈ (w 0).completed, c.session.peer.aid = agent 1) ∧
    InitiatorAgrees (fun n : Fin 4 => signer (agent n)) w ∧
    ResponderAgrees (fun n : Fin 4 => signer (agent n)) w := by
  have hnew : ((network primitives jose).restrict
      (Honestly primitives fun n : Fin 4 => signer (agent n))).Reachable fun _ => newParty :=
    .init fun _ => ⟨rfl, rfl, rfl, rfl, rfl, rfl⟩
  obtain ⟨w, hw, hreturned, hcompleted⟩ := httpHandshake_honest.exists_completed readsText
    httpHandshake_between httpHandshake_answersFit ⟨by decide, by decide⟩ hnew
    ⟨List.not_mem_nil, List.not_mem_nil⟩ httpHandshake_unseen
  exact ⟨w, hreturned, hcompleted, mutual_agreement readsText hw⟩

end Aitp
