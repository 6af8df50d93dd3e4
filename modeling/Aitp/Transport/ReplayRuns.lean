import Aitp.Crypto.Toy
import Aitp.Foundation.Transition
import Aitp.Transport.Receive

/-! # Replays across requests

Runs of one server under a clock that never goes back. A message identifier is
forgotten 300 seconds after its receipt, while an envelope stays timely until
300 seconds after its own timestamp. The two windows meet only when the
timestamp lies before the second of the receipt.
-/

namespace Aitp

open Transition

/-- A server, its clock, and the envelopes it accepted with the time of each, newest first. -/
structure Receiving where
  state : ServerState
  clock : ℕ
  accepted : List (AitpEnvelope × ℕ)

/-- A request and the message type its endpoint expects. -/
structure Presentation where
  request : Request
  expected : MessageType

/-- The default replay window, with any rate limits. -/
def defaultConfig (limits : Option RateLimitConfig) : ServerConfig where
  rateLimit := limits

variable (P : Primitives) (limits : Option RateLimitConfig)

/-- The server after a presentation. -/
def Receiving.after (s : Receiving) (p : Presentation) : Receiving :=
  let r := receiveEnvelope P (defaultConfig limits) s.state p.request p.expected
  ⟨r.2, p.request.now, (r.1.toOption.map fun e => (e, p.request.now)).toList ++ s.accepted⟩

/-- Any sequence of presentations to a new server, under a nondecreasing clock that can represent
the end of every replay window. -/
def receiving : System Receiving Presentation where
  init s := s.state = ⟨fun _ => none, fun _ => none⟩ ∧ s.accepted = []
  step s p s' := (s.clock ≤ p.request.now ∧ p.request.now + 300 * nanosPerSec ≤ instantMax) ∧
    s' = s.after P limits p

/-- An envelope that passes every check is dated before the current second. -/
def DatedInPast (s : Receiving) (p : Presentation) : Prop :=
  ∀ e, Passes P (defaultConfig limits) s.state p.request p.expected e →
    e.timestamp < timestampAt p.request.now

/-- No two acceptances are of one envelope. -/
def NoReplay (s : Receiving) : Prop :=
  s.accepted.Pairwise fun a b => a.1 ≠ b.1

variable {P limits} {s : Receiving} {p : Presentation}

theorem accepted_after (s : Receiving) (p : Presentation) :
    (∃ e, Passes P (defaultConfig limits) s.state p.request p.expected e ∧
      (s.after P limits p).accepted = (e, p.request.now) :: s.accepted) ∨
    (s.after P limits p).accepted = s.accepted := by
  cases hr : (receiveEnvelope P (defaultConfig limits) s.state p.request p.expected).1 with
  | ok e =>
    left
    exact ⟨e, receiveEnvelope_ok_iff.mp hr, by simp [Receiving.after, hr, Except.toOption]⟩
  | error err =>
    right
    simp [Receiving.after, hr, Except.toOption]

theorem expiryAt_window (hi : p.request.now + 300 * nanosPerSec ≤ instantMax) :
    expiryAt p.request.now (defaultConfig limits).replayWindow =
      p.request.now + 300 * nanosPerSec :=
  if_pos hi

theorem timestampAt_mono {t t' : ℕ} (h : t ≤ t') : timestampAt t ≤ timestampAt t' := by
  exact Int.ofNat_le.mpr (Nat.div_le_div_right h)

theorem timestampAt_add (t n : ℕ) : timestampAt (t + n * nanosPerSec) = timestampAt t + n := by
  have hp : 0 < nanosPerSec := by decide
  simp [timestampAt, Nat.add_mul_div_right _ _ hp]

/-- Each accepted envelope is dated before the second of its acceptance, and its identifier is
remembered for the window. -/
structure Remembers (s : Receiving) (a : AitpEnvelope × ℕ) : Prop where
  past : a.1.timestamp < timestampAt a.2
  seen : s.state.seen a.1.messageId.hyphenated = some (a.2 + 300 * nanosPerSec) ∨
    a.2 + 300 * nanosPerSec ≤ s.clock

theorem remembers_after {a : AitpEnvelope × ℕ} (h : Remembers s a)
    (hc : s.clock ≤ p.request.now) : Remembers (s.after P limits p) a := by
  refine ⟨h.past, ?_⟩
  rcases h.seen with hs | hs
  · rcases Nat.lt_or_ge p.request.now (a.2 + 300 * nanosPerSec) with hlt | hge
    · exact .inl (seen_kept hs hlt)
    · exact .inr hge
  · exact .inr (hs.trans hc)

theorem ne_of_passes {e : AitpEnvelope} {a : AitpEnvelope × ℕ} (h : Remembers s a)
    (hc : s.clock ≤ p.request.now)
    (hp : Passes P (defaultConfig limits) s.state p.request p.expected e) : e ≠ a.1 := by
  rintro rfl
  have hw : a.2 + 300 * nanosPerSec ≤ p.request.now := by
    rcases h.seen with hs | hs
    · exact Seen.checkAndRecord_fresh.mp hp.fresh _ hs
    · exact hs.trans hc
  have ht := (Timestamp.le_of_isWithinToleranceOf hp.timely).2
  have hm := timestampAt_mono hw
  have hl := h.past
  rw [timestampAt_add] at hm
  simp only [defaultTimestampTolerance] at ht
  linarith

theorem noReplay_after (hr : ∀ a ∈ s.accepted, Remembers s a) (hn : NoReplay s)
    (hg : DatedInPast P limits s p) (hc : s.clock ≤ p.request.now)
    (hi : p.request.now + 300 * nanosPerSec ≤ instantMax) :
    (∀ a ∈ (s.after P limits p).accepted, Remembers (s.after P limits p) a) ∧
      NoReplay (s.after P limits p) := by
  have hk : ∀ a ∈ s.accepted, Remembers (s.after P limits p) a :=
    fun a ha => remembers_after (hr a ha) hc
  rcases @accepted_after P limits s p with ⟨e, hp, ha⟩ | ha
  · unfold NoReplay
    rw [ha]
    constructor
    · rintro a (- | ⟨-, hm⟩)
      · exact ⟨hg e hp, .inl ((seen_recorded hp).trans (congrArg some (expiryAt_window hi)))⟩
      · exact hk a hm
    · exact List.pairwise_cons.mpr ⟨fun a hm => ne_of_passes (hr a hm) hc hp, hn⟩
  · unfold NoReplay
    rw [ha]
    exact ⟨hk, hn⟩

theorem noReplay_of_datedInPast
    (h : ((receiving P limits).restrict (DatedInPast P limits)).Reachable s) : NoReplay s := by
  have hi : (∀ a ∈ s.accepted, Remembers s a) ∧ NoReplay s := by
    induction h with
    | init hi =>
      unfold NoReplay
      rw [hi.2]
      exact ⟨nofun, .nil⟩
    | step _ hs ih =>
      obtain ⟨hg, ⟨hc, hi⟩, rfl⟩ := hs
      exact noReplay_after ih.1 ih.2 hg hc hi
  exact hi.2

theorem events_le_clock (h : (receiving P limits).Reachable s) :
    ∀ k, ∀ t ∈ s.state.events.entry k, t ≤ s.clock := by
  induction h with
  | init hi => simp [hi.1, Events.entry]
  | step _ hs ih =>
    obtain ⟨⟨hc, -⟩, rfl⟩ := hs
    intro k t ht
    simp only [Receiving.after, receiveEnvelope] at ht ⊢
    split_ifs at ht
    · exact (ih k t ht).trans hc
    · exact (ih k t ht).trans hc
    · rcases mem_rateLimitCheck ht with ht | rfl
      · exact (ih k t ht).trans hc
      · exact le_rfl
    · rcases mem_rateLimitCheck ht with ht | rfl
      · exact (ih k t ht).trans hc
      · exact le_rfl

/-- The same request, 300 seconds later. -/
def Presentation.later (p : Presentation) : Presentation :=
  { p with request := { p.request with now := p.request.now + 300 * nanosPerSec } }

/-- An envelope accepted in or before the second it is dated is accepted again. -/
theorem accepted_again {e : AitpEnvelope} (hr : (receiving P limits).Reachable s)
    (hc : s.clock ≤ p.request.now) (hi : p.request.now + 300 * nanosPerSec ≤ instantMax)
    (hp : Passes P (defaultConfig limits) s.state p.request p.expected e)
    (hd : timestampAt p.request.now ≤ e.timestamp) :
    Passes P (defaultConfig limits) (s.after P limits p).state p.later.request p.expected e := by
  have ht := Timestamp.le_of_isWithinToleranceOf hp.timely
  have hs : (receiving P limits).Reachable (s.after P limits p) := hr.step ⟨⟨hc, hi⟩, rfl⟩
  refine ⟨?_, ?_, ?_, hp.json, hp.parses, hp.messageType⟩
  · refine Seen.checkAndRecord_fresh.mpr fun exp he => ?_
    obtain rfl := Option.some.inj ((seen_recorded hp).symm.trans he)
    exact (expiryAt_window hi).le
  · refine rateLimitCheck_of_quiet hp.allowed fun k t hm => ?_
    have := events_le_clock hs k t hm
    simp only [Receiving.after, Presentation.later] at this ⊢
    omega
  · obtain ⟨hu, hl⟩ := ht
    have hn : timestampAt p.later.request.now = timestampAt p.request.now + (300 : ℕ) :=
      timestampAt_add ..
    rw [hn]
    simp only [defaultTimestampTolerance, Nat.cast_ofNat] at hu hl ⊢
    exact Timestamp.isWithinToleranceOf_of_le (by push_cast; linarith) (by push_cast; linarith)
      (by decide)

theorem replayed_later (hr : (receiving P limits).Reachable s) (hc : s.clock ≤ p.request.now)
    (hi : p.request.now + 300 * nanosPerSec ≤ instantMax) (hg : ¬ DatedInPast P limits s p) :
    ¬ NoReplay ((s.after P limits p).after P limits p.later) := by
  simp only [DatedInPast, not_forall, not_lt] at hg
  obtain ⟨e, hp, hd⟩ := hg
  have hr₁ := receiveEnvelope_ok_iff.mpr hp
  have hr₂ := receiveEnvelope_ok_iff.mpr (accepted_again hr hc hi hp hd)
  have ha : ((s.after P limits p).after P limits p.later).accepted =
      (e, p.later.request.now) :: (e, p.request.now) :: s.accepted := by
    rw [Receiving.after, show p.later.expected = p.expected from rfl, hr₂]
    simp [Receiving.after, hr₁, Except.toOption]
  unfold NoReplay
  rw [ha]
  intro hn
  exact (List.pairwise_cons.mp hn).1 _ (List.mem_cons_self ..) rfl

/-- While every envelope that passes the checks is dated before the second it is checked in, none
is accepted twice. The first that is not is accepted again 300 seconds later. -/
theorem noReplay_while_datedInPast
    (h : ((receiving P limits).restrict (DatedInPast P limits)).Reachable s) :
    NoReplay s ∧ ∀ p : Presentation, s.clock ≤ p.request.now →
      p.request.now + 300 * nanosPerSec ≤ instantMax → ¬ DatedInPast P limits s p →
        ¬ NoReplay ((s.after P limits p).after P limits p.later) :=
  ⟨noReplay_of_datedInPast h, fun _ hc hi hg => replayed_later h.of_restrict hc hi hg⟩

/-- A HELLO envelope dated 1711900000, presented so many seconds later. -/
def helloPresentation (secs : ℕ) : Presentation where
  request :=
    { contentType := "application/json"
      body := some (utf8 (wireEnvelope (.str "mutual_hello")
        (.obj [("agent_id", .str zeroAid)])).text)
      source := "ip:unknown"
      now := (1711900000 + secs) * nanosPerSec }
  expected := .mutualHello

def newReceiving : Receiving := ⟨⟨fun _ => none, fun _ => none⟩, 0, []⟩

theorem passes_helloPresentation (secs : Fin 2) :
    ∃ e, Passes Toy.primitives (defaultConfig none) newReceiving.state
      (helloPresentation secs).request .mutualHello e ∧ e.timestamp = 1711900000 := by
  have ho : ∀ secs : Fin 2, ((receiveEnvelope Toy.primitives (defaultConfig none)
      newReceiving.state (helloPresentation secs).request .mutualHello).1.toOption.any fun e =>
        decide (e.timestamp = 1711900000)) = true := by
    decide +kernel
  obtain ⟨e, he, ht⟩ := (Option.any_eq_true ..).mp (ho secs)
  exact ⟨e, receiveEnvelope_ok_iff.mp (toOption_eq_some.mp he), of_decide_eq_true ht⟩

theorem timestamp_of_helloPresentation {state : ServerState} {secs : ℕ} {e : AitpEnvelope}
    (h : Passes Toy.primitives (defaultConfig none) state (helloPresentation secs).request
      .mutualHello e) : e.timestamp = 1711900000 := by
  have hbody : (helloPresentation secs).request.body = (helloPresentation 0).request.body := rfl
  have hm := (members_of_parses h.parses).2
  have ht : (((helloPresentation 0).request.member Toy.primitives "timestamp").bind
      Serde.i64).any (fun t => decide (t = 1711900000)) = true := by
    decide +kernel
  rw [Request.member, Request.value, ← hbody, ← Request.value, ← Request.member, hm] at ht
  exact of_decide_eq_true ht

/-- An envelope of the second before is accepted, and refused when it comes again. -/
theorem noReplay_while_datedInPast_hello :
    let once := newReceiving.after Toy.primitives none (helloPresentation 1)
    let twice := once.after Toy.primitives none (helloPresentation 2)
    NoReplay twice ∧ once.accepted.length = 1 ∧ twice.accepted.length = 1 := by
  have hlater : ∀ secs : Fin 2,
      (1711900000 : Timestamp) < timestampAt (helloPresentation (secs + 1)).request.now := by
    decide
  have hd : ∀ s (secs : Fin 2),
      DatedInPast Toy.primitives none s (helloPresentation (secs + 1)) := by
    intro s secs e he
    rw [timestamp_of_helloPresentation he]
    exact hlater secs
  have honce := System.Reachable.step (S := (receiving Toy.primitives none).restrict
    (DatedInPast Toy.primitives none)) (.init (s := newReceiving) ⟨rfl, rfl⟩)
    ⟨hd _ 0, ⟨Nat.zero_le _, by decide⟩, rfl⟩
  have htwice := honce.step ⟨hd _ 1, ⟨by decide, by decide⟩, rfl⟩
  exact ⟨(noReplay_while_datedInPast htwice).1, by decide +kernel, by decide +kernel⟩

/-- An envelope dated the second it is received is accepted again 300 seconds later. -/
theorem replay_hello :
    ∃ s, (receiving Toy.primitives none).Reachable s ∧ ¬ NoReplay s := by
  have hr : (receiving Toy.primitives none).Reachable newReceiving := .init ⟨rfl, rfl⟩
  have hg : ¬ DatedInPast Toy.primitives none newReceiving (helloPresentation 0) := by
    intro hg
    obtain ⟨e, he, ht⟩ := passes_helloPresentation 0
    have hlt := hg e he
    rw [ht] at hlt
    exact absurd hlt (by decide)
  refine ⟨_, ?_, replayed_later hr (Nat.zero_le _) (by decide) hg⟩
  exact (hr.step ⟨⟨Nat.zero_le _, by decide⟩, rfl⟩).step ⟨by decide, rfl⟩

end Aitp
