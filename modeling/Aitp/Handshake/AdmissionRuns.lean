import Aitp.Crypto.Toy
import Aitp.Handshake.Admission

/-! # Concurrent admission

Calls of `challenge` and `admit_wire` on one admission object, interleaved. A
step is one store operation with the checks that follow it. A call reads the
clock when it starts and gives that reading to every store operation it makes,
so an operation may run under a clock that has moved on.
-/

namespace Aitp

open Expiring Transition

inductive AdmissionResult where
  | challenged (r : Except AdmissionError AdmissionChallenge)
  | admitted (r : Except AdmissionError Admitted)

/-- Where a call is. A call about to record its identifier carries the serial number of the
challenge it consumed, which the code never reads. -/
inductive AdmissionPc where
  | idle
  | issuing (nonce : Nonce) (now : Timestamp) (retry : Bool)
  | gating (envelope : CheckedJson) (now : Timestamp)
  | consuming (p : Presented) (now : Timestamp)
  | recording (p : Presented) (now : Timestamp) (serial : Option ℕ)
  | returned (r : AdmissionResult)

/-- A successful admission: what it answered, the reading its call worked with, and the last
reading of the clock when it was recorded. -/
structure Admission where
  result : Admitted
  nonce : Nonce
  timestamp : Timestamp
  serial : Option ℕ
  now : Timestamp
  recordedAt : Timestamp

/-- The two stores, the last reading of the clock and the calls, with the challenges issued, oldest
first, and the records consumed and admissions made, newest first. -/
structure AdmissionWorld where
  nonces : InMemoryNonceStore
  denyList : InMemoryMessageIdDenyList
  clock : Timestamp
  threads : ℕ → AdmissionPc
  issued : List IssuedNonce
  consumed : List Entry
  admitted : List Admission

/-- A call starts at a reading of the clock, or takes a step. The answers of the rate limiters and
the nonces drawn are part of the event. -/
inductive AdmissionEvent where
  | challenge (t : ℕ) (now : Timestamp) (limiter : Option ℕ) (nonce : Option Nonce)
  | admitWire (t : ℕ) (now : Timestamp) (envelope : CheckedJson)
  | run (t : ℕ) (limiter : Option ℕ) (nonce : Option Nonce)

namespace AdmissionPc

/-- The nonce drawn for a challenge, unless the generator fails. -/
def draw (nonce : Option Nonce) (now : Timestamp) (retry : Bool) : AdmissionPc :=
  match nonce with
  | some n => .issuing n now retry
  | none => .returned (.challenged (.error .rng))

/-- The first checks of `issue_challenge`. -/
def challenge (limiter : Option ℕ) (nonce : Option Nonce) (now : Timestamp) : AdmissionPc :=
  match checkLimiter limiter with
  | .ok () => draw nonce now true
  | .error e => .returned (.challenged (.error e))

/-- The reading a call works with. -/
def reading : AdmissionPc → Option Timestamp
  | idle | returned _ => none
  | issuing _ now _ | gating _ now | consuming _ now | recording _ now _ => some now

end AdmissionPc

variable (P : Primitives) (adm : PinnedAdmission)

namespace AdmissionWorld

def setThread (w : AdmissionWorld) (t : ℕ) (pc : AdmissionPc) : AdmissionWorld :=
  { w with threads := Function.update w.threads t pc }

@[simp] theorem setThread_self (w : AdmissionWorld) (t : ℕ) (pc : AdmissionPc) :
    (w.setThread t pc).threads t = pc :=
  Function.update_self ..

theorem setThread_of_ne {w : AdmissionWorld} {t t' : ℕ} {pc : AdmissionPc} (h : t' ≠ t) :
    (w.setThread t pc).threads t' = w.threads t' :=
  Function.update_of_ne h ..

/-- Start a call on an idle thread, under a clock that never goes back. -/
def start (w : AdmissionWorld) (t : ℕ) (now : Timestamp) (pc : AdmissionPc) :
    Option AdmissionWorld :=
  if w.clock ≤ now ∧ now ≤ i64Max then
    match w.threads t with
    | .idle | .returned _ => some { w.setThread t pc with clock := now }
    | _ => none
  else none

/-- `nonces.issue`, in the loop of `issue_challenge`. -/
def runIssue (w : AdmissionWorld) (t : ℕ) (nonce : Nonce) (now : Timestamp) (retry : Bool)
    (redrawn : Option Nonce) : AdmissionWorld :=
  let record := adm.challengeRecord nonce now
  let r := w.nonces.issueSync adm.nonces record w.issued.length
  let pc : AdmissionPc :=
    match r.2 with
    | .ok () => .returned (.challenged (.ok (PinnedAdmission.challengeFor record)))
    | .error .duplicate =>
      if retry then .draw redrawn now false else .returned (.challenged (.error .rng))
    | .error (.atCapacity _ retryAfter) =>
      .returned (.challenged (.error (.challengeRefused retryAfter .atCapacity)))
  { w.setThread t pc with
    nonces := r.1
    issued := if r.2 = .ok () then w.issued ++ [record] else w.issued }

/-- `deny_list.contains`, and the checks up to the nonce store. -/
def runGate (w : AdmissionWorld) (t : ℕ) (envelope : CheckedJson) (now : Timestamp)
    (limiter : Option ℕ) : AdmissionWorld :=
  let r :=
    match PinnedAdmission.gateMessageId envelope with
    | some mid => w.denyList.containsSync adm.denyList mid now
    | none => (w.denyList, false)
  let pc : AdmissionPc :=
    if r.2 then .returned (.admitted (.error .replay))
    else
      match adm.checkWire P limiter envelope now with
      | .ok p => .consuming p now
      | .error e => .returned (.admitted (.error e))
  { w.setThread t pc with denyList := r.1 }

/-- `nonces.consume`. -/
def runConsume (w : AdmissionWorld) (t : ℕ) (p : Presented) (now : Timestamp) : AdmissionWorld :=
  let r := w.nonces.consumeSync adm.nonces p.nonce adm.verifierAid now
  let found := w.nonces.held adm.nonces p.nonce
  let pc : AdmissionPc :=
    match r.2 with
    | .consumed => .recording p now (found.map Entry.serial)
    | .expired => .returned (.admitted (.error (.identity "challenge expired")))
    | .unknown => .returned (.admitted (.error (.identity "challenge unknown")))
  { w.setThread t pc with
    nonces := r.1
    consumed := (if r.2 = .consumed then found else none).toList ++ w.consumed }

/-- `deny_list.insert`, and the admission. -/
def runRecord (w : AdmissionWorld) (t : ℕ) (p : Presented) (now : Timestamp)
    (serial : Option ℕ) : AdmissionWorld :=
  let r := w.denyList.insertSync adm.denyList p.messageId (adm.keptUntil p.timestamp) now
  let result : Admitted := ⟨p.key, p.subject, p.messageId⟩
  let answer : Except AdmissionError Admitted :=
    match r.2 with
    | .ok true => .ok result
    | .ok false => .error .replay
    | .error e => .error (.denyList e)
  { w.setThread t (.returned (.admitted answer)) with
    denyList := r.1
    admitted := (if r.2 = .ok true then [⟨result, p.nonce, p.timestamp, serial, now, w.clock⟩]
      else []) ++ w.admitted }

/-- One step of any call. -/
def next (w : AdmissionWorld) : AdmissionEvent → Option AdmissionWorld
  | .challenge t now limiter nonce => w.start t now (.challenge limiter nonce now)
  | .admitWire t now envelope => w.start t now (.gating envelope now)
  | .run t limiter nonce =>
    match w.threads t with
    | .issuing n now retry => some (w.runIssue adm t n now retry nonce)
    | .gating envelope now => some (w.runGate P adm t envelope now limiter)
    | .consuming p now => some (w.runConsume adm t p now)
    | .recording p now serial => some (w.runRecord adm t p now serial)
    | .idle | .returned _ => none

def initial : AdmissionWorld := ⟨.new, .new, i64Min, fun _ => .idle, [], [], []⟩

/-- Every interleaving of calls on new stores. -/
def admissions : System AdmissionWorld AdmissionEvent :=
  .ofNext initial (next P adm)

/-- The tickets of the nonce store: the records held and those consumed. -/
def tickets (w : AdmissionWorld) : Tickets.State Nonce Entry where
  held := w.nonces.held adm.nonces
  next := w.issued.length
  redeemed := w.consumed

end AdmissionWorld

variable {P adm} {w w' : AdmissionWorld}

open AdmissionWorld

/-- What a step is. -/
inductive AdmissionStep (P : Primitives) (adm : PinnedAdmission) (w : AdmissionWorld) :
    AdmissionWorld → Prop
  | start {t : ℕ} {now : Timestamp} {pc : AdmissionPc} (hc : w.clock ≤ now) (hn : now ≤ i64Max)
      (hr : ∀ now', pc.reading = some now' → now' = now)
      (hp : ∀ p now' s, pc ≠ .recording p now' s) :
      AdmissionStep P adm w { w.setThread t pc with clock := now }
  | issue {t : ℕ} {n : Nonce} {now : Timestamp} {retry : Bool} {nonce : Option Nonce}
      (h : w.threads t = .issuing n now retry) :
      AdmissionStep P adm w (w.runIssue adm t n now retry nonce)
  | gate {t : ℕ} {envelope : CheckedJson} {now : Timestamp} {limiter : Option ℕ}
      (h : w.threads t = .gating envelope now) :
      AdmissionStep P adm w (w.runGate P adm t envelope now limiter)
  | consume {t : ℕ} {p : Presented} {now : Timestamp} (h : w.threads t = .consuming p now) :
      AdmissionStep P adm w (w.runConsume adm t p now)
  | record {t : ℕ} {p : Presented} {now : Timestamp} {serial : Option ℕ}
      (h : w.threads t = .recording p now serial) :
      AdmissionStep P adm w (w.runRecord adm t p now serial)

theorem step_of_start {t : ℕ} {now : Timestamp} {pc : AdmissionPc}
    (hr : ∀ now', pc.reading = some now' → now' = now) (hp : ∀ p now' s, pc ≠ .recording p now' s)
    (h : w.start t now pc = some w') : AdmissionStep P adm w w' := by
  unfold start at h
  split_ifs at h with hc
  split at h
  · obtain rfl := Option.some.inj h
    exact .start hc.1 hc.2 hr hp
  · obtain rfl := Option.some.inj h
    exact .start hc.1 hc.2 hr hp
  · simp at h

theorem step_of_next {ev : AdmissionEvent} (h : w.next P adm ev = some w') :
    AdmissionStep P adm w w' := by
  cases ev with
  | challenge t now limiter nonce =>
    refine step_of_start ?_ ?_ h <;> intro _ <;> cases limiter <;> cases nonce <;>
      simp [AdmissionPc.challenge, checkLimiter, ifPresent, AdmissionPc.draw,
        AdmissionPc.reading, eq_comm]
  | admitWire t now envelope =>
    exact step_of_start (by simp [AdmissionPc.reading, eq_comm]) (by simp) h
  | run t limiter nonce =>
    simp only [next] at h
    split at h
    · next hpc => exact Option.some.inj h ▸ .issue hpc
    · next hpc => exact Option.some.inj h ▸ .gate hpc
    · next hpc => exact Option.some.inj h ▸ .consume hpc
    · next hpc => exact Option.some.inj h ▸ .record hpc
    · simp at h
    · simp at h

/-! ## No replay -/

/-- An identifier admitted is on the list until its timestamp is out of the tolerance. -/
structure Kept (adm : PinnedAdmission) (w : AdmissionWorld) : Prop where
  clock_le : w.clock ≤ i64Max
  reading_le : ∀ t now, (w.threads t).reading = some now → now ≤ w.clock
  kept : ∀ a ∈ w.admitted, w.denyList.held adm.denyList a.result.messageId =
    some (adm.keptUntil a.timestamp) ∨ adm.keptUntil a.timestamp < w.clock
  noReplay : w.admitted.Pairwise fun b a => b.result.messageId = a.result.messageId →
    a.timestamp.isWithinToleranceOf b.recordedAt adm.tolerance = false

theorem reading_setThread {t : ℕ} {pc : AdmissionPc} {bound : Timestamp}
    (h : ∀ t now, (w.threads t).reading = some now → now ≤ bound)
    (hpc : ∀ now, pc.reading = some now → now ≤ bound) :
    ∀ t' now, ((w.setThread t pc).threads t').reading = some now → now ≤ bound := by
  intro t' now hr
  by_cases ht : t' = t
  · subst ht
    rw [setThread_self] at hr
    exact hpc now hr
  · rw [setThread_of_ne ht] at hr
    exact h t' now hr

theorem kept_of_thins {held held' : Uuid → Option Timestamp} {now clock expiry : Timestamp}
    {mid : Uuid} (ht : Thins held held' fun _ u => u < now) (hn : now ≤ clock)
    (h : held mid = some expiry ∨ expiry < clock) : held' mid = some expiry ∨ expiry < clock := by
  rcases h with h | h
  · by_cases hk : held' mid = some expiry
    · exact .inl hk
    · exact .inr ((ht.removed h hk).trans_le hn)
  · exact .inr h

theorem reading_le_of_issue {n : Nonce} {now : Timestamp} {retry : Bool} {nonce : Option Nonce}
    {t : ℕ} (hn : now ≤ w.clock) (h : Kept adm w) :
    ∀ t' now', ((w.runIssue adm t n now retry nonce).threads t').reading = some now' →
      now' ≤ w.clock := by
  refine reading_setThread h.reading_le fun now' hr => ?_
  split at hr
  · simp [AdmissionPc.reading] at hr
  · split_ifs at hr
    · cases nonce with
      | none => simp [AdmissionPc.draw, AdmissionPc.reading] at hr
      | some n => exact Option.some.inj hr ▸ hn
    · simp [AdmissionPc.reading] at hr
  · simp [AdmissionPc.reading] at hr

theorem reading_le_of_gate {envelope : CheckedJson} {now : Timestamp} {limiter : Option ℕ}
    {t : ℕ} (hn : now ≤ w.clock) (h : Kept adm w) :
    ∀ t' now', ((w.runGate P adm t envelope now limiter).threads t').reading = some now' →
      now' ≤ w.clock := by
  refine reading_setThread h.reading_le fun now' hr => ?_
  split_ifs at hr
  · simp [AdmissionPc.reading] at hr
  · split at hr
    · exact Option.some.inj hr ▸ hn
    · simp [AdmissionPc.reading] at hr

theorem reading_le_of_consume {p : Presented} {now : Timestamp} {t : ℕ} (hn : now ≤ w.clock)
    (h : Kept adm w) :
    ∀ t' now', ((w.runConsume adm t p now).threads t').reading = some now' → now' ≤ w.clock := by
  refine reading_setThread h.reading_le fun now' hr => ?_
  split at hr
  · exact Option.some.inj hr ▸ hn
  · simp [AdmissionPc.reading] at hr
  · simp [AdmissionPc.reading] at hr

theorem Kept.record (h : Kept adm w) {t : ℕ} {p : Presented} {now : Timestamp}
    {serial : Option ℕ} (hn : now ≤ w.clock) : Kept adm (w.runRecord adm t p now serial) := by
  have hr : ∀ t' now', ((w.runRecord adm t p now serial).threads t').reading = some now' →
      now' ≤ w.clock :=
    reading_setThread h.reading_le (by simp [AdmissionPc.reading])
  obtain ⟨held₁, ht, ⟨ho, hv, hu⟩ | ⟨ho, hu⟩⟩ := 
    @InMemoryMessageIdDenyList.insertSync_cases adm.denyList w.denyList p.messageId
      (adm.keptUntil p.timestamp) now
  · have hk : ∀ a ∈ w.admitted, held₁ a.result.messageId = some (adm.keptUntil a.timestamp) ∨
        adm.keptUntil a.timestamp < w.clock :=
      fun a ha => kept_of_thins ht hn (h.kept a ha)
    refine ⟨h.clock_le, hr, ?_, ?_⟩
    · intro a ha
      simp only [runRecord, ho, if_true, hu] at ha ⊢
      rcases List.mem_cons.mp ha with rfl | ha
      · exact .inl (Function.update_self ..)
      · rcases hk a ha with hk | hk
        · left
          rw [Function.update_of_ne fun he => ?_, hk]
          rw [he, hv] at hk
          simp at hk
        · exact .inr hk
    · simp only [runRecord, ho, if_true]
      refine List.pairwise_cons.mpr ⟨fun a ha he => ?_, h.noReplay⟩
      rcases hk a ha with hk | hk
      · rw [← he] at hk
        exact absurd (hv.symm.trans hk) (by simp)
      · exact Timestamp.isWithinToleranceOf_of_saturatingAdd_lt hk h.clock_le adm.tolerance_le
  · refine ⟨h.clock_le, hr, ?_, ?_⟩
    · intro a ha
      simp only [runRecord, if_neg ho, List.nil_append, hu] at ha ⊢
      exact kept_of_thins ht hn (h.kept a ha)
    · simp only [runRecord, if_neg ho, List.nil_append]
      exact h.noReplay

theorem Kept.step (h : Kept adm w) (hs : AdmissionStep P adm w w') : Kept adm w' := by
  cases hs with
  | @start t now pc hc hn hr hp =>
    refine ⟨hn, reading_setThread (fun t' now' ht => (h.reading_le t' now' ht).trans hc)
      fun now' he => (hr now' he).le, fun a ha => ?_, h.noReplay⟩
    exact (h.kept a ha).imp_right fun hk => hk.trans_le hc
  | @issue t n now retry nonce hpc =>
    have hn := h.reading_le t now (by rw [hpc]; rfl)
    exact ⟨h.clock_le, reading_le_of_issue hn h, h.kept, h.noReplay⟩
  | @gate t envelope now limiter hpc =>
    have hn := h.reading_le t now (by rw [hpc]; rfl)
    refine ⟨h.clock_le, reading_le_of_gate hn h, fun a ha => ?_, h.noReplay⟩
    simp only [runGate]
    split
    · exact kept_of_thins (InMemoryMessageIdDenyList.thins_touch _ now) hn (h.kept a ha)
    · exact h.kept a ha
  | @consume t p now hpc =>
    have hn := h.reading_le t now (by rw [hpc]; rfl)
    exact ⟨h.clock_le, reading_le_of_consume hn h, h.kept, h.noReplay⟩
  | @record t p now serial hpc => exact h.record (h.reading_le t now (by rw [hpc]; rfl))

theorem kept_of_reachable (h : (admissions P adm).Reachable w) : Kept adm w := by
  refine h.invariant ?_ fun _ _ _ hk hs => hk.step (step_of_next hs)
  rintro w rfl
  exact ⟨by decide, by simp [initial, AdmissionPc.reading], nofun, .nil⟩

/-! ## Single use -/

open InMemoryNonceStore

theorem run_of_step (h : AdmissionStep P adm w w') :
    (Tickets.tickets Entry.serial).Run (w.tickets adm) (w'.tickets adm) := by
  cases h with
  | start => exact .refl
  | @issue t n now retry nonce hpc =>
    have hl : (w.runIssue adm t n now retry nonce).issued.length =
        if (w.nonces.issueSync adm.nonces (adm.challengeRecord n now) w.issued.length).2 = .ok ()
          then w.issued.length + 1 else w.issued.length := by
      simp only [runIssue]
      split_ifs <;> simp
    simp only [AdmissionWorld.tickets, hl]
    exact run_issueSync (adm.challengeRecord n now)
  | gate => exact .refl
  | @consume t p now hpc => exact run_consumeSection p.nonce adm.verifierAid now
  | record => exact .refl

theorem numbered_of_admissions (h : (admissions P adm).Reachable w) :
    Tickets.Numbered Entry.serial (w.tickets adm) := by
  refine Tickets.numbered_of_reachable (h.simulate ?_ fun _ _ _ hs => run_of_step (step_of_next hs))
  rintro w rfl
  rfl

/-- A serial number is that of a challenge issued for this verifier, consumed before it expired. -/
def Answered (adm : PinnedAdmission) (w : AdmissionWorld) (nonce : Nonce) (now : Timestamp)
    (serial : Option ℕ) : Prop :=
  ∃ e ∈ w.consumed, serial = some e.serial ∧ ∃ record, w.issued[e.serial]? = some record ∧
    record.nonce = nonce ∧ record.verifier = adm.verifierAid ∧ now ≤ record.expiresAt

/-- Each record held is a challenge issued, and no two calls have consumed the same one. -/
structure Single (adm : PinnedAdmission) (w : AdmissionWorld) : Prop where
  held : ∀ n e, w.nonces.held adm.nonces n = some e → ∃ record, w.issued[e.serial]? = some record ∧
    record.nonce = n ∧ record.verifier = e.verifier ∧ record.expiresAt = e.expiresAt
  pending : ∀ t p now s, w.threads t = .recording p now s → Answered adm w p.nonce now s
  admitted : ∀ a ∈ w.admitted, Answered adm w a.nonce a.now a.serial
  fresh : ∀ t p now s, w.threads t = .recording p now s → s ∉ w.admitted.map Admission.serial
  apart : ∀ t t' p p' now now' s, w.threads t = .recording p now s →
    w.threads t' = .recording p' now' s → t = t'
  nodup : (w.admitted.map Admission.serial).Nodup

theorem Answered.mono {nonce : Nonce} {now : Timestamp} {serial : Option ℕ}
    (h : Answered adm w nonce now serial) (hc : ∀ e ∈ w.consumed, e ∈ w'.consumed)
    (hi : w.issued <+: w'.issued) : Answered adm w' nonce now serial := by
  obtain ⟨e, he, hs, record, hr, h⟩ := h
  obtain ⟨more, hm⟩ := hi
  refine ⟨e, hc e he, hs, record, ?_, h⟩
  rw [← hm, List.getElem?_append_left (List.getElem?_eq_some_iff.mp hr).1, hr]

theorem recording_setThread {t t' : ℕ} {pc : AdmissionPc} {p : Presented} {now : Timestamp}
    {s : Option ℕ} (hp : ∀ p now s, pc ≠ .recording p now s)
    (h : (w.setThread t pc).threads t' = .recording p now s) :
    w.threads t' = .recording p now s := by
  by_cases ht : t' = t
  · subst ht
    rw [setThread_self] at h
    exact absurd h (hp p now s)
  · rwa [setThread_of_ne ht] at h

/-- A step that neither consumes nor admits. -/
theorem Single.quiet (h : Single adm w) {t : ℕ} (ht : ∀ t' ≠ t, w'.threads t' = w.threads t')
    (hp : ∀ p now s, w'.threads t ≠ .recording p now s) (ha : w'.admitted = w.admitted)
    (hc : w.consumed = w'.consumed) (hi : w.issued <+: w'.issued)
    (hh : ∀ n e, w'.nonces.held adm.nonces n = some e → ∃ record,
      w'.issued[e.serial]? = some record ∧ record.nonce = n ∧ record.verifier = e.verifier ∧
        record.expiresAt = e.expiresAt) : Single adm w' := by
  have hr : ∀ t' p now s, w'.threads t' = .recording p now s →
      w.threads t' = .recording p now s := by
    intro t' p now s hw
    by_cases he : t' = t
    · subst he
      exact absurd hw (hp p now s)
    · rwa [ht t' he] at hw
  refine ⟨hh, fun t' p now s hw => ?_, ?_, fun t' p now s hw => ?_, ?_, ?_⟩
  · exact (h.pending t' p now s (hr _ _ _ _ hw)).mono (fun e he => hc ▸ he) hi
  · rw [ha]
    exact fun a hm => (h.admitted a hm).mono (fun e he => hc ▸ he) hi
  · rw [ha]
    exact h.fresh t' p now s (hr _ _ _ _ hw)
  · exact fun t₁ t₂ p p' now now' s h₁ h₂ =>
      h.apart t₁ t₂ p p' now now' s (hr _ _ _ _ h₁) (hr _ _ _ _ h₂)
  · rw [ha]
    exact h.nodup

theorem Single.issue (h : Single adm w) {t : ℕ} {n : Nonce} {now : Timestamp} {retry : Bool}
    {nonce : Option Nonce} : Single adm (w.runIssue adm t n now retry nonce) := by
  have hi : w.issued <+: (w.runIssue adm t n now retry nonce).issued := by
    simp only [runIssue]
    split_ifs
    · exact List.prefix_append ..
    · exact List.prefix_rfl
  refine h.quiet (t := t) (fun t' ht => setThread_of_ne ht) ?_ rfl rfl hi ?_
  · intro p now' s
    simp only [runIssue, setThread_self]
    split
    · simp
    · split_ifs
      · cases nonce <;> simp [AdmissionPc.draw]
      · simp
    · simp
  · intro n' e he
    obtain ⟨held₁, ht, hc⟩ := @issueSync_cases adm.nonces w.nonces
      (adm.challengeRecord n now) w.issued.length
    have hold : held₁ n' = some e → ∃ record,
        (w.runIssue adm t n now retry nonce).issued[e.serial]? = some record ∧
          record.nonce = n' ∧ record.verifier = e.verifier ∧ record.expiresAt = e.expiresAt := by
      intro hk
      obtain ⟨record, hr, hrest⟩ := h.held n' e (ht.kept hk)
      obtain ⟨more, hm⟩ := hi
      refine ⟨record, ?_, hrest⟩
      rw [← hm, List.getElem?_append_left (List.getElem?_eq_some_iff.mp hr).1, hr]
    rcases hc with ⟨hr, -, hu⟩ | ⟨-, hu⟩
    · have he' : Function.update held₁ n
          (some ⟨adm.verifierAid, now.saturatingAdd adm.ttl, w.issued.length⟩) n' = some e :=
        (congrFun hu n').symm.trans he
      by_cases hn : n' = n
      · subst hn
        rw [Function.update_self] at he'
        obtain rfl := Option.some.inj he'
        refine ⟨adm.challengeRecord n' now, ?_, rfl, rfl, rfl⟩
        simp [runIssue, hr]
      · rw [Function.update_of_ne hn] at he'
        exact hold he'
    · exact hold ((congrFun hu n').symm.trans he)

theorem Single.consume (h : Single adm w) {t : ℕ} {p : Presented} {now : Timestamp}
    (hn : ((w.runConsume adm t p now).consumed.map Entry.serial).Nodup) :
    Single adm (w.runConsume adm t p now) := by
  have hh : ∀ n e, (w.runConsume adm t p now).nonces.held adm.nonces n = some e → ∃ record,
      w.issued[e.serial]? = some record ∧ record.nonce = n ∧ record.verifier = e.verifier ∧
        record.expiresAt = e.expiresAt :=
    fun n e he => h.held n e (held_of_held_consumeSync he)
  by_cases ho : (w.nonces.consumeSync adm.nonces p.nonce adm.verifierAid now).2 = .consumed
  · obtain ⟨e, he, hv, hx⟩ := held_of_consumed ho
    obtain ⟨record, hi, hrn, hrv, hrx⟩ := h.held _ e he
    have hc : (w.runConsume adm t p now).consumed = e :: w.consumed := by
      simp [runConsume, ho, he]
    have hw : (w.runConsume adm t p now).threads =
        (w.setThread t (.recording p now (some e.serial))).threads := by
      simp only [runConsume, ho, he]
      rfl
    rw [hc, List.map_cons, List.nodup_cons] at hn
    have hne : ∀ {nonce now s}, Answered adm w nonce now s → s ≠ some e.serial := by
      rintro nonce now s ⟨e', he', rfl, -⟩ hs
      exact hn.1 (List.mem_map.mpr ⟨e', he', Option.some.inj hs⟩)
    have hmono : ∀ {nonce now' s}, Answered adm w nonce now' s →
        Answered adm (w.runConsume adm t p now) nonce now' s :=
      fun ha => ha.mono (fun e' he' => hc ▸ List.mem_cons_of_mem _ he') List.prefix_rfl
    have hcases : ∀ t' p' now' s,
        (w.runConsume adm t p now).threads t' = .recording p' now' s →
        t' = t ∧ p' = p ∧ now' = now ∧ s = some e.serial ∨
          w.threads t' = .recording p' now' s := by
      intro t' p' now' s hr
      rw [hw] at hr
      by_cases ht : t' = t
      · subst ht
        rw [setThread_self] at hr
        obtain ⟨rfl, rfl, rfl⟩ := AdmissionPc.recording.inj hr
        exact .inl ⟨rfl, rfl, rfl, rfl⟩
      · rw [setThread_of_ne ht] at hr
        exact .inr hr
    refine ⟨hh, ?_, fun a ha => hmono (h.admitted a ha), ?_, ?_, h.nodup⟩
    · intro t' p' now' s hr
      rcases hcases t' p' now' s hr with ⟨-, rfl, rfl, rfl⟩ | hr
      · exact ⟨e, by simp [hc], rfl, record, hi, hrn, hrv.trans hv, hrx ▸ hx⟩
      · exact hmono (h.pending t' p' now' s hr)
    · intro t' p' now' s hr
      rcases hcases t' p' now' s hr with ⟨-, -, -, rfl⟩ | hr
      · intro hm
        obtain ⟨a, ha, hs⟩ := List.mem_map.mp hm
        exact hne (h.admitted a ha) hs
      · exact h.fresh t' p' now' s hr
    · intro t₁ t₂ p₁ p₂ now₁ now₂ s h₁ h₂
      rcases hcases _ _ _ _ h₁ with ⟨rfl, -, -, rfl⟩ | g₁ <;>
        rcases hcases _ _ _ _ h₂ with ⟨rfl, -, -, hs⟩ | g₂
      · rfl
      · exact absurd rfl (hne (h.pending _ _ _ _ g₂))
      · exact absurd hs (hne (h.pending _ _ _ _ g₁))
      · exact h.apart _ _ _ _ _ _ _ g₁ g₂
  · refine h.quiet (t := t) (fun t' ht => setThread_of_ne ht) ?_ rfl ?_ List.prefix_rfl hh
    · intro p' now' s
      simp only [runConsume, setThread_self]
      split
      · next hc => exact absurd hc ho
      · simp
      · simp
    · simp [runConsume, ho]

theorem Single.record (h : Single adm w) {t : ℕ} {p : Presented} {now : Timestamp}
    {serial : Option ℕ} (hpc : w.threads t = .recording p now serial) :
    Single adm (w.runRecord adm t p now serial) := by
  by_cases ho : (w.denyList.insertSync adm.denyList p.messageId (adm.keptUntil p.timestamp) now).2 =
      .ok true
  · have ha : (w.runRecord adm t p now serial).admitted =
        ⟨⟨p.key, p.subject, p.messageId⟩, p.nonce, p.timestamp, serial, now, w.clock⟩ ::
          w.admitted := by
      simp [runRecord, ho]
    have hr : ∀ t' p' now' s, (w.runRecord adm t p now serial).threads t' = .recording p' now' s →
        t' ≠ t ∧ w.threads t' = .recording p' now' s := by
      intro t' p' now' s hw
      have hne : t' ≠ t := by
        rintro rfl
        simp only [runRecord, setThread_self] at hw
        exact absurd hw (by simp)
      exact ⟨hne, recording_setThread (by simp) hw⟩
    refine ⟨h.held, fun t' p' now' s hw => h.pending t' p' now' s (hr _ _ _ _ hw).2, ?_, ?_, ?_, ?_⟩
    · intro a hm
      rw [ha] at hm
      rcases List.mem_cons.mp hm with rfl | hm
      · exact h.pending t p now serial hpc
      · exact h.admitted a hm
    · intro t' p' now' s hw
      obtain ⟨hne, hold⟩ := hr _ _ _ _ hw
      rw [ha, List.map_cons, List.mem_cons, not_or]
      refine ⟨?_, h.fresh t' p' now' s hold⟩
      rintro rfl
      exact hne (h.apart _ _ _ _ _ _ _ hold hpc)
    · exact fun t₁ t₂ p₁ p₂ now₁ now₂ s h₁ h₂ =>
        h.apart _ _ _ _ _ _ _ (hr _ _ _ _ h₁).2 (hr _ _ _ _ h₂).2
    · rw [ha, List.map_cons, List.nodup_cons]
      exact ⟨h.fresh t p now serial hpc, h.nodup⟩
  · refine h.quiet (t := t) (fun t' ht => setThread_of_ne ht) ?_ ?_ rfl List.prefix_rfl h.held
    · simp [runRecord]
    · simp [runRecord, ho]

theorem Single.step (h : Single adm w) (hs : AdmissionStep P adm w w')
    (hn : (w'.consumed.map Entry.serial).Nodup) : Single adm w' := by
  cases hs with
  | @start t now pc hc hl hr hp =>
    refine h.quiet (t := t) (fun t' ht => setThread_of_ne ht) ?_ rfl rfl List.prefix_rfl h.held
    simpa using hp
  | issue => exact h.issue
  | @gate t envelope now limiter hpc =>
    refine h.quiet (t := t) (fun t' ht => setThread_of_ne ht) ?_ rfl rfl List.prefix_rfl h.held
    intro p' now' s
    simp only [runGate, setThread_self]
    split_ifs
    · simp
    · split <;> simp
  | consume => exact h.consume hn
  | record hpc => exact h.record hpc

theorem single_of_reachable (h : (admissions P adm).Reachable w) : Single adm w := by
  induction h with
  | init hi =>
    obtain rfl := hi
    exact ⟨nofun, by simp [initial], nofun, by simp [initial], by simp [initial], .nil⟩
  | step hr hs ih =>
    exact ih.step (step_of_next hs) (numbered_of_admissions (hr.step hs)).nodup

/-- Whatever the order of the store operations, every admission answers a challenge issued for this
verifier that had not expired, no two answer the same one, and an identifier admitted before is
admitted again only when its earlier timestamp has left the tolerance. -/
theorem pinnedAdmission_singleUse (h : (admissions P adm).Reachable w) :
    (∀ a ∈ w.admitted, ∃ i record, a.serial = some i ∧ w.issued[i]? = some record ∧
      record.nonce = a.nonce ∧ record.verifier = adm.verifierAid ∧ a.now ≤ record.expiresAt) ∧
    (w.admitted.map Admission.serial).Nodup ∧
    w.admitted.Pairwise fun b a => b.result.messageId = a.result.messageId →
      a.timestamp.isWithinToleranceOf b.recordedAt adm.tolerance = false := by
  have hs := single_of_reachable h
  refine ⟨fun a ha => ?_, hs.nodup, (kept_of_reachable h).noReplay⟩
  obtain ⟨e, -, hse, record, hr⟩ := hs.admitted a ha
  exact ⟨e.serial, record, hse, hr⟩

/-- An admission object that pins every key. -/
def openAdmission : PinnedAdmission where
  verifierAid := Toy.aid
  nonces := ⟨4, 2, fun n => n.bytes.length⟩
  pinnedKeys _ := true
  denyList := ⟨4, 2, fun _ => 0⟩
  ttl := 60
  ttl_bounds := by decide
  tolerance := 300
  tolerance_le := by decide
  subject := .unchecked

def zeroBytes : Nonce := ⟨List.replicate 16 0, length_zeroes⟩

/-- The presentation that answers the first challenge of `openAdmission`. -/
def presentedAt (now : Timestamp) : Option CheckedJson :=
  ((presentPinned (Toy.signer Toy.aid) "agent"
    (PinnedAdmission.challengeFor (openAdmission.challengeRecord zeroBytes 1000)) (Toy.uuid 0)
    now).toOption).bind fun e => CheckedJson.ofDocument e.toValue

/-- Two calls present the same envelope at once. -/
def contestedAdmission (envelope : CheckedJson) : List AdmissionEvent :=
  [.challenge 0 1000 none (some zeroBytes), .run 0 none none, .admitWire 1 1010 envelope,
    .admitWire 2 1010 envelope, .run 1 none none, .run 2 none none, .run 1 none none,
    .run 2 none none, .run 1 none none]

theorem pinnedAdmission_singleUse_contested :
    ∃ w, (admissions Toy.primitives openAdmission).Reachable w ∧
      w.admitted.map Admission.serial = [some 0] ∧
      ∀ a ∈ w.admitted, ∃ i record, a.serial = some i ∧ w.issued[i]? = some record ∧
        record.nonce = a.nonce ∧ record.verifier = openAdmission.verifierAid ∧
          a.now ≤ record.expiresAt := by
  have hs : ((presentedAt 1005).bind fun envelope =>
      (System.runNext (next Toy.primitives openAdmission) initial
        (contestedAdmission envelope)).map fun w => w.admitted.map Admission.serial) =
      some [some 0] := by
    decide +kernel
  obtain ⟨envelope, -, hs⟩ := Option.bind_eq_some_iff.mp hs
  obtain ⟨w, hw, ho⟩ := Option.map_eq_some_iff.mp hs
  have hr : (admissions Toy.primitives openAdmission).Reachable w :=
    System.reachable_of_runNext (.init rfl) hw
  exact ⟨w, hr, ho, (pinnedAdmission_singleUse hr).1⟩

end Aitp
