import Mathlib.Data.Set.Card
import Aitp.Foundation.IpAddr
import Aitp.Foundation.SlidingWindow
import Aitp.Foundation.Transition
import Aitp.Transport.Receive

/-! # Rate limiting

`rate_limit_check` of `transport/server.rs`, over runs of calls. Every key's events are
those of the calls that were allowed, so far as they were recent when the key was last
touched. Keys that no call touches again stay in the table with their old events.
-/

namespace Aitp

open SlidingWindow Transition

/-! ## Keys -/

/-- `Display for Ipv4Addr`. -/
def Ipv4Addr.display (a : Ipv4Addr) : String :=
  ".".intercalate (a.octets.map fun o => toString o.toNat)

/-- `{:x}`. -/
def lowerHex (s : UInt16) : String :=
  String.ofList (Nat.toDigits 16 s.toNat)

/-- `transport_key`: one key for an IPv4 address or the /64 of an IPv6 address, and one for all
calls without an address. -/
def transportKey (source : Option IpAddr) : String :=
  match source.map IpAddr.toCanonical with
  | some (.v4 v4) => "ip:" ++ v4.display
  | some (.v6 v6) => "ip6:" ++ ":".intercalate ((v6.segments.take 4).map lowerHex) ++ "::/64"
  | none => "ip:unknown"

/-- The key of a claimed sender. -/
def aidKey (aid : Aid) : String :=
  "aid:" ++ aid.value

theorem transportKey_ne_aidKey (source : Option IpAddr) (aid : Aid) :
    transportKey source ≠ aidKey aid := by
  have hs : (transportKey source).toList.head? = some 'i' := by
    unfold transportKey
    split <;> simp
  have ha : (aidKey aid).toList.head? = some 'a' := by simp [aidKey]
  intro h
  rw [h, ha] at hs
  exact absurd hs (by decide)

/-! ## One call -/

/-- 60 seconds. -/
abbrev rateWindow : ℕ :=
  60 * nanosPerSec

/-- A call of `rate_limit_check`: its arguments, and the instant it reads. -/
structure RateCall where
  source : Option IpAddr
  aid : Option Aid
  now : ℕ

namespace RateCall

variable (config : RateLimitConfig) (events : Events) (c : RateCall)

/-- The sender's key and limit, if senders are limited and the call names one. -/
def aidLimit : Option (String × ℕ) :=
  match config.requestsPerAid, c.aid with
  | some limit, some aid => some (aidKey aid, limit)
  | _, _ => none

/-- The keys of the call. -/
def keys : List String :=
  transportKey c.source :: ((c.aidLimit config).map Prod.fst).toList

/-- The call's answer and the events it leaves. -/
def check : Bool × Events :=
  rateLimitCheck (some config) events (transportKey c.source) c.aid c.now

/-- The source had its number of events. -/
def SourceFull : Prop :=
  config.requestsPerSource ≤
    (live rateWindow c.now (events.entry (transportKey c.source))).length

/-- The sender had its number of events. -/
def AidFull : Prop :=
  ∃ key limit, c.aidLimit config = some (key, limit) ∧
    limit ≤ (live rateWindow c.now (events.entry key)).length

instance : Decidable (c.SourceFull config events) :=
  inferInstanceAs (Decidable (_ ≤ _))

/-- The keys whose events the call prunes: not the sender's, once the source has its number. -/
def pruned : List String :=
  if c.SourceFull config events then [transportKey c.source] else c.keys config

end RateCall

section

variable {config : RateLimitConfig} {events : Events} {c : RateCall} {k : String}

theorem aidLimit_eq_some {limit : ℕ} : c.aidLimit config = some (k, limit) ↔
    config.requestsPerAid = some limit ∧ ∃ aid, c.aid = some aid ∧ k = aidKey aid := by
  unfold RateCall.aidLimit
  cases config.requestsPerAid <;> cases c.aid <;> simp [eq_comm, and_comm]

theorem ne_of_aidLimit {limit : ℕ} (h : c.aidLimit config = some (k, limit)) :
    k ≠ transportKey c.source := by
  obtain ⟨-, aid, -, rfl⟩ := aidLimit_eq_some.mp h
  exact (transportKey_ne_aidKey _ _).symm

theorem mem_keys : k ∈ c.keys config ↔
    k = transportKey c.source ∨ ∃ limit, c.aidLimit config = some (k, limit) := by
  unfold RateCall.keys
  simp only [List.mem_cons, Option.mem_toList, Option.map_eq_some_iff, Prod.exists,
    exists_and_right, exists_eq_right]

theorem entry_recent {now : ℕ} {key : String} (h : k ≠ key) :
    (recent events now key).entry k = events.entry k := by
  rw [recent, Events.entry, Function.update_of_ne h, Events.entry]

theorem entry_recent_self {now : ℕ} {key : String} :
    (recent events now key).entry key = live rateWindow now (events.entry key) := by
  rw [recent, Events.entry, Function.update_self, Option.getD_some, live]

theorem entry_addEvent {now : ℕ} {key : String} (h : k ≠ key) :
    (addEvent events now key).entry k = events.entry k := by
  rw [addEvent, Events.entry, Function.update_of_ne h, Events.entry]

theorem check_cases (config : RateLimitConfig) (events : Events) (c : RateCall) :
    let pruned := recent events c.now (transportKey c.source)
    (c.SourceFull config events ∧ c.check config events = (false, pruned)) ∨
    ¬c.SourceFull config events ∧
      (c.aidLimit config = none ∧
          c.check config events = (true, addEvent pruned c.now (transportKey c.source)) ∨
        ∃ key limit, c.aidLimit config = some (key, limit) ∧
          (limit ≤ (live rateWindow c.now (events.entry key)).length ∧
              c.check config events = (false, recent pruned c.now key) ∨
            (live rateWindow c.now (events.entry key)).length < limit ∧
              c.check config events = (true, addEvent
                (addEvent (recent pruned c.now key) c.now (transportKey c.source)) c.now
                  key))) := by
  intro pruned
  unfold RateCall.check rateLimitCheck RateCall.SourceFull RateCall.aidLimit
  simp only [entry_recent_self]
  by_cases hs : config.requestsPerSource ≤
      (live rateWindow c.now (events.entry (transportKey c.source))).length
  · exact .inl ⟨hs, if_pos hs⟩
  refine .inr ⟨hs, ?_⟩
  rw [if_neg hs]
  cases hl : config.requestsPerAid with
  | none => exact .inl ⟨rfl, rfl⟩
  | some limit =>
    cases ha : c.aid with
    | none => exact .inl ⟨rfl, rfl⟩
    | some aid =>
      have hk : (recent events c.now (transportKey c.source)).entry ("aid:" ++ aid.value) =
          events.entry (aidKey aid) := entry_recent (transportKey_ne_aidKey _ _).symm
      refine .inr ⟨aidKey aid, limit, rfl, ?_⟩
      simp only [hk]
      rcases Nat.lt_or_ge (live rateWindow c.now (events.entry (aidKey aid))).length limit
        with h | h
      · exact .inr ⟨h, if_neg (Nat.not_le.mpr h)⟩
      · exact .inl ⟨h, if_pos h⟩

theorem check_allowed :
    (c.check config events).1 = true ↔
      ¬c.SourceFull config events ∧ ¬c.AidFull config events := by
  unfold RateCall.AidFull
  rcases check_cases config events c with
    ⟨hs, h⟩ | ⟨hs, ⟨hl, h⟩ | ⟨key, limit, hl, ⟨hle, h⟩ | ⟨hlt, h⟩⟩⟩
  · simp [h, hs]
  · simp [h, hs, hl]
  · simp [h, hl, hle]
  · simp [h, hs, hl, hlt]

theorem recent_apply {now : ℕ} {key : String} :
    recent events now key k =
      if k = key then some (live rateWindow now (events.entry k)) else events k := by
  unfold recent
  rw [Function.update_apply]
  split_ifs with h
  · subst h
    rfl
  · rfl

theorem addEvent_apply {now : ℕ} {key : String} :
    addEvent events now key k = if k = key then some (events.entry k ++ [now]) else events k := by
  unfold addEvent
  rw [Function.update_apply]
  split_ifs with h
  · subst h
    rfl
  · rfl

/-- What a call does to the events of a key. -/
theorem check_events :
    (c.check config events).2 k =
      if k ∈ c.pruned config events then
        some (live rateWindow c.now (events.entry k) ++
          if (c.check config events).1 then [c.now] else [])
      else events k := by
  unfold RateCall.pruned RateCall.keys
  rcases check_cases config events c with
    ⟨hs, h⟩ | ⟨hs, ⟨hl, h⟩ | ⟨key, limit, hl, ⟨-, h⟩ | ⟨-, h⟩⟩⟩
  · simp [h, hs, recent_apply]
  · by_cases hk : k = transportKey c.source
    · simp [h, hs, hl, hk, addEvent_apply, entry_recent_self]
    · simp [h, hs, hl, hk, addEvent_apply, recent_apply]
  · have hne := ne_of_aidLimit hl
    by_cases hk : k = key
    · simp [h, hs, hl, hk, recent_apply, hne, entry_recent]
    · simp [h, hs, hl, hk, recent_apply]
  · have hne := ne_of_aidLimit hl
    by_cases hk : k = key
    · simp [h, hs, hl, hk, addEvent_apply, hne, entry_addEvent, entry_recent, entry_recent_self]
    · by_cases hs' : k = transportKey c.source
      · simp [h, hs, hl, hs', addEvent_apply, hne.symm, entry_recent, entry_recent_self]
      · simp [h, hs, hl, hk, hs', addEvent_apply, recent_apply]

theorem pruned_of_allowed (h : (c.check config events).1 = true) :
    c.pruned config events = c.keys config :=
  if_neg (check_allowed.mp h).1

theorem pruned_subset (h : k ∈ c.pruned config events) : k ∈ c.keys config := by
  unfold RateCall.pruned at h
  split_ifs at h
  · obtain rfl := List.mem_singleton.mp h
    exact List.mem_cons_self
  · exact h

theorem source_mem_pruned (config : RateLimitConfig) (events : Events) (c : RateCall) :
    transportKey c.source ∈ c.pruned config events := by
  unfold RateCall.pruned RateCall.keys
  split_ifs
  · exact List.mem_singleton_self _
  · exact List.mem_cons_self

theorem live_check_of_denied (h : (c.check config events).1 = false) {now : ℕ}
    (hle : c.now ≤ now) :
    live rateWindow now ((c.check config events).2.entry k) =
      live rateWindow now (events.entry k) := by
  rw [Events.entry, check_events, h]
  by_cases hk : k ∈ c.pruned config events
  · rw [if_pos hk, if_neg (by decide), List.append_nil, Option.getD_some, live_live hle]
  · rw [if_neg hk, Events.entry]

end

/-! ## Runs of calls -/

/-- The table, the latest instant read, and the calls with their answers. -/
structure RateWorld where
  events : Events
  clock : ℕ
  log : List (RateCall × Bool)

section

variable (config : RateLimitConfig)

/-- The instants at which a key was charged. -/
def allows (key : String) (log : List (RateCall × Bool)) : List ℕ :=
  (log.filter fun e => e.2 && decide (key ∈ e.1.keys config)).map fun e => e.1.now

def RateWorld.call (w : RateWorld) (c : RateCall) : RateWorld where
  events := (c.check config w.events).2
  clock := c.now
  log := w.log ++ [(c, (c.check config w.events).1)]

/-- Calls read their instants in order, since each holds the table's lock. -/
def rateSystem : System RateWorld RateCall where
  init w := w.events = (fun _ => none) ∧ w.log = []
  step w c w' := w.clock ≤ c.now ∧ w' = w.call config c

/-- A key of a source or of a sender, and how many calls it is allowed. -/
def Limited (key : String) (limit : ℕ) : Prop :=
  (∃ source, key = transportKey source) ∧ limit = config.requestsPerSource ∨
    (∃ aid, key = aidKey aid) ∧ config.requestsPerAid = some limit

/-- The table holds what it was charged, but for what was old when last touched. -/
structure RateWorld.Sound (w : RateWorld) : Prop where
  past : ∀ k, ∀ t ∈ allows config k w.log, t ≤ w.clock
  exact : ∀ k, ∃ t ≤ w.clock, w.events.entry k = live rateWindow t (allows config k w.log)

end

section

variable {config : RateLimitConfig} {w w' : RateWorld} {c : RateCall} {k : String}

theorem allows_call : allows config k (w.call config c).log =
    allows config k w.log ++
      if (c.check config w.events).1 = true ∧ k ∈ c.keys config then [c.now] else [] := by
  unfold allows RateWorld.call
  rw [List.filter_append, List.map_append]
  congr 1
  by_cases ha : (c.check config w.events).1 = true <;> by_cases hk : k ∈ c.keys config <;>
    simp [ha, hk]

theorem allows_call_of_not_mem (h : (c.check config w.events).1 = true → k ∉ c.keys config) :
    allows config k (w.call config c).log = allows config k w.log := by
  rw [allows_call, if_neg (fun ⟨ha, hk⟩ => h ha hk), List.append_nil]

theorem RateWorld.Sound.live_eq (hw : w.Sound config) {now : ℕ} (h : w.clock ≤ now) :
    live rateWindow now (w.events.entry k) = live rateWindow now (allows config k w.log) := by
  obtain ⟨t, ht, he⟩ := hw.exact k
  rw [he, live_live (ht.trans h)]

theorem RateWorld.Sound.call (hw : w.Sound config) (hc : w.clock ≤ c.now) :
    (w.call config c).Sound config := by
  constructor
  · intro k t ht
    rw [allows_call, List.mem_append] at ht
    rcases ht with ht | ht
    · exact (hw.past k t ht).trans hc
    · split_ifs at ht
      · exact (List.mem_singleton.mp ht).le
      · cases ht
  · intro k
    by_cases hk : k ∈ c.pruned config w.events
    · refine ⟨c.now, le_rfl, ?_⟩
      have hself : live rateWindow c.now [c.now] = [c.now] := by
        apply live_eq_self
        intro t ht
        rw [List.mem_singleton.mp ht, Nat.sub_self]
        decide
      rw [allows_call, live_append, ← hw.live_eq hc]
      simp only [RateWorld.call, Events.entry, check_events, if_pos hk, Option.getD_some]
      congr 1
      by_cases ha : (c.check config w.events).1 = true
      · rw [if_pos ha, if_pos ⟨ha, pruned_subset hk⟩, hself]
      · rw [if_neg ha, if_neg (fun h => ha h.1)]
        rfl
    · obtain ⟨t, ht, he⟩ := hw.exact k
      refine ⟨t, ht.trans hc, ?_⟩
      rw [allows_call_of_not_mem (fun ha hm => hk (pruned_of_allowed ha ▸ hm)), ← he]
      simp only [RateWorld.call, Events.entry, check_events, if_neg hk]

theorem reachable_call (h : (rateSystem config).Reachable w) (hc : w.clock ≤ c.now) :
    (rateSystem config).Reachable (w.call config c) :=
  h.step ⟨hc, rfl⟩

theorem sound_of_reachable (h : (rateSystem config).Reachable w) : w.Sound config := by
  induction h with
  | init h =>
    obtain ⟨he, hl⟩ := h
    constructor
    · intro k t ht
      simp [allows, hl] at ht
    · intro k
      exact ⟨_, le_rfl, by simp [allows, hl, he, Events.entry, live]⟩
  | step _ h ih =>
    obtain ⟨hc, rfl⟩ := h
    exact ih.call hc

theorem check_denied_iff {events : Events} : (c.check config events).1 = false ↔
    ∃ key ∈ c.keys config, ∃ limit, Limited config key limit ∧
      limit ≤ (live rateWindow c.now (events.entry key)).length := by
  rw [← Bool.not_eq_true, check_allowed, ← not_or, not_not]
  constructor
  · rintro (hs | ⟨key, limit, hl, hle⟩)
    · exact ⟨_, mem_keys.mpr (.inl rfl), _, .inl ⟨⟨_, rfl⟩, rfl⟩, hs⟩
    · obtain ⟨hlimit, aid, -, hk⟩ := aidLimit_eq_some.mp hl
      exact ⟨key, mem_keys.mpr (.inr ⟨limit, hl⟩), limit, .inr ⟨⟨aid, hk⟩, hlimit⟩, hle⟩
  · rintro ⟨key, hk, limit, hl, hle⟩
    rcases mem_keys.mp hk with rfl | ⟨limit', hk⟩
    · rcases hl with ⟨-, rfl⟩ | ⟨⟨aid, ha⟩, -⟩
      · exact .inl hle
      · exact absurd ha (transportKey_ne_aidKey _ _)
    · rcases hl with ⟨⟨source, rfl⟩, -⟩ | ⟨-, hlimit⟩
      · obtain ⟨-, aid, -, ha⟩ := aidLimit_eq_some.mp hk
        exact absurd ha (transportKey_ne_aidKey _ _)
      · obtain ⟨hlimit', aid, haid, rfl⟩ := aidLimit_eq_some.mp hk
        exact .inr ⟨_, limit, aidLimit_eq_some.mpr ⟨hlimit, aid, haid, rfl⟩, hle⟩

theorem length_filter_allows_le {limit : ℕ} (hl : Limited config k limit)
    {I : ℕ → Prop} [DecidablePred I] (hI : Window rateWindow I)
    (h : (rateSystem config).Reachable w) :
    ((allows config k w.log).filter fun t => decide (I t)).length ≤ limit := by
  induction h with
  | init h => simp [allows, h.2]
  | @step w c _ hw h ih =>
    obtain ⟨hc, rfl⟩ := h
    rw [allows_call]
    split_ifs with ha
    · refine length_filter_append_le hI ?_ ih
      rw [← (sound_of_reachable hw).live_eq hc]
      by_contra hle
      exact Bool.eq_false_iff.mp
        (check_denied_iff.mpr ⟨k, ha.2, limit, hl, Nat.not_lt.mp hle⟩) ha.1
    · rwa [List.append_nil]

/-- In every window of 60 seconds a source or a sender is charged at most its limit. A call is
denied exactly when one of its keys was charged that often in the 60 seconds before, and then
charges none. -/
theorem rateLimitCheck_exact (h : (rateSystem config).Reachable w) :
    (∀ key limit, Limited config key limit → ∀ t,
      ((allows config key w.log).filter fun s => decide (t ≤ s ∧ s < t + rateWindow)).length ≤
          limit ∧
        ((allows config key w.log).filter fun s => decide (t < s ∧ s ≤ t + rateWindow)).length ≤
          limit) ∧
      ∀ c w', (rateSystem config).step w c w' →
        ((c.check config w.events).1 = false ↔
          ∃ key ∈ c.keys config, ∃ limit, Limited config key limit ∧
            limit ≤ (live rateWindow c.now (allows config key w.log)).length) ∧
        ((c.check config w.events).1 = false →
          ∀ key now, c.now ≤ now →
            live rateWindow now (w'.events.entry key) =
              live rateWindow now (w.events.entry key)) := by
  have hpos : 0 < rateWindow := by decide
  constructor
  · intro key limit hl t
    exact ⟨length_filter_allows_le hl (window_Ico t hpos) h,
      length_filter_allows_le hl (window_Ioc t hpos) h⟩
  · rintro c w' ⟨hc, rfl⟩
    constructor
    · simp only [check_denied_iff, (sound_of_reachable h).live_eq hc]
    · intro hd key now hn
      exact live_check_of_denied hd hn

end

namespace Toy

/-- One call a minute for each source. -/
def oncePerMinute : RateLimitConfig := ⟨1, none⟩

def tenHost (host : UInt8) : IpAddr :=
  .v4 ⟨[10, 0, 0, host], rfl⟩

def rateCall (host : UInt8) (now : ℕ) : RateCall := ⟨some (tenHost host), none, now⟩

def idleTable : RateWorld := ⟨fun _ => none, 0, []⟩

def oneSource : RateWorld := idleTable.call oncePerMinute (rateCall 1 0)

theorem reachable_oneSource : (rateSystem oncePerMinute).Reachable oneSource :=
  reachable_call (.init ⟨rfl, rfl⟩) (Nat.zero_le _)

end Toy

/-- A second call of the source within the minute is denied. -/
theorem rateLimitCheck_exact_oneSource :
    ((Toy.rateCall 1 5).check Toy.oncePerMinute Toy.oneSource.events).1 = false := by
  have hcharged : 1 ≤ (live rateWindow 5
      (allows Toy.oncePerMinute (transportKey (some (Toy.tenHost 1))) Toy.oneSource.log)).length := by
    decide +kernel
  have hstep : (rateSystem Toy.oncePerMinute).step Toy.oneSource (Toy.rateCall 1 5) _ :=
    ⟨Nat.zero_le _, rfl⟩
  apply ((rateLimitCheck_exact Toy.reachable_oneSource).2 _ _ hstep).1.mpr
  exact ⟨_, List.mem_cons_self, 1, .inl ⟨⟨_, rfl⟩, rfl⟩, hcharged⟩

/-! ## The size of the table -/

section

variable (config : RateLimitConfig) (w : RateWorld) (c : RateCall)

/-- The keys in the table. -/
def RateWorld.held : Set String :=
  {k | w.events k ≠ none}

/-- The keys with an allowed call in the last 60 seconds. -/
def RateWorld.active : Set String :=
  {k | live rateWindow w.clock (allows config k w.log) ≠ []}

/-- The table is bounded by recent traffic. -/
structure RateWorld.Bounded : Prop where
  keys : w.held.encard ≤ (w.active config).encard + 2
  recent : ∀ k, ∀ t ∈ w.events.entry k, w.clock - t < rateWindow

/-- The keys without a recent event after the call: those the call leaves without one, and its
source, when the sender had its number of events. -/
def RateWorld.idle : Set String :=
  {k | k ∉ c.pruned config w.events ∧ w.events k = some []} ∪
    {k | k = transportKey c.source ∧ ¬c.SourceFull config w.events ∧ c.AidFull config w.events ∧
      live rateWindow c.now (w.events.entry k) = []}

/-- No key beyond the call's own has an old event, and no more than two are without one. -/
structure RateWorld.Tidy : Prop where
  recent : ∀ k, k ∉ c.pruned config w.events → ∀ t ∈ w.events.entry k, c.now - t < rateWindow
  idle : (w.idle config c).encard ≤ 2

end

section

variable {config : RateLimitConfig} {w w' : RateWorld} {c : RateCall} {k : String}

theorem mem_held_call : k ∈ (w.call config c).held ↔
    k ∈ c.pruned config w.events ∨ k ∈ w.held := by
  show (c.check config w.events).2 k ≠ none ↔ _ ∨ w.events k ≠ none
  rw [check_events]
  by_cases hk : k ∈ c.pruned config w.events
  · rw [if_pos hk]
    exact iff_of_true (Option.some_ne_none _) (.inl hk)
  · rw [if_neg hk]
    exact (or_iff_right hk).symm

theorem held_finite (h : (rateSystem config).Reachable w) : w.held.Finite := by
  induction h with
  | init h => simp [RateWorld.held, h.1]
  | @step w c _ _ h ih =>
    obtain ⟨-, rfl⟩ := h
    refine ((List.finite_toSet (c.pruned config w.events)).union ih).subset ?_
    intro k hk
    exact mem_held_call.mp hk

theorem active_subset_held (h : w.Sound config) : w.active config ⊆ w.held := by
  intro k hk hn
  apply hk
  rw [← h.live_eq le_rfl, Events.entry, hn]
  rfl

theorem entry_call_of_mem (h : k ∈ c.pruned config w.events) :
    (w.call config c).events.entry k = live rateWindow c.now (w.events.entry k) ++
      if (c.check config w.events).1 then [c.now] else [] := by
  simp only [RateWorld.call, Events.entry, check_events, if_pos h, Option.getD_some]

theorem events_call_of_not_mem (h : k ∉ c.pruned config w.events) :
    (w.call config c).events k = w.events k := by
  simp only [RateWorld.call, check_events, if_neg h]

theorem recent_call (h : k ∈ c.pruned config w.events) :
    ∀ t ∈ (w.call config c).events.entry k, c.now - t < rateWindow := by
  intro t ht
  rw [entry_call_of_mem h, List.mem_append] at ht
  rcases ht with ht | ht
  · exact (mem_live.mp ht).2
  · split_ifs at ht
    · rw [List.mem_singleton.mp ht, Nat.sub_self]
      decide
    · cases ht

/-- Without old events, the keys in the table that are not active are the idle ones. -/
theorem held_diff_active (hs : 1 ≤ config.requestsPerSource)
    (ha : ∀ limit, config.requestsPerAid = some limit → 1 ≤ limit) (hw : w.Sound config)
    (hc : w.clock ≤ c.now)
    (hr : ∀ k, ∀ t ∈ (w.call config c).events.entry k, c.now - t < rateWindow) :
    (w.call config c).held \ (w.call config c).active config = w.idle config c := by
  ext k
  have hact : k ∉ (w.call config c).active config ↔ (w.call config c).events.entry k = [] := by
    show ¬live rateWindow c.now (allows config k (w.call config c).log) ≠ [] ↔ _
    rw [not_not, ← (hw.call hc).live_eq (le_refl c.now), live_eq_self (hr k)]
  rw [Set.mem_sdiff, hact, mem_held_call]
  by_cases hk : k ∈ c.pruned config w.events
  · rw [entry_call_of_mem hk]
    constructor
    · rintro ⟨-, he⟩
      obtain ⟨hlive, hnot⟩ := List.append_eq_nil_iff.mp he
      have hd : ¬(c.check config w.events).1 = true := by
        intro h
        rw [if_pos h] at hnot
        cases hnot
      have hsource : ¬c.SourceFull config w.events := by
        intro hfull
        rw [RateCall.pruned, if_pos hfull] at hk
        obtain rfl := List.mem_singleton.mp hk
        rw [RateCall.SourceFull, hlive, List.length_nil] at hfull
        omega
      have haid : c.AidFull config w.events := by
        by_contra haid
        exact hd (check_allowed.mpr ⟨hsource, haid⟩)
      rcases mem_keys.mp (pruned_subset hk) with rfl | ⟨limit, hl⟩
      · exact .inr ⟨rfl, hsource, haid, hlive⟩
      · obtain ⟨key, limit', hl', hfull⟩ := haid
        obtain ⟨rfl, rfl⟩ := Prod.mk.inj (Option.some.inj (hl.symm.trans hl'))
        have hpos := ha limit (aidLimit_eq_some.mp hl).1
        rw [hlive, List.length_nil] at hfull
        omega
    · rintro (⟨hn, -⟩ | ⟨-, -, haid, hlive⟩)
      · exact absurd hk hn
      · rw [hlive, if_neg (fun h => (check_allowed.mp h).2 haid)]
        exact ⟨.inl hk, rfl⟩
  · have hentry : (w.call config c).events.entry k = w.events.entry k := by
      rw [Events.entry, events_call_of_not_mem hk, Events.entry]
    rw [hentry]
    constructor
    · rintro ⟨hm | hm, he⟩
      · exact absurd hm hk
      · obtain ⟨ts, hts⟩ := Option.ne_none_iff_exists'.mp hm
        rw [Events.entry, hts, Option.getD_some] at he
        exact .inl ⟨hk, hts.trans (congrArg some he)⟩
    · rintro (⟨-, he⟩ | ⟨rfl, -⟩)
      · refine ⟨.inr ?_, ?_⟩
        · intro hn
          rw [hn] at he
          cases he
        · rw [Events.entry, he, Option.getD_some]
      · exact absurd (source_mem_pruned ..) hk

theorem bounded_call_iff (hs : 1 ≤ config.requestsPerSource)
    (ha : ∀ limit, config.requestsPerAid = some limit → 1 ≤ limit)
    (h : (rateSystem config).Reachable w) (hc : w.clock ≤ c.now) :
    (w.call config c).Bounded config ↔ w.Tidy config c := by
  have hsound := sound_of_reachable h
  have hcall := reachable_call h hc
  have hrecent : (∀ k, ∀ t ∈ (w.call config c).events.entry k, c.now - t < rateWindow) ↔
      ∀ k, k ∉ c.pruned config w.events → ∀ t ∈ w.events.entry k, c.now - t < rateWindow := by
    constructor
    · intro hr k hk t ht
      apply hr k
      rwa [Events.entry, events_call_of_not_mem hk]
    · intro hr k
      by_cases hk : k ∈ c.pruned config w.events
      · exact recent_call hk
      · rw [Events.entry, events_call_of_not_mem hk]
        exact hr k hk
  have hkeys : (∀ k, ∀ t ∈ (w.call config c).events.entry k, c.now - t < rateWindow) →
      ((w.call config c).held.encard ≤ ((w.call config c).active config).encard + 2 ↔
        (w.idle config c).encard ≤ 2) := by
    intro hr
    have hsub := active_subset_held (hsound.call hc)
    have hfin := (held_finite hcall).subset hsub
    rw [← held_diff_active hs ha hsound hc hr, ← Set.encard_sdiff_add_encard_of_subset hsub,
      add_comm, ENat.add_le_add_iff_left hfin.encard_lt_top.ne]
  constructor
  · rintro ⟨hk, hr⟩
    exact ⟨hrecent.mp hr, (hkeys hr).mp hk⟩
  · rintro ⟨hr, hi⟩
    exact ⟨(hkeys (hrecent.mpr hr)).mpr hi, hrecent.mpr hr⟩

/-- With limits of at least one, the table is bounded by recent traffic after runs of calls that
find it tidy, and only after those. -/
theorem rateLimit_bounded (config : RateLimitConfig) (hs : 1 ≤ config.requestsPerSource)
    (ha : ∀ limit, config.requestsPerAid = some limit → 1 ≤ limit) :
    (∀ w, ((rateSystem config).restrict (RateWorld.Tidy config)).Reachable w →
        w.Bounded config) ∧
      ∀ w c w', (rateSystem config).Reachable w → (rateSystem config).step w c w' →
        (w'.Bounded config ↔ w.Tidy config c) := by
  have hstep : ∀ w c w', (rateSystem config).Reachable w → (rateSystem config).step w c w' →
      (w'.Bounded config ↔ w.Tidy config c) := by
    rintro w c w' hw ⟨hc, rfl⟩
    exact bounded_call_iff hs ha hw hc
  refine ⟨?_, hstep⟩
  intro w h
  cases h with
  | init h =>
    constructor
    · have hnone : w.held = ∅ := by
        ext k
        simp [RateWorld.held, h.1]
      simp [hnone]
    · intro k t ht
      rw [Events.entry, h.1] at ht
      cases ht
  | step hw h => exact (hstep _ _ _ hw.of_restrict h.2).mpr h.1

end

namespace Toy

/-- Three sources call once, and two minutes later a fourth one does. -/
def fourSources : RateWorld :=
  ((oneSource.call oncePerMinute (rateCall 2 0)).call oncePerMinute (rateCall 3 0)).call
    oncePerMinute (rateCall 4 (120 * nanosPerSec))

theorem reachable_fourSources : (rateSystem oncePerMinute).Reachable fourSources :=
  reachable_call (reachable_call (reachable_call reachable_oneSource (Nat.zero_le _))
    (Nat.zero_le _)) (Nat.zero_le _)

theorem tidy_idleTable : idleTable.Tidy oncePerMinute (rateCall 1 0) := by
  constructor
  · intro k _ t ht
    cases ht
  · have hidle : idleTable.idle oncePerMinute (rateCall 1 0) = ∅ := by
      apply Set.eq_empty_of_forall_notMem
      rintro k (⟨-, hk⟩ | ⟨-, -, ⟨key, limit, hl, -⟩, -⟩)
      · cases hk
      · cases hl
    rw [hidle, Set.encard_empty]
    exact zero_le_two

theorem events_oneSource (k : String) : oneSource.events k =
    if k = transportKey (some (tenHost 1)) then some [0] else none := by
  have hp : (rateCall 1 0).pruned oncePerMinute idleTable.events =
      [transportKey (some (tenHost 1))] := by
    decide +kernel
  have ha : ((rateCall 1 0).check oncePerMinute idleTable.events).1 = true := by decide +kernel
  show ((rateCall 1 0).check oncePerMinute idleTable.events).2 k = _
  rw [check_events, hp, ha]
  simp only [List.mem_singleton]
  rfl

theorem tidy_oneSource : oneSource.Tidy oncePerMinute (rateCall 2 5) := by
  constructor
  · intro k _ t ht
    rw [Events.entry, events_oneSource] at ht
    split_ifs at ht
    · obtain rfl := List.mem_singleton.mp ht
      decide
    · cases ht
  · have hidle : oneSource.idle oncePerMinute (rateCall 2 5) = ∅ := by
      apply Set.eq_empty_of_forall_notMem
      rintro k (⟨-, hk⟩ | ⟨-, -, ⟨key, limit, hl, -⟩, -⟩)
      · rw [events_oneSource] at hk
        split_ifs at hk
        · cases hk
      · cases hl
    rw [hidle, Set.encard_empty]
    exact zero_le_two

theorem held_fourSources : 4 ≤ fourSources.held.encard := by
  let keys : Finset String :=
    {transportKey (tenHost 1), transportKey (tenHost 2), transportKey (tenHost 3),
      transportKey (tenHost 4)}
  have hcard : keys.card = 4 := by decide +kernel
  have hheld : ∀ k ∈ keys, (fourSources.events k).isSome = true := by decide +kernel
  have hsub : (keys : Set String) ⊆ fourSources.held := by
    intro k hk
    exact Option.isSome_iff_ne_none.mp (hheld k hk)
  have hle := Set.encard_le_encard hsub
  rwa [Set.encard_coe_eq_coe_finsetCard, hcard] at hle

theorem active_fourSources :
    fourSources.active oncePerMinute ⊆ {transportKey (tenHost 4)} := by
  intro k hk
  obtain ⟨t, ht⟩ := List.exists_mem_of_ne_nil _ hk
  obtain ⟨hmem, hrecent⟩ := mem_live.mp ht
  obtain ⟨e, he, rfl⟩ := List.mem_map.mp hmem
  obtain ⟨hlog, hcharged⟩ := List.mem_filter.mp he
  obtain ⟨-, hkey⟩ := Bool.and_eq_true_iff.mp hcharged
  have hcalls : e.1 ∈ [rateCall 1 0, rateCall 2 0, rateCall 3 0,
      rateCall 4 (120 * nanosPerSec)] := List.mem_map_of_mem hlog
  have hold : ¬120 * nanosPerSec - 0 < rateWindow := by decide
  simp only [List.mem_cons, List.not_mem_nil, or_false] at hcalls
  rcases hcalls with hc | hc | hc | hc
  · rw [hc] at hrecent
    exact absurd hrecent hold
  · rw [hc] at hrecent
    exact absurd hrecent hold
  · rw [hc] at hrecent
    exact absurd hrecent hold
  · rw [hc] at hkey
    exact List.mem_singleton.mp (of_decide_eq_true hkey)

end Toy

/-- The calls of two sources leave an empty table bounded. -/
theorem rateLimit_bounded_oneSource :
    (Toy.oneSource.call Toy.oncePerMinute (Toy.rateCall 2 5)).Bounded Toy.oncePerMinute := by
  let S := (rateSystem Toy.oncePerMinute).restrict (RateWorld.Tidy Toy.oncePerMinute)
  have hinit : S.Reachable Toy.idleTable := .init ⟨rfl, rfl⟩
  have hone : S.Reachable Toy.oneSource :=
    hinit.step (e := Toy.rateCall 1 0) ⟨Toy.tidy_idleTable, Nat.zero_le _, rfl⟩
  have htwo : S.Reachable (Toy.oneSource.call Toy.oncePerMinute (Toy.rateCall 2 5)) :=
    hone.step ⟨Toy.tidy_oneSource, Nat.zero_le _, rfl⟩
  exact (rateLimit_bounded Toy.oncePerMinute le_rfl (fun _ hl => by cases hl)).1 _ htwo

/-- The keys of three sources stay in the table for as long as they do not call again. -/
theorem rateLimit_unbounded : ¬∀ (config : RateLimitConfig),
    1 ≤ config.requestsPerSource →
      (∀ limit, config.requestsPerAid = some limit → 1 ≤ limit) →
        ∀ w, (rateSystem config).Reachable w → w.Bounded config := by
  intro h
  obtain ⟨hkeys, -⟩ := h Toy.oncePerMinute le_rfl (fun _ hl => by cases hl) _
    Toy.reachable_fourSources
  have hactive := Set.encard_le_encard Toy.active_fourSources
  rw [Set.encard_singleton] at hactive
  have hle : (4 : ℕ∞) ≤ 1 + 2 :=
    Toy.held_fourSources.trans (hkeys.trans (add_le_add_left hactive 2))
  exact absurd hle (by decide)

end Aitp
