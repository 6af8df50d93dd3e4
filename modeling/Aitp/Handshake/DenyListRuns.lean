import Aitp.Foundation.ExpiringCounts
import Aitp.Foundation.Transition
import Aitp.Handshake.DenyList

/-! # Concurrent use of the message identifier deny list

Threads call `contains`, `insert` and `sweep` on one deny list. A step is one operation on
`live`, or what a thread does to a shard of which it has the lock. An identifier is recorded
once, and the count never wraps, but two inserts may both find room where there is room for
one.
-/

namespace Aitp

open Expiring Transition

namespace InMemoryMessageIdDenyList

variable (cfg : DenyListConfig) (l : InMemoryMessageIdDenyList)

/-- How many records a list holds. -/
def records : ℕ :=
  ∑ i ∈ Finset.range (max cfg.shards 1), (l.shards i).size

/-- The record that ends `insert_sync`, before it is counted. -/
def put (mid : Uuid) (expiry : Timestamp) : InMemoryMessageIdDenyList :=
  let s := l.shards (shardOf cfg mid)
  let s := ⟨s.map.insert mid expiry, s.expiry.push (expiry, mid)⟩
  { l with shards := Function.update l.shards (shardOf cfg mid) s }

/-- `live.fetch_add(1)`. -/
def count : InMemoryMessageIdDenyList :=
  { l with live := l.live + 1 }

/-- `live.fetch_sub`. -/
def release (removed : ℕ) : InMemoryMessageIdDenyList :=
  { l with live := fetchSub l.live removed }

variable {cfg}

theorem shardOf_lt (cfg : DenyListConfig) (mid : Uuid) : shardOf cfg mid < max cfg.shards 1 :=
  Nat.mod_lt _ (lt_max_of_lt_right Nat.one_pos)

theorem records_new : (InMemoryMessageIdDenyList.new).records cfg = 0 :=
  Finset.sum_eq_zero fun _ _ => rfl

theorem records_purgeShard {i : ℕ} (hi : i < max cfg.shards 1) (now : Timestamp) :
    (l.purgeShard i now).1.records cfg + (l.purgeShard i now).2 = l.records cfg := by
  let p := (l.shards i).purge id now
  have hset : (l.purgeShard i now).1.records cfg + (l.shards i).size = l.records cfg + p.1.size :=
    sum_update hi l.shards Shard.size p.1
  have hpurge : p.1.size + p.2 = (l.shards i).size := Shard.size_purge _ _
  change (l.purgeShard i now).1.records cfg + p.2 = _
  omega

theorem records_put {mid : Uuid} (h : l.held cfg mid = none) (expiry : Timestamp) :
    (l.put cfg mid expiry).records cfg = l.records cfg + 1 := by
  let s := l.shards (shardOf cfg mid)
  have hset : (l.put cfg mid expiry).records cfg + s.size =
      l.records cfg + (s.map.insert mid expiry).entries.length :=
    sum_update (shardOf_lt cfg mid) l.shards Shard.size
      ⟨s.map.insert mid expiry, s.expiry.push (expiry, mid)⟩
  have hinsert : (s.map.insert mid expiry).entries.length = s.size + 1 := length_insert h
  omega

theorem held_put (mid : Uuid) (expiry : Timestamp) :
    (l.put cfg mid expiry).held cfg = Function.update (l.held cfg) mid (some expiry) :=
  held_update_insert rfl

end InMemoryMessageIdDenyList

inductive DenyCall where
  | contains (mid : Uuid) (now : Timestamp)
  | insert (mid : Uuid) (expiry now : Timestamp)
  | sweep (now : Timestamp)

inductive DenyResult where
  | found (b : Bool)
  | inserted (r : Except DenyListError Bool)
  | swept (removed : ℕ)

/-- Where a thread is. The purge that begins a call carries the expiry of an identifier to be
inserted, and a sweep made by an `insert` the identifier too. -/
inductive DenyPc where
  | idle
  | touchPurge (mid : Uuid) (now : Timestamp) (expiry : Option Timestamp)
  | touchRelease (mid : Uuid) (now : Timestamp) (removed : ℕ) (expiry : Option Timestamp)
  | touchCheck (mid : Uuid) (now : Timestamp) (expiry : Option Timestamp)
  | insertTest (mid : Uuid) (expiry now : Timestamp)
  | insertRetest (mid : Uuid) (expiry : Timestamp)
  | insertRelock (mid : Uuid) (expiry : Timestamp)
  | insertPut (mid : Uuid) (expiry : Timestamp)
  | insertCount (mid : Uuid)
  | sweepShard (now : Timestamp) (i removed : ℕ) (insert : Option (Uuid × Timestamp))
  | sweepRelease (removed : ℕ) (insert : Option (Uuid × Timestamp))
  | returned (r : DenyResult)

/-- The first step of a call. -/
def DenyCall.entry : DenyCall → DenyPc
  | .contains mid now => .touchPurge mid now none
  | .insert mid expiry now => .touchPurge mid now (some expiry)
  | .sweep now => .sweepShard now 0 0 none

/-- A deny list and the thread that has the lock of each shard. -/
structure DenyMemory where
  list : InMemoryMessageIdDenyList
  locks : ℕ → Option ℕ

variable (cfg : DenyListConfig)

open InMemoryMessageIdDenyList

namespace DenyMemory

/-- Take the lock of a shard. -/
def lock (m : DenyMemory) (t i : ℕ) : DenyMemory :=
  { m with locks := Function.update m.locks i (some t) }

/-- Give up the lock of a shard. -/
def unlock (m : DenyMemory) (i : ℕ) : DenyMemory :=
  { m with locks := Function.update m.locks i none }

end DenyMemory

/-- One step of a thread; one that needs a lock waits for it. -/
def DenyPc.step (t : ℕ) (m : DenyMemory) : DenyPc → Option (DenyMemory × DenyPc)
  | .idle => none
  | .touchPurge mid now expiry =>
    if m.locks (shardOf cfg mid) = none then
      let (list, removed) := m.list.purgeShard (shardOf cfg mid) now
      some ({ m with list := list }.lock t (shardOf cfg mid), .touchRelease mid now removed expiry)
    else none
  | .touchRelease mid now removed expiry =>
    some ({ m with list := m.list.release removed }, .touchCheck mid now expiry)
  | .touchCheck mid now expiry =>
    match expiry with
    | none =>
      some (m.unlock (shardOf cfg mid), .returned (.found (m.list.held cfg mid).isSome))
    | some expiry =>
      if (m.list.held cfg mid).isSome then
        some (m.unlock (shardOf cfg mid), .returned (.inserted (.ok false)))
      else some (m, .insertTest mid expiry now)
  | .insertTest mid expiry now =>
    if cfg.capacity ≤ m.list.live then
      some (m.unlock (shardOf cfg mid), .sweepShard now 0 0 (some (mid, expiry)))
    else some (m, .insertPut mid expiry)
  | .insertRetest mid expiry =>
    some (m, if cfg.capacity ≤ m.list.live
      then .returned (.inserted (.error (.atCapacity cfg.capacity)))
      else .insertRelock mid expiry)
  | .insertRelock mid expiry =>
    if m.locks (shardOf cfg mid) = none then
      if (m.list.held cfg mid).isSome then some (m, .returned (.inserted (.ok false)))
      else some (m.lock t (shardOf cfg mid), .insertPut mid expiry)
    else none
  | .insertPut mid expiry =>
    some ({ m with list := m.list.put cfg mid expiry }, .insertCount mid)
  | .insertCount mid =>
    some ({ m with list := m.list.count }.unlock (shardOf cfg mid), .returned (.inserted (.ok true)))
  | .sweepShard now i removed insert =>
    if i < max cfg.shards 1 then
      if m.locks i = none then
        let (list, n) := m.list.purgeShard i now
        some ({ m with list := list }, .sweepShard now (i + 1) (removed + n) insert)
      else none
    else some (m, .sweepRelease removed insert)
  | .sweepRelease removed insert =>
    some ({ m with list := m.list.release removed },
      match insert with
      | none => .returned (.swept removed)
      | some (mid, expiry) => .insertRetest mid expiry)
  | .returned _ => none

/-- A deny list with its threads, of which those below `used` ever made a call, and for each
identifier how many inserts of it returned true since it was last not recorded. -/
structure DenyWorld where
  memory : DenyMemory
  threads : ℕ → DenyPc
  used : ℕ
  trues : Uuid → ℕ

inductive DenyEvent where
  | call (t : ℕ) (c : DenyCall)
  | run (t : ℕ)

namespace DenyWorld

/-- The identifier of which a step from here returns that it was inserted. -/
def answersTrue : DenyPc → Option Uuid
  | .insertCount mid => some mid
  | _ => none

/-- A thread that is not in a call starts one, or a thread takes a step. -/
def next (w : DenyWorld) : DenyEvent → Option DenyWorld
  | .call t c =>
    match w.threads t with
    | .idle | .returned _ =>
      some { w with threads := Function.update w.threads t c.entry, used := max w.used (t + 1) }
    | _ => none
  | .run t =>
    ((w.threads t).step cfg t w.memory).map fun r =>
      ⟨r.1, Function.update w.threads t r.2, w.used, fun mid =>
        if (r.1.list.held cfg mid).isSome then
          w.trues mid + if answersTrue (w.threads t) = some mid then 1 else 0
        else 0⟩

def initial : DenyWorld := ⟨⟨.new, fun _ => none⟩, fun _ => .idle, 0, fun _ => 0⟩

/-- Every interleaving of calls on a new list. -/
def interleaving : System DenyWorld DenyEvent :=
  .ofNext initial (next cfg)

end DenyWorld

namespace DenyPc

/-- The shard of which a thread has the lock between its steps. -/
def holds : DenyPc → Option ℕ
  | touchRelease mid .. | touchCheck mid .. | insertTest mid .. | insertPut mid _
  | insertCount mid => some (shardOf cfg mid)
  | _ => none

/-- The records that a thread removed and is to subtract from `live`. -/
def inFlight : DenyPc → ℕ
  | touchRelease _ _ removed _ | sweepShard _ _ removed _ | sweepRelease removed _ => removed
  | _ => 0

/-- What a thread's next step subtracts from `live`. -/
def releases : DenyPc → ℕ
  | touchRelease _ _ removed _ | sweepRelease removed _ => removed
  | _ => 0

/-- The records that a thread put and is to count. -/
def uncounted : DenyPc → ℕ
  | insertCount _ => 1
  | _ => 0

/-- The records that a thread may put because it found room for them. -/
def passed : DenyPc → ℕ
  | insertRelock .. | insertPut .. => 1
  | _ => 0

/-- The identifier that a thread found not to be recorded, in a shard of which it has the lock. -/
def vacant : DenyPc → Option Uuid
  | insertTest mid .. | insertPut mid _ => some mid
  | _ => none

/-- A step from here finds room for a record. -/
def findsRoom (cfg : DenyListConfig) (m : DenyMemory) : DenyPc → Bool
  | insertTest .. | insertRetest .. => decide (m.list.live < cfg.capacity)
  | _ => false

/-- What a step can do. -/
inductive Stepped (cfg : DenyListConfig) (t : ℕ) (m : DenyMemory) :
    DenyPc → DenyMemory → DenyPc → Prop
  | touchPurge {mid now expiry} (hl : m.locks (shardOf cfg mid) = none) :
    Stepped cfg t m (.touchPurge mid now expiry)
      ({ m with list := (m.list.purgeShard (shardOf cfg mid) now).1 }.lock t (shardOf cfg mid))
      (.touchRelease mid now (m.list.purgeShard (shardOf cfg mid) now).2 expiry)
  | touchRelease {mid now removed expiry} :
    Stepped cfg t m (.touchRelease mid now removed expiry)
      { m with list := m.list.release removed } (.touchCheck mid now expiry)
  | contains {mid now r} :
    Stepped cfg t m (.touchCheck mid now none) (m.unlock (shardOf cfg mid)) (.returned r)
  | present {mid now expiry r} :
    Stepped cfg t m (.touchCheck mid now (some expiry)) (m.unlock (shardOf cfg mid)) (.returned r)
  | vacant {mid now expiry} (hn : m.list.held cfg mid = none) :
    Stepped cfg t m (.touchCheck mid now (some expiry)) m (.insertTest mid expiry now)
  | full {mid expiry now} (hc : cfg.capacity ≤ m.list.live) :
    Stepped cfg t m (.insertTest mid expiry now) (m.unlock (shardOf cfg mid))
      (.sweepShard now 0 0 (some (mid, expiry)))
  | room {mid expiry now} (hc : m.list.live < cfg.capacity) :
    Stepped cfg t m (.insertTest mid expiry now) m (.insertPut mid expiry)
  | refuse {mid expiry r} (hc : cfg.capacity ≤ m.list.live) :
    Stepped cfg t m (.insertRetest mid expiry) m (.returned r)
  | roomAgain {mid expiry} (hc : m.list.live < cfg.capacity) :
    Stepped cfg t m (.insertRetest mid expiry) m (.insertRelock mid expiry)
  | presentAgain {mid expiry r} :
    Stepped cfg t m (.insertRelock mid expiry) m (.returned r)
  | relock {mid expiry} (hl : m.locks (shardOf cfg mid) = none)
      (hn : m.list.held cfg mid = none) :
    Stepped cfg t m (.insertRelock mid expiry) (m.lock t (shardOf cfg mid)) (.insertPut mid expiry)
  | put {mid expiry} :
    Stepped cfg t m (.insertPut mid expiry) { m with list := m.list.put cfg mid expiry }
      (.insertCount mid)
  | count {mid r} :
    Stepped cfg t m (.insertCount mid) ({ m with list := m.list.count }.unlock (shardOf cfg mid))
      (.returned r)
  | sweepShard {now i removed insert} (hi : i < max cfg.shards 1) (hl : m.locks i = none) :
    Stepped cfg t m (.sweepShard now i removed insert)
      { m with list := (m.list.purgeShard i now).1 }
      (.sweepShard now (i + 1) (removed + (m.list.purgeShard i now).2) insert)
  | sweepEnd {now i removed insert} :
    Stepped cfg t m (.sweepShard now i removed insert) m (.sweepRelease removed insert)
  | sweepReturn {removed r} :
    Stepped cfg t m (.sweepRelease removed none) { m with list := m.list.release removed }
      (.returned r)
  | sweepRetest {removed mid expiry} :
    Stepped cfg t m (.sweepRelease removed (some (mid, expiry)))
      { m with list := m.list.release removed } (.insertRetest mid expiry)

variable {cfg} {t : ℕ} {m m' : DenyMemory} {pc pc' : DenyPc}

theorem stepped (h : pc.step cfg t m = some (m', pc')) : Stepped cfg t m pc m' pc' := by
  cases pc with
  | idle => cases h
  | returned r => cases h
  | touchPurge mid now expiry =>
    simp only [step] at h
    split_ifs at h with hl
    obtain ⟨rfl, rfl⟩ := Prod.mk.inj (Option.some.inj h)
    exact .touchPurge hl
  | touchRelease mid now removed expiry =>
    obtain ⟨rfl, rfl⟩ := Prod.mk.inj (Option.some.inj h)
    exact .touchRelease
  | touchCheck mid now expiry =>
    cases expiry with
    | none =>
      obtain ⟨rfl, rfl⟩ := Prod.mk.inj (Option.some.inj h)
      exact .contains
    | some expiry =>
      simp only [step] at h
      split_ifs at h with hs
      · obtain ⟨rfl, rfl⟩ := Prod.mk.inj (Option.some.inj h)
        exact .present
      · obtain ⟨rfl, rfl⟩ := Prod.mk.inj (Option.some.inj h)
        exact .vacant (by simpa using hs)
  | insertTest mid expiry now =>
    simp only [step] at h
    split_ifs at h with hc
    · obtain ⟨rfl, rfl⟩ := Prod.mk.inj (Option.some.inj h)
      exact .full hc
    · obtain ⟨rfl, rfl⟩ := Prod.mk.inj (Option.some.inj h)
      exact .room (not_le.mp hc)
  | insertRetest mid expiry =>
    simp only [step] at h
    obtain ⟨rfl, rfl⟩ := Prod.mk.inj (Option.some.inj h)
    split_ifs with hc
    · exact .refuse hc
    · exact .roomAgain (not_le.mp hc)
  | insertRelock mid expiry =>
    simp only [step] at h
    split_ifs at h with hl hs
    · obtain ⟨rfl, rfl⟩ := Prod.mk.inj (Option.some.inj h)
      exact .presentAgain
    · obtain ⟨rfl, rfl⟩ := Prod.mk.inj (Option.some.inj h)
      exact .relock hl (by simpa using hs)
  | insertPut mid expiry =>
    obtain ⟨rfl, rfl⟩ := Prod.mk.inj (Option.some.inj h)
    exact .put
  | insertCount mid =>
    obtain ⟨rfl, rfl⟩ := Prod.mk.inj (Option.some.inj h)
    exact .count
  | sweepShard now i removed insert =>
    simp only [step] at h
    split_ifs at h with hi hl
    · obtain ⟨rfl, rfl⟩ := Prod.mk.inj (Option.some.inj h)
      exact .sweepShard hi hl
    · obtain ⟨rfl, rfl⟩ := Prod.mk.inj (Option.some.inj h)
      exact .sweepEnd
  | sweepRelease removed insert =>
    obtain ⟨rfl, rfl⟩ := Prod.mk.inj (Option.some.inj h)
    cases insert with
    | none => exact .sweepReturn
    | some r => exact .sweepRetest

theorem Stepped.balance (h : Stepped cfg t m pc m' pc') (hr : pc.releases ≤ m.list.live)
    (hv : ∀ mid, pc.vacant = some mid → m.list.held cfg mid = none) :
    m'.list.live + (m.list.records cfg + pc.inFlight) + pc'.uncounted =
      m.list.live + (m'.list.records cfg + pc'.inFlight) + pc.uncounted := by
  cases h with
  | @touchPurge mid now expiry hl =>
    have hrecords := records_purgeShard m.list (shardOf_lt cfg mid) now
    change m.list.live + (m.list.records cfg + 0) + 0 = m.list.live +
      ((m.list.purgeShard (shardOf cfg mid) now).1.records cfg +
        (m.list.purgeShard (shardOf cfg mid) now).2) + 0
    omega
  | @touchRelease mid now removed expiry =>
    have hsub : (m.list.release removed).live + removed = m.list.live := fetchSub_of_le hr
    change (m.list.release removed).live + (m.list.records cfg + removed) + 0 =
      m.list.live + (m.list.records cfg + 0) + 0
    omega
  | @put mid expiry =>
    have hrecords := records_put m.list (hv mid rfl) expiry
    change m.list.live + (m.list.records cfg + 0) + 1 =
      m.list.live + ((m.list.put cfg mid expiry).records cfg + 0) + 0
    omega
  | @sweepShard now i removed insert hi hl =>
    have hrecords := records_purgeShard m.list hi now
    change m.list.live + (m.list.records cfg + removed) + 0 = m.list.live +
      ((m.list.purgeShard i now).1.records cfg + (removed + (m.list.purgeShard i now).2)) + 0
    omega
  | @sweepReturn removed r =>
    have hsub : (m.list.release removed).live + removed = m.list.live := fetchSub_of_le hr
    change (m.list.release removed).live + (m.list.records cfg + removed) + 0 =
      m.list.live + (m.list.records cfg + 0) + 0
    omega
  | @sweepRetest removed mid expiry =>
    have hsub : (m.list.release removed).live + removed = m.list.live := fetchSub_of_le hr
    change (m.list.release removed).live + (m.list.records cfg + removed) + 0 =
      m.list.live + (m.list.records cfg + 0) + 0
    omega
  | count =>
    change m.list.live + 1 + (m.list.records cfg + 0) + 0 =
      m.list.live + (m.list.records cfg + 0) + 1
    omega
  | _ => rfl

/-- A step takes a free lock, gives up one that its thread has, or leaves the locks. -/
theorem Stepped.locks (h : Stepped cfg t m pc m' pc') :
    (m'.locks = m.locks ∧ pc'.holds cfg = pc.holds cfg) ∨
    (∃ i, m.locks i = none ∧ m'.locks = Function.update m.locks i (some t) ∧
      pc.holds cfg = none ∧ pc'.holds cfg = some i) ∨
    ∃ i, pc.holds cfg = some i ∧ m'.locks = Function.update m.locks i none ∧
      pc'.holds cfg = none := by
  cases h with
  | touchPurge hl => exact .inr (.inl ⟨_, hl, rfl, rfl, rfl⟩)
  | relock hl => exact .inr (.inl ⟨_, hl, rfl, rfl, rfl⟩)
  | contains => exact .inr (.inr ⟨_, rfl, rfl, rfl⟩)
  | present => exact .inr (.inr ⟨_, rfl, rfl, rfl⟩)
  | full => exact .inr (.inr ⟨_, rfl, rfl, rfl⟩)
  | count => exact .inr (.inr ⟨_, rfl, rfl, rfl⟩)
  | _ => exact .inl ⟨rfl, rfl⟩

theorem Stepped.shards (h : Stepped cfg t m pc m' pc') {i : ℕ} (hl : m.locks i ≠ none)
    (hi : pc.holds cfg ≠ some i) : m'.list.shards i = m.list.shards i := by
  cases h with
  | @touchPurge mid now expiry hfree =>
    have hne : i ≠ shardOf cfg mid := by
      rintro rfl
      exact hl hfree
    exact Function.update_of_ne hne ..
  | @sweepShard now j removed insert _ hfree =>
    have hne : i ≠ j := by
      rintro rfl
      exact hl hfree
    exact Function.update_of_ne hne ..
  | @put mid expiry =>
    have hne : i ≠ shardOf cfg mid := by
      rintro rfl
      exact hi rfl
    exact Function.update_of_ne hne ..
  | _ => rfl

/-- A step puts an identifier, or removes some. -/
theorem Stepped.held (h : Stepped cfg t m pc m' pc') :
    (∃ mid expiry, pc = .insertPut mid expiry ∧ pc' = .insertCount mid ∧
      m'.list.held cfg = Function.update (m.list.held cfg) mid (some expiry)) ∨
    (∀ mid u, m'.list.held cfg mid = some u → m.list.held cfg mid = some u) ∧
      ∀ mid, pc' ≠ .insertCount mid := by
  cases h with
  | @put mid expiry => exact .inl ⟨mid, expiry, rfl, rfl, held_put m.list mid expiry⟩
  | touchPurge =>
    refine .inr ⟨?_, by rintro _ ⟨⟩⟩
    intro mid u hu
    exact (thins_purgeShard _ _).kept hu
  | sweepShard =>
    refine .inr ⟨?_, by rintro _ ⟨⟩⟩
    intro mid u hu
    exact (thins_purgeShard _ _).kept hu
  | _ => exact .inr ⟨fun _ _ hu => hu, by rintro _ ⟨⟩⟩

theorem Stepped.lookedUp (h : Stepped cfg t m pc m' pc')
    (hv : ∀ mid, pc.vacant = some mid → m.list.held cfg mid = none) (mid : Uuid)
    (hmid : pc'.vacant = some mid) :
    m'.list.held cfg mid = none ∧ pc'.holds cfg = some (shardOf cfg mid) := by
  cases h with
  | vacant hn =>
    obtain rfl := Option.some.inj hmid
    exact ⟨hn, rfl⟩
  | room =>
    obtain rfl := Option.some.inj hmid
    exact ⟨hv _ rfl, rfl⟩
  | relock _ hn =>
    obtain rfl := Option.some.inj hmid
    exact ⟨hn, rfl⟩
  | _ => cases hmid

/-- A step takes up room for one record when it finds it, and at no other time. -/
theorem Stepped.takesRoom (h : Stepped cfg t m pc m' pc')
    (hv : ∀ mid, pc.vacant = some mid → m.list.held cfg mid = none) :
    m'.list.records cfg + pc'.passed ≤ m.list.records cfg + pc.passed ∨
      pc.findsRoom cfg m = true ∧
        m'.list.records cfg + pc'.passed ≤ m.list.records cfg + pc.passed + 1 := by
  cases h with
  | room hc => exact .inr ⟨decide_eq_true hc, Nat.le_refl _⟩
  | roomAgain hc => exact .inr ⟨decide_eq_true hc, Nat.le_refl _⟩
  | @touchPurge mid now expiry hl =>
    have hrecords := records_purgeShard m.list (shardOf_lt cfg mid) now
    exact .inl (Nat.le_of_add_right_le hrecords.le)
  | @sweepShard now i removed insert hi hl =>
    have hrecords := records_purgeShard m.list hi now
    exact .inl (Nat.le_of_add_right_le hrecords.le)
  | @put mid expiry => exact .inl (records_put m.list (hv mid rfl) expiry).le
  | presentAgain => exact .inl (Nat.le_add_right _ 1)
  | _ => exact .inl (Nat.le_refl _)

theorem holds_of_vacant {mid : Uuid} (h : pc.vacant = some mid) :
    pc.holds cfg = some (shardOf cfg mid) := by
  cases pc with
  | insertTest =>
    obtain rfl := Option.some.inj h
    rfl
  | insertPut =>
    obtain rfl := Option.some.inj h
    rfl
  | _ => cases h

theorem answersTrue_eq {mid : Uuid} (h : DenyWorld.answersTrue pc = some mid) :
    pc = .insertCount mid := by
  cases pc with
  | insertCount mid' =>
    obtain rfl := Option.some.inj h
    rfl
  | _ => cases h

theorem releases_le (pc : DenyPc) : pc.releases ≤ pc.inFlight := by
  cases pc with
  | sweepShard now i removed insert => exact Nat.zero_le _
  | _ => exact Nat.le_refl _

end DenyPc

/-! ## Runs -/

namespace DenyWorld

open DenyPc

variable {cfg} {w w' : DenyWorld} {t : ℕ}

/-- What holds in every state: who has which lock, what is recorded, and what is counted. -/
structure Sound (cfg : DenyListConfig) (w : DenyWorld) : Prop where
  idle : ∀ t, w.used ≤ t → w.threads t = .idle
  locked : ∀ t i, (w.threads t).holds cfg = some i → w.memory.locks i = some t
  vacant : ∀ t mid, (w.threads t).vacant = some mid → w.memory.list.held cfg mid = none
  put : ∀ t mid, w.threads t = .insertCount mid →
    (w.memory.list.held cfg mid).isSome = true ∧ w.trues mid = 0
  absent : ∀ mid, w.memory.list.held cfg mid = none → w.trues mid = 0
  once : ∀ mid, w.trues mid ≤ 1
  balance : w.memory.list.live + ∑ t ∈ Finset.range w.used, (w.threads t).uncounted =
    w.memory.list.records cfg + ∑ t ∈ Finset.range w.used, (w.threads t).inFlight

namespace Sound

theorem initial : Sound cfg initial where
  idle _ _ := rfl
  locked := by
    rintro t i ⟨⟩
  vacant := by
    rintro t mid ⟨⟩
  put := by
    rintro t mid ⟨⟩
  absent _ _ := rfl
  once _ := Nat.zero_le _
  balance := by
    change 0 + 0 = InMemoryMessageIdDenyList.new.records cfg + 0
    rw [records_new]

theorem holds_unique (h : Sound cfg w) {u i : ℕ} (ht : (w.threads t).holds cfg = some i)
    (hu : (w.threads u).holds cfg = some i) : t = u :=
  Option.some.inj ((h.locked t i ht).symm.trans (h.locked u i hu))

theorem uncounted_le (h : Sound cfg w) :
    ∑ t ∈ Finset.range w.used, (w.threads t).uncounted ≤ w.memory.list.records cfg := by
  let counting := (Finset.range w.used).filter fun t => (w.threads t).uncounted ≠ 0
  let shard := fun t => ((w.threads t).holds cfg).getD 0
  have hcount : ∀ t ∈ counting, ∃ mid, w.threads t = .insertCount mid := by
    intro t ht
    have hne := (Finset.mem_filter.mp ht).2
    cases hpc : w.threads t with
    | insertCount mid => exact ⟨mid, rfl⟩
    | _ =>
      rw [hpc] at hne
      exact absurd rfl hne
  have hinj : Set.InjOn shard counting := by
    intro t ht u hu he
    obtain ⟨mid, hmid⟩ := hcount t ht
    obtain ⟨mid', hmid'⟩ := hcount u hu
    simp only [shard, hmid, hmid', holds, Option.getD_some] at he
    apply h.holds_unique (i := shardOf cfg mid)
    · rw [hmid]
      rfl
    · rw [hmid', he]
      rfl
  have hsum : ∑ t ∈ Finset.range w.used, (w.threads t).uncounted = counting.card := by
    rw [Finset.card_eq_sum_ones, Finset.sum_filter]
    refine Finset.sum_congr rfl ?_
    intro t _
    cases w.threads t <;> rfl
  have hsize : ∀ i ∈ counting.image shard, 1 ≤ (w.memory.list.shards i).size := by
    intro i hi
    obtain ⟨t, ht, rfl⟩ := Finset.mem_image.mp hi
    obtain ⟨mid, hmid⟩ := hcount t ht
    simp only [shard, hmid, holds, Option.getD_some]
    have hlen := length_erase (h.put t mid hmid).1
    have hsize : (w.memory.list.shards (shardOf cfg mid)).size =
        (w.memory.list.shards (shardOf cfg mid)).map.entries.length := rfl
    omega
  have hsub : counting.image shard ⊆ Finset.range (max cfg.shards 1) := by
    intro i hi
    obtain ⟨t, ht, rfl⟩ := Finset.mem_image.mp hi
    obtain ⟨mid, hmid⟩ := hcount t ht
    simp only [shard, hmid, holds, Option.getD_some]
    exact Finset.mem_range.mpr (shardOf_lt _ mid)
  calc ∑ t ∈ Finset.range w.used, (w.threads t).uncounted
      = (counting.image shard).card := by rw [hsum, Finset.card_image_of_injOn hinj]
    _ ≤ ∑ i ∈ counting.image shard, (w.memory.list.shards i).size := by
      simpa using Finset.card_nsmul_le_sum _ _ 1 hsize
    _ ≤ w.memory.list.records cfg := Finset.sum_le_sum_of_subset hsub

theorem releases_le (h : Sound cfg w) (t : ℕ) :
    (w.threads t).releases ≤ w.memory.list.live := by
  have hle := DenyPc.releases_le (w.threads t)
  have hflight : (w.threads t).inFlight ≤
      ∑ t ∈ Finset.range w.used, (w.threads t).inFlight := by
    by_cases ht : t < w.used
    · exact Finset.single_le_sum (f := fun t => (w.threads t).inFlight)
        (fun _ _ => Nat.zero_le _) (Finset.mem_range.mpr ht)
    · rw [h.idle t (not_lt.mp ht)]
      exact Nat.zero_le _
  have hbalance := h.balance
  have huncounted := h.uncounted_le
  omega

theorem sum_eq (h : Sound cfg w) {n : ℕ} (hn : w.used ≤ n) {f : DenyPc → ℕ} (hf : f .idle = 0) :
    ∑ t ∈ Finset.range n, f (w.threads t) = ∑ t ∈ Finset.range w.used, f (w.threads t) := by
  refine (Finset.sum_subset (Finset.range_subset_range.mpr hn) ?_).symm
  intro t _ ht
  rw [h.idle t (not_lt.mp fun hlt => ht (Finset.mem_range.mpr hlt))]
  exact hf

/-- What a call does to the threads. -/
theorem next_call {c : DenyCall} (hs : w.next cfg (.call t c) = some w') :
    (w.threads t).holds cfg = none ∧ (w.threads t).vacant = none ∧ (∀ mid,
      w.threads t ≠ .insertCount mid) ∧ (w.threads t).uncounted = 0 ∧
      (w.threads t).inFlight = 0 ∧ (w.threads t).passed = 0 ∧
      w' = { w with threads := Function.update w.threads t c.entry, used := max w.used (t + 1) } := by
  simp only [next] at hs
  split at hs
  · rename_i he
    rw [he]
    exact ⟨rfl, rfl, by rintro _ ⟨⟩, rfl, rfl, rfl, (Option.some.inj hs).symm⟩
  · rename_i he
    rw [he]
    exact ⟨rfl, rfl, by rintro _ ⟨⟩, rfl, rfl, rfl, (Option.some.inj hs).symm⟩
  · cases hs

theorem entry_plain (cfg : DenyListConfig) (c : DenyCall) :
    c.entry.holds cfg = none ∧ c.entry.vacant = none ∧
    (∀ mid, c.entry ≠ .insertCount mid) ∧ c.entry.uncounted = 0 ∧ c.entry.inFlight = 0 ∧
    c.entry.passed = 0 := by
  cases c with
  | contains => exact ⟨rfl, rfl, by rintro _ ⟨⟩, rfl, rfl, rfl⟩
  | insert => exact ⟨rfl, rfl, by rintro _ ⟨⟩, rfl, rfl, rfl⟩
  | sweep => exact ⟨rfl, rfl, by rintro _ ⟨⟩, rfl, rfl, rfl⟩

theorem sum_call (h : Sound cfg w) {c : DenyCall} {f : DenyPc → ℕ} (hf : f .idle = 0)
    (ht : f (w.threads t) = 0) (hc : f c.entry = 0) :
    ∑ u ∈ Finset.range (max w.used (t + 1)), f (Function.update w.threads t c.entry u) =
      ∑ u ∈ Finset.range w.used, f (w.threads u) := by
  have hlt : t < max w.used (t + 1) := lt_max_of_lt_right (Nat.lt_succ_self t)
  have hsum := sum_update hlt w.threads f c.entry
  have hold := h.sum_eq (le_max_left w.used (t + 1)) hf
  omega

theorem call (h : Sound cfg w) {c : DenyCall} (hs : w.next cfg (.call t c) = some w') :
    Sound cfg w' := by
  obtain ⟨hholds, hvacant, hcount, huncounted, hflight, -, rfl⟩ := next_call hs
  obtain ⟨eholds, evacant, ecount, euncounted, eflight, -⟩ := entry_plain cfg c
  have hother : ∀ {u : ℕ} {P : DenyPc → Prop}, ¬P c.entry →
      P (Function.update w.threads t c.entry u) → P (w.threads u) := by
    intro u P hn hp
    by_cases hu : u = t
    · subst hu
      rw [Function.update_self] at hp
      exact absurd hp hn
    · rwa [Function.update_of_ne hu] at hp
  refine ⟨?_, ?_, ?_, ?_, h.absent, h.once, ?_⟩
  · intro u hu
    have hne : u ≠ t := by
      rintro rfl
      exact absurd ((le_max_right w.used (u + 1)).trans hu) (by omega)
    exact (Function.update_of_ne hne ..).trans (h.idle u ((le_max_left ..).trans hu))
  · intro u i hi
    exact h.locked u i (hother (P := fun pc => pc.holds cfg = some i) (by simp [eholds]) hi)
  · intro u mid hmid
    exact h.vacant u mid (hother (P := fun pc => pc.vacant = some mid) (by simp [evacant]) hmid)
  · intro u mid hmid
    exact h.put u mid (hother (P := fun pc => pc = .insertCount mid) (ecount mid) hmid)
  · have hsum := h.sum_call (f := uncounted) rfl huncounted euncounted
    have hsum' := h.sum_call (f := inFlight) rfl hflight eflight
    have hbalance := h.balance
    simp only at hsum hsum' ⊢
    omega

variable {m' : DenyMemory} {pc' : DenyPc}

theorem held_eq (h : Sound cfg w) (hs : Stepped cfg t w.memory (w.threads t) m' pc') {u : ℕ}
    (hu : u ≠ t) {mid : Uuid} (hl : (w.threads u).holds cfg = some (shardOf cfg mid)) :
    m'.list.held cfg mid = w.memory.list.held cfg mid := by
  have hlock := h.locked u _ hl
  have hshard := hs.shards (i := shardOf cfg mid) (by rw [hlock]; exact Option.some_ne_none u)
    fun ht => hu (h.holds_unique hl ht)
  change (m'.list.shards _).map.lookup mid = (w.memory.list.shards _).map.lookup mid
  rw [hshard]

theorem locked_run (h : Sound cfg w) (hs : Stepped cfg t w.memory (w.threads t) m' pc') {u i : ℕ}
    (hi : (Function.update w.threads t pc' u).holds cfg = some i) : m'.locks i = some u := by
  by_cases hu : u = t
  · subst hu
    rw [Function.update_self] at hi
    rcases hs.locks with ⟨hl, hh⟩ | ⟨j, -, hl, -, hh⟩ | ⟨j, -, -, hh⟩
    · rw [hl]
      exact h.locked u i (hh.symm.trans hi)
    · obtain rfl := Option.some.inj (hh.symm.trans hi)
      rw [hl, Function.update_self]
    · rw [hh] at hi
      cases hi
  · rw [Function.update_of_ne hu] at hi
    have hlock := h.locked u i hi
    rcases hs.locks with ⟨hl, -⟩ | ⟨j, hfree, hl, -, -⟩ | ⟨j, hj, hl, -⟩
    · rw [hl]
      exact hlock
    · have hne : i ≠ j := by
        rintro rfl
        rw [hlock] at hfree
        cases hfree
      rw [hl, Function.update_of_ne hne]
      exact hlock
    · have hne : i ≠ j := by
        rintro rfl
        exact hu (h.holds_unique hi hj)
      rw [hl, Function.update_of_ne hne]
      exact hlock

theorem vacant_run (h : Sound cfg w) (hs : Stepped cfg t w.memory (w.threads t) m' pc') {u : ℕ}
    {mid : Uuid} (hmid : (Function.update w.threads t pc' u).vacant = some mid) :
    m'.list.held cfg mid = none := by
  by_cases hu : u = t
  · subst hu
    rw [Function.update_self] at hmid
    exact (hs.lookedUp (h.vacant u) mid hmid).1
  · rw [Function.update_of_ne hu] at hmid
    rw [h.held_eq hs hu (holds_of_vacant hmid)]
    exact h.vacant u mid hmid

theorem trues_le (h : Sound cfg w) (mid : Uuid) :
    w.trues mid + (if answersTrue (w.threads t) = some mid then 1 else 0) ≤ 1 := by
  split_ifs with ha
  · rw [(h.put t mid (answersTrue_eq ha)).2]
  · exact h.once mid

theorem put_run (h : Sound cfg w) (hs : Stepped cfg t w.memory (w.threads t) m' pc') {u : ℕ}
    {mid : Uuid} (hmid : Function.update w.threads t pc' u = .insertCount mid) :
    (m'.list.held cfg mid).isSome = true ∧
      w.trues mid + (if answersTrue (w.threads t) = some mid then 1 else 0) = 0 := by
  by_cases hu : u = t
  · subst hu
    rw [Function.update_self] at hmid
    rcases hs.held with ⟨mid', expiry, hpc, hpc', hheld⟩ | ⟨-, hne⟩
    · obtain rfl := DenyPc.insertCount.inj (hpc'.symm.trans hmid)
      have hvacant : (w.threads u).vacant = some mid' := by
        rw [hpc]
        rfl
      refine ⟨by rw [hheld, Function.update_self]; rfl, ?_⟩
      rw [h.absent mid' (h.vacant u mid' hvacant), hpc]
      rfl
    · exact absurd hmid (hne mid)
  · rw [Function.update_of_ne hu] at hmid
    have hlock : (w.threads u).holds cfg = some (shardOf cfg mid) := by
      rw [hmid]
      rfl
    have hother : answersTrue (w.threads t) ≠ some mid := by
      intro ha
      have ht : (w.threads t).holds cfg = some (shardOf cfg mid) := by
        rw [answersTrue_eq ha]
        rfl
      exact hu (h.holds_unique hlock ht)
    rw [h.held_eq hs hu hlock, if_neg hother]
    exact h.put u mid hmid

theorem lt_used (h : Sound cfg w) (hs : Stepped cfg t w.memory (w.threads t) m' pc') :
    t < w.used := by
  by_contra hn
  rw [h.idle t (not_lt.mp hn)] at hs
  cases hs

theorem run (h : Sound cfg w) (hs : w.next cfg (.run t) = some w') : Sound cfg w' := by
  obtain ⟨⟨m', pc'⟩, hr, rfl⟩ := Option.map_eq_some_iff.mp hs
  have hstep := stepped hr
  have ht := h.lt_used hstep
  refine ⟨?_, fun _ _ => h.locked_run hstep, fun _ _ => h.vacant_run hstep, ?_, ?_, ?_, ?_⟩
  · intro u hu
    have hne : u ≠ t := fun he => absurd ht (not_lt.mpr (he ▸ hu))
    exact (Function.update_of_ne hne ..).trans (h.idle u hu)
  · intro u mid hmid
    obtain ⟨hheld, htrues⟩ := h.put_run hstep hmid
    exact ⟨hheld, (if_pos hheld).trans htrues⟩
  · intro mid hmid
    have hnone : m'.list.held cfg mid = none := hmid
    simp only [hnone, Option.isSome_none, Bool.false_eq_true, if_false]
  · intro mid
    by_cases hheld : (m'.list.held cfg mid).isSome = true
    · exact (if_pos hheld).le.trans (h.trues_le mid)
    · exact (if_neg hheld).le.trans (Nat.zero_le _)
  · have hbalance := hstep.balance (h.releases_le t) (h.vacant t)
    have hsum := sum_update ht w.threads uncounted pc'
    have hsum' := sum_update ht w.threads inFlight pc'
    have hold := h.balance
    simp only at hsum hsum' ⊢
    omega

end Sound

theorem sound_of_reachable (h : (interleaving cfg).Reachable w) : Sound cfg w := by
  induction h with
  | init hi =>
    obtain rfl := hi
    exact .initial
  | @step w ev w' _ hs ih =>
    cases ev with
    | call t c => exact ih.call hs
    | run t => exact ih.run hs

/-- An insert finds room only when the records held, and those that other inserts found room for
and did not put yet, do not fill the list. -/
def Roomy (cfg : DenyListConfig) (w : DenyWorld) : DenyEvent → Prop
  | .call .. => True
  | .run t => (w.threads t).findsRoom cfg w.memory = true →
    w.memory.list.records cfg + ∑ u ∈ Finset.range w.used, (w.threads u).passed < cfg.capacity

instance (w : DenyWorld) (ev : DenyEvent) : Decidable (Roomy cfg w ev) := by
  cases ev <;> unfold Roomy <;> infer_instance

/-- The records held, and those that inserts found room for, fit the list. -/
def Roomed (cfg : DenyListConfig) (w : DenyWorld) : Prop :=
  w.memory.list.records cfg + ∑ u ∈ Finset.range w.used, (w.threads u).passed ≤ cfg.capacity

theorem Roomed.call (h : Roomed cfg w) (hw : Sound cfg w) {c : DenyCall}
    (hs : w.next cfg (.call t c) = some w') : Roomed cfg w' := by
  obtain ⟨-, -, -, -, -, hpassed, rfl⟩ := Sound.next_call hs
  have hsum := hw.sum_call (f := passed) rfl hpassed (Sound.entry_plain cfg c).2.2.2.2.2
  simp only [Roomed] at h ⊢
  omega

theorem Roomed.run (h : Roomed cfg w) (hw : Sound cfg w) (hr : Roomy cfg w (.run t))
    (hs : w.next cfg (.run t) = some w') : Roomed cfg w' := by
  obtain ⟨⟨m', pc'⟩, hp, rfl⟩ := Option.map_eq_some_iff.mp hs
  have hstep := stepped hp
  have hsum := sum_update (hw.lt_used hstep) w.threads passed pc'
  have hlt := hr
  simp only [Roomed, Roomy] at h hlt ⊢
  rcases hstep.takesRoom (hw.vacant t) with hle | ⟨hroom, hle⟩
  · omega
  · have hfits := hlt hroom
    omega

theorem roomed_of_reachable (h : ((interleaving cfg).restrict (Roomy cfg)).Reachable w) :
    Roomed cfg w := by
  induction h with
  | init hi =>
    obtain rfl := hi
    change InMemoryMessageIdDenyList.new.records cfg + 0 ≤ cfg.capacity
    rw [records_new]
    exact Nat.zero_le _
  | @step w ev w' hw hs ih =>
    have hsound := sound_of_reachable hw.of_restrict
    cases ev with
    | call t c => exact ih.call hsound hs.2
    | run t => exact ih.run hsound hs.1 hs.2

end DenyWorld

/-- In every interleaving no release wraps the count, and an identifier is inserted at most once
while it is recorded; while no insert finds room that others are to take up, the list holds no
more records than its capacity. -/
theorem denyList_law (cfg : DenyListConfig) :
    (∀ w, (DenyWorld.interleaving cfg).Reachable w →
      (∀ t, (w.threads t).releases ≤ w.memory.list.live) ∧ ∀ mid, w.trues mid ≤ 1) ∧
    ∀ w, ((DenyWorld.interleaving cfg).restrict (DenyWorld.Roomy cfg)).Reachable w →
      w.memory.list.records cfg ≤ cfg.capacity := by
  constructor
  · intro w h
    have hsound := DenyWorld.sound_of_reachable h
    exact ⟨hsound.releases_le, hsound.once⟩
  · intro w h
    exact (Nat.le_add_right ..).trans (DenyWorld.roomed_of_reachable h)

/-! ## Two inserts and room for one -/

/-- A list of two shards and one record. -/
def oneRecord : DenyListConfig := ⟨2, 1, fun mid => mid.nibbles.headD 0⟩

theorem length_numbered (n : Fin 16) : (List.replicate 32 n.val).length = 32 :=
  List.length_replicate ..

theorem hex_numbered (n : Fin 16) : ∀ d ∈ List.replicate 32 n.val, d < 16 := by
  intro d hd
  rw [List.eq_of_mem_replicate hd]
  exact n.isLt

/-- An identifier that repeats one digit. -/
def numbered (n : Fin 16) : Uuid := ⟨List.replicate 32 n.val, length_numbered n, hex_numbered n⟩

/-- Two threads insert identifiers of two shards, each as far as finding room before either puts
its own. -/
def crowdedRun : List DenyEvent :=
  [.call 0 (.insert (numbered 0) 60 0), .call 1 (.insert (numbered 1) 60 0),
    .run 0, .run 0, .run 0, .run 0, .run 1, .run 1, .run 1, .run 1,
    .run 0, .run 0, .run 1, .run 1]

/-- The same two inserts, one after the other. -/
def orderlyRun : List DenyEvent :=
  [.call 0 (.insert (numbered 0) 60 0), .run 0, .run 0, .run 0, .run 0, .run 0, .run 0,
    .call 1 (.insert (numbered 1) 60 0), .run 1, .run 1, .run 1, .run 1, .run 1, .run 1, .run 1,
    .run 1, .run 1]

/-- Both inserts return true, and a list bounded at one record holds two. -/
theorem denyList_crowded : ∃ w, (DenyWorld.interleaving oneRecord).Reachable w ∧
    w.trues (numbered 0) = 1 ∧ w.trues (numbered 1) = 1 ∧
    w.memory.list.records oneRecord = 2 ∧ oneRecord.capacity = 1 := by
  have hs : ((System.runNext (DenyWorld.next oneRecord) .initial crowdedRun).map fun w =>
      (w.trues (numbered 0), w.trues (numbered 1), w.memory.list.records oneRecord)) =
      some (1, 1, 2) := by
    decide +kernel
  obtain ⟨w, hw, ho⟩ := Option.map_eq_some_iff.mp hs
  obtain ⟨hzero, hone, hrecords⟩ := by simpa only [Prod.mk.injEq] using ho
  exact ⟨w, System.reachable_of_runNext (.init rfl) hw, hzero, hone, hrecords, rfl⟩

theorem denyList_law_orderly : ∃ w,
    ((DenyWorld.interleaving oneRecord).restrict (DenyWorld.Roomy oneRecord)).Reachable w ∧
      w.trues (numbered 0) = 1 ∧ w.trues (numbered 1) = 0 ∧
      w.memory.list.records oneRecord ≤ 1 := by
  have hs : ((System.runNext (fun w ev => if DenyWorld.Roomy oneRecord w ev
      then DenyWorld.next oneRecord w ev else none) .initial orderlyRun).map fun w =>
      (w.trues (numbered 0), w.trues (numbered 1))) = some (1, 0) := by
    decide +kernel
  obtain ⟨w, hw, ho⟩ := Option.map_eq_some_iff.mp hs
  have hr : ((DenyWorld.interleaving oneRecord).restrict (DenyWorld.Roomy oneRecord)).Reachable w :=
    System.reachable_restrict_of_runNext (.init rfl) hw
  obtain ⟨hzero, hone⟩ := by simpa only [Prod.mk.injEq] using ho
  exact ⟨w, hr, hzero, hone, (denyList_law oneRecord).2 w hr⟩

end Aitp
