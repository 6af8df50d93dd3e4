import Aitp.Handshake.StateMachine
import Mathlib.Data.List.Sort

/-! # The table of open sessions

The sessions that `transport/server.rs` keeps from a HELLO to its COMMIT, by the
identifier in the response header. A HELLO makes room for its session before it opens
it, and a COMMIT takes its session out of the table before it is driven.
-/

namespace Aitp

/-- A `HashMap` with identifiers for keys, in the order in which it is iterated. -/
structure UuidMap (V : Type) where
  entries : List (Uuid × V)
  nodup : (entries.map Prod.fst).Nodup

namespace UuidMap

variable {V : Type}

def empty : UuidMap V := ⟨[], .nil⟩

def retain (m : UuidMap V) (keep : Uuid × V → Bool) : UuidMap V where
  entries := m.entries.filter keep
  nodup := m.nodup.sublist (List.filter_sublist.map Prod.fst)

/-- `HashMap::remove`, of what is left. -/
def remove (m : UuidMap V) (id : Uuid) : UuidMap V :=
  m.retain fun e => e.1 != id

def insert (m : UuidMap V) (id : Uuid) (v : V) : UuidMap V where
  entries := (id, v) :: (m.remove id).entries
  nodup := by
    refine List.nodup_cons.mpr ⟨?_, (m.remove id).nodup⟩
    intro h
    obtain ⟨e, he, hid⟩ := List.mem_map.mp h
    exact (bne_iff_ne.mp (List.mem_filter.mp he).2) hid

def get (m : UuidMap V) (id : Uuid) : Option V :=
  m.entries.lookup id

def evictOldestToCapacity (m : UuidMap V) (cap : ℕ) (instantOf : V → ℕ) : UuidMap V :=
  if m.entries.length ≤ cap then m
  else
    let byAge := (m.entries.map fun e => (e.1, instantOf e.2)).insertionSort fun a b => a.2 ≤ b.2
    let evicted := (byAge.take (m.entries.length - cap)).map Prod.fst
    m.retain fun e => !evicted.contains e.1

variable {m : UuidMap V} {id : Uuid} {v : V}

theorem retain_sublist (m : UuidMap V) (keep : Uuid × V → Bool) :
    (m.retain keep).entries.Sublist m.entries :=
  List.filter_sublist

theorem evictOldestToCapacity_sublist (m : UuidMap V) (cap : ℕ) (instantOf : V → ℕ) :
    (m.evictOldestToCapacity cap instantOf).entries.Sublist m.entries := by
  unfold evictOldestToCapacity
  split_ifs
  · exact List.Sublist.refl m.entries
  · exact m.retain_sublist _

theorem perm_remove (h : m.get id = some v) : m.entries.Perm ((id, v) :: (m.remove id).entries) := by
  obtain ⟨before, after, he, hb⟩ := List.lookup_eq_some_iff.mp h
  have hn := m.nodup
  rw [he, List.map_append, List.map_cons, List.nodup_middle, List.nodup_cons] at hn
  have hkeep : ∀ l : List (Uuid × V), (∀ e ∈ l, e.1 ≠ id) → l.filter (fun e => e.1 != id) = l := by
    intro l hl
    exact List.filter_eq_self.mpr fun e h => bne_iff_ne.mpr (hl e h)
  have hleft : (m.remove id).entries = before ++ after := by
    change m.entries.filter (fun e => e.1 != id) = before ++ after
    rw [he, List.filter_append, List.filter_cons_of_neg (by simp)]
    congr 1
    · apply hkeep
      rintro e hm rfl
      exact hn.1 (List.mem_append_left _ (List.mem_map.mpr ⟨e, hm, rfl⟩))
    · apply hkeep
      rintro e hm rfl
      exact hn.1 (List.mem_append_right _ (List.mem_map.mpr ⟨e, hm, rfl⟩))
  rw [hleft, he]
  exact List.perm_middle

end UuidMap

/-- `SessionEntry`, created at a reading of the monotonic clock. -/
structure SessionEntry where
  responder : Responder
  createdAt : ℕ

/-- How long and how many sessions are kept. -/
structure SessionLimits where
  sessionTtl : ℕ
  maxSessions : ℕ

abbrev SessionTable := UuidMap SessionEntry

/-- Why a COMMIT finds no session. -/
inductive NoSession where
  | expired
  | unknown

/-- The two readings of the monotonic clock that a handler makes while it holds the table. -/
structure TableClock where
  first : ℕ
  second : ℕ

namespace SessionTable

variable (limits : SessionLimits) (clock : TableClock) (sessions : SessionTable) (id : Uuid)

def sweepExpired (now : ℕ) : SessionTable :=
  sessions.retain fun e => decide (now - e.2.createdAt ≤ limits.sessionTtl)

/-- What a HELLO does to the table: it sweeps, evicts and inserts. -/
def openSession (responder : Responder) : SessionTable :=
  ((sessions.sweepExpired limits clock.first).evictOldestToCapacity (limits.maxSessions - 1)
    SessionEntry.createdAt).insert id ⟨responder, clock.second⟩

/-- What a COMMIT does to the table: it sweeps, and removes its session unless that expired. -/
def takeSession : Except NoSession SessionEntry × SessionTable :=
  let expiredPresent := (sessions.get id).any fun e =>
    decide (limits.sessionTtl < clock.first - e.createdAt)
  let swept := sessions.sweepExpired limits clock.second
  if expiredPresent then (.error .expired, swept)
  else (okOr (swept.get id) .unknown, swept.remove id)

variable {limits clock sessions id} {entry : SessionEntry} {left : SessionTable}

theorem entries_openSession (responder : Responder) :
    ∃ kept, (sessions.openSession limits clock id responder).entries =
        (id, ⟨responder, clock.second⟩) :: kept ∧ kept.Sublist sessions.entries := by
  refine ⟨_, rfl, ?_⟩
  exact (UuidMap.retain_sublist _ _).trans
    ((UuidMap.evictOldestToCapacity_sublist _ _ _).trans (UuidMap.retain_sublist _ _))

theorem takeSession_ok (h : sessions.takeSession limits clock id = (.ok entry, left)) :
    (sessions.sweepExpired limits clock.second).entries.Perm ((id, entry) :: left.entries) := by
  unfold takeSession at h
  simp only at h
  split_ifs at h
  · cases h
  · obtain ⟨hget, rfl⟩ := Prod.mk.inj h
    exact UuidMap.perm_remove (okOr_eq_ok.mp hget)

theorem sweepExpired_sublist (now : ℕ) :
    (sessions.sweepExpired limits now).entries.Sublist sessions.entries :=
  sessions.retain_sublist _

theorem timely_of_takeSession (h : sessions.takeSession limits clock id = (.ok entry, left)) :
    clock.second - entry.createdAt ≤ limits.sessionTtl := by
  have hmem := (takeSession_ok h).mem_iff.mpr List.mem_cons_self
  exact of_decide_eq_true (List.mem_filter.mp hmem).2

theorem takeSession_sublist :
    (sessions.takeSession limits clock id).2.entries.Sublist sessions.entries := by
  unfold takeSession
  simp only
  split_ifs
  · exact UuidMap.retain_sublist _ _
  · exact (UuidMap.retain_sublist _ _).trans (UuidMap.retain_sublist _ _)

end SessionTable

end Aitp
