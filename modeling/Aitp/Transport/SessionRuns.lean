import Aitp.Crypto.Toy
import Aitp.Foundation.Transition
import Aitp.Transport.SessionTable
import Mathlib.Data.List.Perm.Basic

/-! # Runs of the session table

HELLOs open sessions, COMMITs take them and the sweeper drops them, in any order. The
table keeps its bound, a session is evicted early only for want of room, and whatever a
COMMIT takes is taken once and in time. The COMMIT drives what it took later.
-/

namespace Aitp

open Transition

/-! ## Eviction -/

namespace UuidMap

variable {V : Type} {m : UuidMap V} {cap : ℕ} {instantOf : V → ℕ} {x y : Uuid × V}

theorem filter_keys_append {β : Type} {a b : List (Uuid × β)} (h : ((a ++ b).map Prod.fst).Nodup) :
    (a ++ b).filter (fun e => !(a.map Prod.fst).contains e.1) = b := by
  rw [List.map_append] at h
  obtain ⟨-, -, hdisjoint⟩ := List.nodup_append.mp h
  have ha : a.filter (fun e => !(a.map Prod.fst).contains e.1) = [] := by
    apply List.filter_eq_nil_iff.mpr
    intro e he
    simp only [Bool.not_eq_true', Bool.not_eq_false, List.contains_iff_mem]
    exact List.mem_map_of_mem he
  have hb : b.filter (fun e => !(a.map Prod.fst).contains e.1) = b := by
    apply List.filter_eq_self.mpr
    intro e he
    simp only [Bool.not_eq_true', Bool.eq_false_iff, ne_eq, List.contains_iff_mem]
    intro hm
    exact hdisjoint _ hm _ (List.mem_map_of_mem he) rfl
  rw [List.filter_append, ha, hb, List.nil_append]

/-- The keys with their instants, oldest first. -/
def byAge (m : UuidMap V) (instantOf : V → ℕ) : List (Uuid × ℕ) :=
  (m.entries.map fun e => (e.1, instantOf e.2)).insertionSort fun a b => a.2 ≤ b.2

theorem byAge_perm : (m.byAge instantOf).Perm (m.entries.map fun e => (e.1, instantOf e.2)) :=
  List.perm_insertionSort _ _

theorem pairwise_byAge : (m.byAge instantOf).Pairwise fun a b => a.2 ≤ b.2 := by
  have htotal : Std.Total fun a b : Uuid × ℕ => a.2 ≤ b.2 := ⟨fun a b => Nat.le_total a.2 b.2⟩
  have htrans : IsTrans (Uuid × ℕ) fun a b => a.2 ≤ b.2 := ⟨fun _ _ _ => Nat.le_trans⟩
  exact List.pairwise_insertionSort _ _

theorem nodup_byAge : ((m.byAge instantOf).map Prod.fst).Nodup := by
  refine ((byAge_perm.map Prod.fst).nodup_iff).mpr ?_
  rw [List.map_map]
  exact m.nodup

theorem evictOldestToCapacity_perm (instantOf : V → ℕ) (h : cap < m.entries.length) :
    ((m.evictOldestToCapacity cap instantOf).entries.map fun e => (e.1, instantOf e.2)).Perm
      ((m.byAge instantOf).drop (m.entries.length - cap)) := by
  unfold evictOldestToCapacity
  rw [if_neg (Nat.not_le.mpr h)]
  have hsplit := List.take_append_drop (m.entries.length - cap) (m.byAge instantOf)
  have hdrop := filter_keys_append (hsplit.symm ▸ nodup_byAge)
  rw [hsplit] at hdrop
  rw [← hdrop]
  refine List.Perm.trans ?_ (byAge_perm.symm.filter _)
  rw [List.filter_map]
  exact List.Perm.refl _

theorem length_evictOldestToCapacity :
    (m.evictOldestToCapacity cap instantOf).entries.length ≤ cap := by
  rcases Nat.lt_or_ge cap m.entries.length with h | h
  · have hl := (evictOldestToCapacity_perm instantOf h).length_eq
    rw [List.length_map, List.length_drop, byAge_perm.length_eq, List.length_map] at hl
    omega
  · rw [evictOldestToCapacity, if_pos h]
    exact h

theorem evictOldestToCapacity_oldest (hx : x ∈ m.entries)
    (hout : x ∉ (m.evictOldestToCapacity cap instantOf).entries) :
    cap < m.entries.length ∧ ∀ y ∈ (m.evictOldestToCapacity cap instantOf).entries,
      instantOf x.2 ≤ instantOf y.2 := by
  have hlt : cap < m.entries.length := by
    by_contra hge
    rw [evictOldestToCapacity, if_pos (Nat.not_lt.mp hge)] at hout
    exact hout hx
  refine ⟨hlt, ?_⟩
  intro y hy
  have hperm := evictOldestToCapacity_perm instantOf hlt
  have hydrop := hperm.mem_iff.mp (List.mem_map_of_mem hy)
  have hxage : (x.1, instantOf x.2) ∈ m.byAge instantOf :=
    byAge_perm.mem_iff.mpr (List.mem_map_of_mem hx)
  rw [← List.take_append_drop (m.entries.length - cap) (m.byAge instantOf)] at hxage
  have hsorted : (m.byAge instantOf).Pairwise fun a b => a.2 ≤ b.2 := pairwise_byAge
  rw [← List.take_append_drop (m.entries.length - cap) (m.byAge instantOf)] at hsorted
  rcases List.mem_append.mp hxage with htake | hdrop
  · exact (List.pairwise_append.mp hsorted).2.2 _ htake _ hydrop
  · obtain ⟨e, he, heq⟩ := List.mem_map.mp (hperm.mem_iff.mpr hdrop)
    have hkey : e.1 = x.1 := (Prod.mk.inj heq).1
    have hem := (m.evictOldestToCapacity_sublist cap instantOf).subset he
    obtain rfl := List.inj_on_of_nodup_map m.nodup hem hx hkey
    exact absurd he hout

end UuidMap

/-! ## Runs -/

/-- What happens to the sessions: a HELLO opens one under the identifier it drew, a COMMIT takes one
out of the table and later drives it, and the sweeper sweeps by its own copy of the lifetime. The map
may come to be iterated in another order. -/
inductive TableEvent where
  | hello (id : Uuid) (responder : Responder) (clock : TableClock)
  | take (id : Uuid) (clock : TableClock)
  /-- The call of `on_commit`, once the revocation snapshot that the handler awaits is there. -/
  | drive (i : ℕ) (now : ℕ)
  | sweep (ttl : ℕ) (now : ℕ)
  | reorder (sessions : SessionTable)

/-- A session that was handed to a COMMIT, by a reading of the clock. -/
structure Handed where
  id : Uuid
  entry : SessionEntry
  takenAt : ℕ

/-- A session that a COMMIT drove. -/
structure Driven where
  handed : Handed
  drivenAt : ℕ

/-- How old the session was when it was driven. -/
def Driven.age (d : Driven) : ℕ :=
  d.drivenAt - d.handed.entry.createdAt

/-- The table, the identifiers that HELLOs drew and the sessions that COMMITs were handed: those
that are still to be driven, and those that were. -/
structure TableWorld where
  table : SessionTable
  drawn : List Uuid
  handed : List Handed
  waiting : List Handed
  driven : List Driven

namespace TableWorld

variable (limits : SessionLimits) (w : TableWorld)

def next : TableEvent → TableWorld
  | .hello id responder clock =>
    { w with table := w.table.openSession limits clock id responder, drawn := id :: w.drawn }
  | .take id clock =>
    match w.table.takeSession limits clock id with
    | (.ok entry, left) =>
      { w with
        table := left
        handed := ⟨id, entry, clock.second⟩ :: w.handed
        waiting := ⟨id, entry, clock.second⟩ :: w.waiting }
    | (.error _, left) => { w with table := left }
  | .drive i now =>
    match w.waiting[i]? with
    | some handed =>
      { w with waiting := w.waiting.eraseIdx i, driven := ⟨handed, now⟩ :: w.driven }
    | none => w
  | .sweep ttl now => { w with table := w.table.sweepExpired { limits with sessionTtl := ttl } now }
  | .reorder sessions => { w with table := sessions }

/-- What an event takes for granted: a session is driven after it was taken. -/
def Enabled : TableEvent → Prop
  | .drive i now => ∀ handed, w.waiting[i]? = some handed → handed.takenAt ≤ now
  | .reorder sessions => sessions.entries.Perm w.table.entries
  | _ => True

/-- Any events in any order, on a table that was empty. -/
def runs : System TableWorld TableEvent where
  init w := w = ⟨.empty, [], [], [], []⟩
  step w event w' := w' = w.next limits event ∧ w.Enabled event

/-- What holds of the table in every run: its bound, that every identifier drawn was handed or is in
the table at most once, and that whatever was handed was driven or is still to be driven. -/
structure Kept : Prop where
  bounded : w.table.entries.length ≤ limits.maxSessions
  single : ∀ id, (w.handed.map Handed.id).count id + (w.table.entries.map Prod.fst).count id ≤
    w.drawn.count id
  timely : ∀ h ∈ w.handed, h.takenAt - h.entry.createdAt ≤ limits.sessionTtl
  conserved : (w.driven.map Driven.handed ++ w.waiting).Perm w.handed
  later : ∀ d ∈ w.driven, d.handed.takenAt ≤ d.drivenAt

variable {limits w} {w' : TableWorld}

theorem Kept.hello (h : w.Kept limits) (hm : 1 ≤ limits.maxSessions) (id : Uuid)
    (responder : Responder) (clock : TableClock) :
    (w.next limits (.hello id responder clock)).Kept limits := by
  let evicted := (w.table.sweepExpired limits clock.first).evictOldestToCapacity
    (limits.maxSessions - 1) SessionEntry.createdAt
  have hentries : (w.table.openSession limits clock id responder).entries =
      (id, ⟨responder, clock.second⟩) :: (evicted.remove id).entries := rfl
  have hevicted : evicted.entries.length ≤ limits.maxSessions - 1 :=
    UuidMap.length_evictOldestToCapacity
  have hkept : (evicted.remove id).entries.Sublist w.table.entries :=
    (UuidMap.retain_sublist _ _).trans
      ((UuidMap.evictOldestToCapacity_sublist _ _ _).trans (UuidMap.retain_sublist _ _))
  refine ⟨?_, ?_, h.timely, h.conserved, h.later⟩
  · have hl := (UuidMap.retain_sublist evicted fun e => e.1 != id).length_le
    simp only [next, hentries, List.length_cons]
    change (evicted.remove id).entries.length ≤ evicted.entries.length at hl
    omega
  · intro id'
    have hc := (hkept.map Prod.fst).count_le id'
    have hs := h.single id'
    simp only [next, hentries, List.map_cons, List.count_cons]
    omega

theorem Kept.shrink (h : w.Kept limits) {table : SessionTable}
    (ht : table.entries.Subperm w.table.entries) : { w with table := table }.Kept limits where
  bounded := ht.length_le.trans h.bounded
  single id := by
    obtain ⟨l, hp, hl⟩ := ht
    have hc := (hl.map Prod.fst).count_le id
    have he := (hp.map Prod.fst).count_eq id
    have hs := h.single id
    simp only
    omega
  timely := h.timely
  conserved := h.conserved
  later := h.later

theorem Kept.take (h : w.Kept limits) (id : Uuid) (clock : TableClock) :
    (w.next limits (.take id clock)).Kept limits := by
  rcases ht : w.table.takeSession limits clock id with ⟨taken, left⟩
  cases taken with
  | error err =>
    have hsub : (w.table.takeSession limits clock id).2.entries.Sublist w.table.entries :=
      SessionTable.takeSession_sublist
    rw [ht] at hsub
    simp only [next, ht]
    exact h.shrink hsub.subperm
  | ok entry =>
    have hsub : (w.table.sweepExpired limits clock.second).entries.Sublist w.table.entries :=
      w.table.sweepExpired_sublist clock.second
    have hperm := SessionTable.takeSession_ok ht
    simp only [next, ht]
    refine ⟨?_, ?_, ?_, ?_, h.later⟩
    · have hl := hperm.length_eq.symm.trans_le (hsub.length_le.trans h.bounded)
      rw [List.length_cons] at hl
      exact Nat.le_of_succ_le hl
    · intro id'
      have hc := (hsub.map Prod.fst).count_le id'
      have he := (hperm.map Prod.fst).count_eq id'
      have hs := h.single id'
      simp only [List.map_cons, List.count_cons] at he ⊢
      omega
    · rintro x (- | ⟨-, hx⟩)
      · exact SessionTable.timely_of_takeSession ht
      · exact h.timely x hx
    · exact List.perm_middle.trans (h.conserved.cons _)

theorem Kept.drive (h : w.Kept limits) {i now : ℕ} (hlater : w.Enabled (.drive i now)) :
    (w.next limits (.drive i now)).Kept limits := by
  simp only [next]
  split
  case h_2 => exact h
  case h_1 handed hi =>
    obtain ⟨hlt, rfl⟩ := List.getElem?_eq_some_iff.mp hi
    refine ⟨h.bounded, h.single, h.timely, ?_, ?_⟩
    · have hsplit := List.getElem_cons_eraseIdx_perm hlt
      refine List.Perm.trans ?_ ((hsplit.append_left _).trans h.conserved)
      exact List.perm_middle.symm
    · exact List.forall_mem_cons.mpr ⟨hlater _ hi, h.later⟩

theorem Kept.step (h : w.Kept limits) (hm : 1 ≤ limits.maxSessions) {event : TableEvent}
    (hs : (runs limits).step w event w') : w'.Kept limits := by
  obtain ⟨rfl, hr⟩ := hs
  cases event with
  | hello id responder clock => exact h.hello hm id responder clock
  | take id clock => exact h.take id clock
  | drive i now => exact h.drive hr
  | sweep ttl now => exact h.shrink (UuidMap.retain_sublist _ _).subperm
  | reorder sessions => exact h.shrink (List.Perm.subperm hr)

theorem kept_of_reachable (hm : 1 ≤ limits.maxSessions) (h : (runs limits).Reachable w) :
    w.Kept limits := by
  refine h.invariant ?_ ?_
  · rintro _ rfl
    exact ⟨Nat.zero_le _, fun _ => Nat.le_refl _, by rintro _ ⟨⟩, .refl _, by rintro _ ⟨⟩⟩
  · intro w event w' hw hs
    exact hw.step hm hs

end TableWorld

open TableWorld in
/-- The bound of the table; that a HELLO evicts a live session only from a full table, and only one
as old as every one that it keeps; that an identifier is handed to no more COMMITs than HELLOs drew
it, hence to one when none drew it twice; that nothing is handed to a COMMIT after its time; that
what is driven was handed before, and is driven once. -/
structure TableLaw (limits : SessionLimits) (w : TableWorld) : Prop where
  bounded : w.table.entries.length ≤ limits.maxSessions
  evicts : ∀ id responder clock, ∀ x ∈ w.table.entries, x.1 ≠ id →
    clock.first - x.2.createdAt ≤ limits.sessionTtl →
    x ∉ (w.next limits (.hello id responder clock)).table.entries →
    w.table.entries.length = limits.maxSessions ∧ ∀ y ∈ w.table.entries, y.1 ≠ id →
      y ∈ (w.next limits (.hello id responder clock)).table.entries → x.2.createdAt ≤ y.2.createdAt
  single : ∀ id, (w.handed.map Handed.id).count id ≤ w.drawn.count id
  once : w.drawn.Nodup → (w.handed.map Handed.id).Nodup
  timely : ∀ handed ∈ w.handed, handed.takenAt - handed.entry.createdAt ≤ limits.sessionTtl
  drives : (w.driven.map Driven.handed).Subperm w.handed
  later : ∀ d ∈ w.driven, d.handed.takenAt ≤ d.drivenAt

open TableWorld in
theorem TableWorld.Kept.evicts {limits : SessionLimits} {w : TableWorld} (h : w.Kept limits)
    (hm : 1 ≤ limits.maxSessions) {id : Uuid} {responder : Responder} {clock : TableClock}
    {x : Uuid × SessionEntry} (hx : x ∈ w.table.entries) (hne : x.1 ≠ id)
    (hlive : clock.first - x.2.createdAt ≤ limits.sessionTtl)
    (hout : x ∉ (w.next limits (.hello id responder clock)).table.entries) :
    w.table.entries.length = limits.maxSessions ∧ ∀ y ∈ w.table.entries, y.1 ≠ id →
      y ∈ (w.next limits (.hello id responder clock)).table.entries →
      x.2.createdAt ≤ y.2.createdAt := by
  let swept := w.table.sweepExpired limits clock.first
  have hswept : x ∈ swept.entries := List.mem_filter.mpr ⟨hx, decide_eq_true hlive⟩
  have hevicted : x ∉ (swept.evictOldestToCapacity (limits.maxSessions - 1)
      SessionEntry.createdAt).entries := by
    intro hmem
    refine hout (List.mem_cons_of_mem _ (List.mem_filter.mpr ⟨hmem, ?_⟩))
    exact bne_iff_ne.mpr hne
  obtain ⟨hlt, hold⟩ := UuidMap.evictOldestToCapacity_oldest hswept hevicted
  have hle : swept.entries.length ≤ w.table.entries.length :=
    (w.table.sweepExpired_sublist clock.first).length_le
  refine ⟨le_antisymm h.bounded (by omega), ?_⟩
  intro y _ hyne hkept
  rcases List.mem_cons.mp hkept with rfl | hkept
  · exact absurd rfl hyne
  · exact hold y (List.mem_filter.mp hkept).1

open TableWorld in
theorem sessionTable_law {limits : SessionLimits} {w : TableWorld} (hm : 1 ≤ limits.maxSessions)
    (h : (runs limits).Reachable w) : TableLaw limits w := by
  have hk := TableWorld.kept_of_reachable hm h
  have hcount : ∀ id, (w.handed.map Handed.id).count id ≤ w.drawn.count id := by
    intro id
    exact (Nat.le_add_right _ _).trans (hk.single id)
  refine ⟨hk.bounded, ?_, hcount, ?_, hk.timely, ?_, hk.later⟩
  · intro id responder clock x hx hne hlive hout
    exact hk.evicts hm hx hne hlive hout
  · intro hn
    refine List.nodup_iff_count_le_one.mpr ?_
    intro id
    exact (hcount id).trans (List.nodup_iff_count_le_one.mp hn id)
  · exact (List.sublist_append_left _ _).subperm.trans hk.conserved.subperm

/-! ## A table with room for one session -/

namespace Toy

def oneSession : SessionLimits := ⟨60, 1⟩

/-- The second HELLO evicts the session of the first, and a COMMIT takes its session at the end of
its time. -/
def flooded : TableWorld :=
  ((TableWorld.next oneSession ⟨.empty, [], [], [], []⟩ (.hello (uuid 0) .done ⟨0, 1⟩)).next
    oneSession (.hello (uuid 1) .done ⟨2, 3⟩)).next oneSession (.take (uuid 1) ⟨62, 63⟩)

theorem reachable_flooded : (TableWorld.runs oneSession).Reachable flooded := by
  have hinit : (TableWorld.runs oneSession).Reachable ⟨.empty, [], [], [], []⟩ := .init rfl
  have hfirst := hinit.step (e := .hello (uuid 0) .done ⟨0, 1⟩) ⟨rfl, by trivial⟩
  have hsecond := hfirst.step (e := .hello (uuid 1) .done ⟨2, 3⟩) ⟨rfl, by trivial⟩
  exact hsecond.step (e := .take (uuid 1) ⟨62, 63⟩) ⟨rfl, by trivial⟩

/-- The snapshot that the COMMIT awaits takes two seconds. -/
def drivenLate : TableWorld :=
  flooded.next oneSession (.drive 0 65)

theorem reachable_drivenLate : (TableWorld.runs oneSession).Reachable drivenLate := by
  refine reachable_flooded.step (e := .drive 0 65) ⟨rfl, ?_⟩
  rintro _ ⟨⟩
  decide

end Toy

open Toy in
theorem sessionTable_law_flooded :
    TableLaw oneSession drivenLate ∧ drivenLate.handed.map Handed.takenAt = [63] ∧
      drivenLate.driven.map Driven.drivenAt = [65] :=
  ⟨sessionTable_law (by decide) reachable_drivenLate, by decide, by decide⟩

open Toy in
/-- A session taken at the end of its time is driven after it. -/
theorem sessionTable_drivenLate : 1 ≤ oneSession.maxSessions ∧
    (TableWorld.runs oneSession).Reachable drivenLate ∧
    ∃ d ∈ drivenLate.driven, oneSession.sessionTtl < d.age :=
  ⟨by decide, reachable_drivenLate, List.exists_mem_cons_of _ (by decide)⟩

end Aitp
