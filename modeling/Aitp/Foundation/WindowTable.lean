import Mathlib.Data.List.AList
import Mathlib.Data.List.Dedup
import Mathlib.Data.List.Perm.Subperm
import Mathlib.Order.Basic
import Aitp.Foundation.SlidingWindow
import Aitp.Foundation.Transition

/-! # Sliding windows by key

A table of the instants at which each key was allowed, which drops idle keys only once it has become
large. Calls that come in the order of their instants are allowed exactly as if every instant were
kept, and whatever their order, a refusal is earned and the table is bounded by the keys in use.
-/

namespace SlidingWindow

open Transition

/-- The instants of each key, newest last. -/
abbrev Table (κ : Type) := AList fun _ : κ => List ℕ

variable {κ : Type} [DecidableEq κ] (width threshold limit : ℕ)

namespace Table

/-- The instants of a key, none if it is not in the table. -/
def entry (t : Table κ) (k : κ) : List ℕ :=
  (t.lookup k).getD []

/-- The last instant is less than a width ago. -/
def inUse (now : ℕ) (history : List ℕ) : Bool :=
  history.getLast?.any fun t => decide (now - t < width)

/-- Drop the keys that are not in use. -/
def sweep (now : ℕ) (t : Table κ) : Table κ where
  entries := t.entries.filter fun e => inUse width now e.2
  nodupKeys := t.nodupKeys.sublist List.filter_sublist

/-- A large table is swept. -/
def tidy (now : ℕ) (t : Table κ) : Table κ :=
  if threshold < t.entries.length then t.sweep width now else t

/-- Whether a key is allowed at an instant, and the table that this leaves. -/
def allow (now : ℕ) (k : κ) (t : Table κ) : Bool × Table κ :=
  let t := t.tidy width threshold now
  let recent := live width now (t.entry k)
  if limit ≤ recent.length then (false, t.insert k recent)
  else (true, t.insert k (recent ++ [now]))

end Table

/-! ## Entries -/

section

variable {width threshold limit} {t : Table κ} {k k' : κ} {now now' : ℕ} {history : List ℕ}

theorem Table.entry_insert (t : Table κ) (k : κ) (history : List ℕ) (k' : κ) :
    Table.entry (t.insert k history) k' = if k' = k then history else t.entry k' := by
  unfold Table.entry
  by_cases h : k' = k
  · subst h
    rw [if_pos rfl, AList.lookup_insert, Option.getD_some]
  · rw [if_neg h, AList.lookup_insert_ne h]

theorem Table.lookup_sweep (t : Table κ) (now : ℕ) (k : κ) :
    (t.sweep width now).lookup k = (t.lookup k).filter (Table.inUse width now) := by
  ext history
  have hmem : ∀ t : Table κ, t.lookup k = some history ↔ ⟨k, history⟩ ∈ t.entries :=
    fun _ => AList.mem_lookup_iff
  rw [Option.filter_eq_some_iff, hmem, hmem]
  exact List.mem_filter

theorem Table.entry_sweep (t : Table κ) (now : ℕ) (k : κ) : (t.sweep width now).entry k =
    if Table.inUse width now (t.entry k) = true then t.entry k else [] := by
  unfold Table.entry
  rw [Table.lookup_sweep]
  cases ht : t.lookup k with
  | none => rfl
  | some history =>
    rw [Option.filter_some, Option.getD_some]
    split_ifs
    · rfl
    · rfl

theorem Table.entry_tidy (threshold : ℕ) (t : Table κ) (now : ℕ) (k : κ) :
    (t.tidy width threshold now).entry k = t.entry k ∨
      (t.tidy width threshold now).entry k = [] ∧ Table.inUse width now (t.entry k) = false := by
  unfold Table.tidy
  split_ifs
  · rw [Table.entry_sweep]
    split_ifs with h
    · exact .inl rfl
    · exact .inr ⟨rfl, Bool.eq_false_iff.mpr h⟩
  · exact .inl rfl

theorem live_eq_nil_of_not_inUse (h : Table.inUse width now history = false)
    (hs : history.Pairwise (· ≤ ·)) : live width now history = [] := by
  rcases List.eq_nil_or_concat history with rfl | ⟨before, last, rfl⟩
  · rfl
  · rw [List.concat_eq_append] at h hs ⊢
    rw [Table.inUse, List.getLast?_append_of_ne_nil _ (List.cons_ne_nil _ _)] at h
    apply List.filter_eq_nil_iff.mpr
    intro t ht
    have hle : t ≤ last := by
      rcases List.mem_append.mp ht with ht | ht
      · exact (List.pairwise_append.mp hs).2.2 t ht last (List.mem_singleton_self _)
      · rw [List.mem_singleton.mp ht]
    have hlast : ¬now - last < width := of_decide_eq_false h
    rw [decide_eq_true_eq]
    omega

theorem Table.live_tidy (hs : (t.entry k).Pairwise (· ≤ ·)) (h : now ≤ now') :
    live width now' ((t.tidy width threshold now).entry k) = live width now' (t.entry k) := by
  rcases Table.entry_tidy threshold t now k with he | ⟨he, hidle⟩
  · rw [he]
  · have hnil : live width now (t.entry k) = [] := live_eq_nil_of_not_inUse hidle hs
    rw [he, ← @live_live width now' now (t.entry k) h, hnil]

end

/-! ## Runs -/

/-- A call: a key, the instant that is read for it, and whether it was allowed. -/
structure Call (κ : Type) where
  key : κ
  now : ℕ
  allowed : Bool

/-- The table, the instant of the last call, and the calls so far, newest last. -/
structure Tracked (κ : Type) where
  table : Table κ
  clock : ℕ
  log : List (Call κ)

/-- The instants at which a key was allowed. -/
def charged (k : κ) (log : List (Call κ)) : List ℕ :=
  (log.filter fun c => c.allowed && decide (c.key = k)).map Call.now

/-- The keys that were allowed less than a width ago. -/
def active (now : ℕ) (log : List (Call κ)) : List κ :=
  (log.map Call.key).dedup.filter fun k => !(live width now (charged k log)).isEmpty

/-- What a call leaves. -/
def Tracked.call (w : Tracked κ) (k : κ) (now : ℕ) : Tracked κ :=
  let r := w.table.allow width threshold limit now k
  ⟨r.2, now, w.log ++ [⟨k, now, r.1⟩]⟩

/-- Any calls. -/
def tracking : System (Tracked κ) (κ × ℕ) where
  init w := w.table = ∅ ∧ w.log = []
  step w e w' := w' = w.call width threshold limit e.1 e.2

/-- Calls that come in the order of their instants. -/
def InOrder (w : Tracked κ) (e : κ × ℕ) : Prop :=
  w.clock ≤ e.2

section

variable {width threshold limit} {w : Tracked κ} {k k' : κ} {now now' : ℕ}

theorem charged_append (log : List (Call κ)) (c : Call κ) : charged k (log ++ [c]) =
    charged k log ++ if c.allowed = true ∧ c.key = k then [c.now] else [] := by
  unfold charged
  rw [List.filter_append, List.map_append]
  congr 1
  by_cases h : c.allowed = true ∧ c.key = k
  · rw [if_pos h, List.filter_cons_of_pos (by simp [h])]
    rfl
  · rw [if_neg h, List.filter_cons_of_neg (by simpa using h)]
    rfl

theorem exists_call (w : Tracked κ) (k : κ) (now : ℕ) : ∃ allowed : Bool,
    let recent := live width now ((w.table.tidy width threshold now).entry k)
    (allowed = true ↔ recent.length < limit) ∧ w.call width threshold limit k now =
      ⟨(w.table.tidy width threshold now).insert k (recent ++ if allowed then [now] else []), now,
        w.log ++ [⟨k, now, allowed⟩]⟩ := by
  unfold Tracked.call Table.allow
  by_cases h : limit ≤ (live width now ((w.table.tidy width threshold now).entry k)).length
  · refine ⟨false, ?_, ?_⟩
    · simp [h]
    · simp only [if_pos h, Bool.false_eq_true, if_false, List.append_nil]
  · refine ⟨true, ?_, ?_⟩
    · simp [Nat.lt_of_not_le h]
    · simp only [if_neg h, if_true]

theorem entry_sublist (h : (tracking width threshold limit).Reachable w) (k : κ) :
    (w.table.entry k).Sublist (charged k w.log) := by
  induction h generalizing k with
  | init h =>
    rw [h.1]
    exact List.nil_sublist _
  | @step w e w' _ h ih =>
    obtain ⟨key, now⟩ := e
    obtain rfl := h
    have htidy : ((w.table.tidy width threshold now).entry k).Sublist (charged k w.log) := by
      rcases Table.entry_tidy threshold w.table now k with he | ⟨he, -⟩
      · exact he ▸ ih k
      · exact he ▸ List.nil_sublist _
    obtain ⟨allowed, -, hc⟩ := @exists_call κ _ width threshold limit w key now
    dsimp only at hc ⊢
    rw [hc, charged_append, Table.entry_insert]
    by_cases hk : k = key
    · subst hk
      rw [if_pos rfl]
      refine (List.filter_sublist.trans htidy).append ?_
      cases allowed <;> simp
    · rw [if_neg hk]
      exact htidy.trans (List.sublist_append_left _ _)

/-! ## Size -/

theorem length_insert_le (t : Table κ) (k : κ) (history : List ℕ) :
    (t.insert k history).entries.length ≤ t.entries.length + 1 := by
  rw [AList.entries_insert, List.length_cons]
  exact Nat.succ_le_succ (List.kerase_sublist _ _).length_le

theorem mem_active {log : List (Call κ)} :
    k ∈ active width now log ↔ live width now (charged k log) ≠ [] := by
  unfold active
  rw [List.mem_filter, List.mem_dedup]
  constructor
  · rintro ⟨-, h⟩
    simpa using h
  · intro h
    refine ⟨?_, by simpa using h⟩
    obtain ⟨t, ht⟩ := List.exists_mem_of_ne_nil _ h
    obtain ⟨c, hc, -⟩ := List.mem_map.mp (mem_live.mp ht).1
    obtain ⟨hlog, hcond⟩ := List.mem_filter.mp hc
    rw [Bool.and_eq_true, decide_eq_true_eq] at hcond
    exact List.mem_map.mpr ⟨c, hlog, hcond.2⟩

theorem length_entries_le (h : (tracking width threshold limit).Reachable w) :
    w.table.entries.length ≤ max threshold (active width w.clock w.log).length + 1 := by
  cases h with
  | init h =>
    rw [h.1]
    exact Nat.zero_le _
  | @step w e w' hw h =>
    obtain ⟨key, now⟩ := e
    obtain rfl := h
    obtain ⟨allowed, -, hc⟩ := @exists_call κ _ width threshold limit w key now
    dsimp only at hc ⊢
    rw [hc]
    refine (length_insert_le _ _ _).trans (Nat.succ_le_succ ?_)
    rw [Table.tidy]
    by_cases hlarge : threshold < w.table.entries.length
    · rw [if_pos hlarge]
      refine le_trans ?_ (le_max_right _ _)
      have hsub : (w.table.sweep width now).keys ⊆
          active width now (w.log ++ [⟨key, now, allowed⟩]) := by
        intro k hk
        obtain ⟨history, hh⟩ := List.mem_keys.mp hk
        obtain ⟨hheld, huse⟩ := List.mem_filter.mp hh
        have hentry : w.table.entry k = history := by
          rw [Table.entry, AList.mem_lookup_iff.mpr hheld, Option.getD_some]
        obtain ⟨last, hlast, hrecent⟩ : ∃ last, history.getLast? = some last ∧
            decide (now - last < width) = true := by
          rw [Table.inUse] at huse
          cases hg : history.getLast? with
          | none => simp [hg] at huse
          | some last => exact ⟨last, rfl, by simpa [hg] using huse⟩
        have hcharged : last ∈ charged k w.log := by
          apply (entry_sublist hw k).mem
          rw [hentry]
          exact List.mem_of_getLast? hlast
        rw [mem_active]
        apply List.ne_nil_of_mem
        rw [mem_live, charged_append]
        exact ⟨List.mem_append_left _ hcharged, of_decide_eq_true hrecent⟩
      have hnodup : (w.table.sweep width now).keys.Nodup := AList.keys_nodup _
      have hle := (hnodup.subperm hsub).length_le
      rwa [AList.keys, List.keys, List.length_map] at hle
    · rw [if_neg hlarge]
      exact le_trans (Nat.le_of_not_lt hlarge) (le_max_left _ _)

/-! ## Calls in order -/

/-- The table is as good as the log, for all instants to come. -/
structure Tracked.Exact (width : ℕ) (w : Tracked κ) : Prop where
  past : ∀ k, ∀ t ∈ charged k w.log, t ≤ w.clock
  sorted : ∀ k, (w.table.entry k).Pairwise (· ≤ ·)
  live : ∀ k now, w.clock ≤ now →
    live width now (w.table.entry k) = live width now (charged k w.log)

theorem Tracked.Exact.call (hw : (tracking width threshold limit).Reachable w)
    (h : w.Exact width) (hc : w.clock ≤ now) :
    (w.call width threshold limit k now).Exact width := by
  obtain ⟨allowed, -, hcall⟩ := @exists_call κ _ width threshold limit w k now
  have htidy : ∀ k', ((w.table.tidy width threshold now).entry k').Sublist (w.table.entry k') := by
    intro k'
    rcases Table.entry_tidy threshold w.table now k' with he | ⟨he, -⟩
    · rw [he]
    · exact he ▸ List.nil_sublist _
  have hlast : ∀ t ∈ if allowed = true then [now] else [], t = now := by
    intro t ht
    split_ifs at ht
    · exact List.mem_singleton.mp ht
    · cases ht
  rw [hcall]
  constructor
  · intro k' t ht
    rw [charged_append, List.mem_append] at ht
    rcases ht with ht | ht
    · exact (h.past k' t ht).trans hc
    · split_ifs at ht
      · exact (List.mem_singleton.mp ht).le
      · cases ht
  · intro k'
    rw [Table.entry_insert]
    by_cases hk : k' = k
    · rw [if_pos hk, List.pairwise_append]
      refine ⟨(h.sorted k).sublist (List.filter_sublist.trans (htidy k)), ?_, ?_⟩
      · cases allowed <;> simp
      · intro t ht t' ht'
        rw [hlast t' ht']
        have hentry := (htidy k).mem (mem_live.mp ht).1
        exact (h.past k t ((entry_sublist hw k).mem hentry)).trans hc
    · rw [if_neg hk]
      exact (h.sorted k').sublist (htidy k')
  · intro k' now' hnow
    dsimp only at hnow ⊢
    have hheld : SlidingWindow.live width now'
        ((w.table.tidy width threshold now).entry k') =
          SlidingWindow.live width now' (charged k' w.log) := by
      rw [Table.live_tidy (h.sorted k') hnow, h.live k' now' (hc.trans hnow)]
    rw [Table.entry_insert, charged_append, live_append, ← hheld]
    by_cases hk : k' = k
    · subst hk
      rw [if_pos rfl, live_append, live_live hnow]
      congr 2
      by_cases ha : allowed = true
      · rw [if_pos ha, if_pos ⟨ha, rfl⟩]
      · rw [if_neg ha, if_neg fun hboth => ha hboth.1]
    · rw [if_neg hk, if_neg fun hboth => hk hboth.2.symm]
      exact (List.append_nil _).symm

theorem exact_of_reachable
    (h : ((tracking width threshold limit).restrict InOrder).Reachable w) : w.Exact width := by
  induction h with
  | init h =>
    obtain ⟨ht, hl⟩ := h
    constructor
    · intro k t htm
      simp [hl, charged] at htm
    · intro k
      rw [ht]
      exact List.Pairwise.nil
    · intro k now _
      rw [ht, hl]
      rfl
  | @step w e w' hw h ih =>
    obtain ⟨hc, rfl⟩ := h
    exact ih.call hw.of_restrict hc

/-- In order, a call is allowed exactly when its key was not allowed its number of times within a
width of it. -/
theorem allowed_iff (h : ((tracking width threshold limit).restrict InOrder).Reachable w)
    (hc : w.clock ≤ now) : (w.table.allow width threshold limit now k).1 = true ↔
      (live width now (charged k w.log)).length < limit := by
  have hw := exact_of_reachable h
  have htidy : live width now ((w.table.tidy width threshold now).entry k) =
      live width now (w.table.entry k) := Table.live_tidy (hw.sorted k) le_rfl
  rw [← hw.live k now hc, ← htidy, Table.allow]
  split_ifs with hfull
  · simp [hfull]
  · simp [Nat.lt_of_not_le hfull]

theorem length_charged_le (h : ((tracking width threshold limit).restrict InOrder).Reachable w)
    {I : ℕ → Prop} [DecidablePred I] (hI : Window width I) (k : κ) :
    ((charged k w.log).filter fun t => decide (I t)).length ≤ limit := by
  induction h with
  | init h => simp [h.2, charged]
  | @step w e w' hw h ih =>
    obtain ⟨hc, rfl⟩ := h
    obtain ⟨key, now⟩ := e
    obtain ⟨allowed, ha, hcall⟩ := @exists_call κ _ width threshold limit w key now
    have hexact := exact_of_reachable hw
    dsimp only at hcall ⊢
    rw [hcall, charged_append]
    split_ifs with hk
    · obtain ⟨hallowed, rfl⟩ := hk
      have hroom := ha.mp hallowed
      rw [Table.live_tidy (hexact.sorted _) le_rfl, hexact.live _ _ hc] at hroom
      exact length_filter_append_le hI hroom ih
    · rw [List.append_nil]
      exact ih

end

end SlidingWindow
