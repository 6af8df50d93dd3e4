import Mathlib.Data.List.AList
import Mathlib.Data.List.Dedup
import Mathlib.Data.List.TakeWhile
import Mathlib.Data.Nat.Notation
import Mathlib.Tactic.SplitIfs

/-! # Maps with an eviction queue

A map of bounded size beside the queue in which its keys were inserted. An item of the
queue is stale once its key was inserted again, and is skipped when room is made from
the front. As long as no key is given a stamp that it was given before, what is evicted
is what was inserted longest ago.
-/

namespace Eviction

variable {κ β τ : Type} [DecidableEq κ] [DecidableEq τ]

/-- Keys with what they hold. -/
abbrev Pairs (κ β : Type) := List (Σ _ : κ, β)

/-- A map, and the stamps that its keys were given, oldest first. -/
structure Queued (κ β τ : Type) [DecidableEq κ] where
  map : AList fun _ : κ => β
  order : List (κ × τ)

namespace Queued

def empty : Queued κ β τ := ⟨∅, []⟩

variable (stamp : β → τ)

/-- The key of an item still holds what it was given with the stamp. -/
def isCurrent (map : AList fun _ : κ => β) (item : κ × τ) : Bool :=
  (map.lookup item.1).any fun v => decide (stamp v = item.2)

/-- Items are taken off the front until the map is within its capacity. -/
def evictLoop (cap : ℕ) : List (κ × τ) → (AList fun _ : κ => β) → Queued κ β τ
  | [], map => ⟨map, []⟩
  | item :: order, map =>
    if map.entries.length ≤ cap then ⟨map, item :: order⟩
    else evictLoop cap order (if isCurrent stamp map item then map.erase item.1 else map)

/-- Drop the stale items of a queue that has become too long. -/
def compact (bound : ℕ) (s : Queued κ β τ) : Queued κ β τ :=
  if bound < s.order.length then { s with order := s.order.filter (isCurrent stamp s.map) } else s

/-- Insert under a key, and make room. -/
def insert (cap bound : ℕ) (k : κ) (v : β) (s : Queued κ β τ) : Queued κ β τ :=
  compact stamp bound (evictLoop stamp cap (s.order ++ [(k, stamp v)]) (s.map.insert k v))

/-- Keep what satisfies a test. -/
def retain (keep : β → Bool) (s : Queued κ β τ) : Queued κ β τ where
  map := ⟨s.map.entries.filter fun e => keep e.2, s.map.nodupKeys.sublist List.filter_sublist⟩
  order := s.order

end Queued

/-! ## The order of the queue -/

/-- The keys of some pairs with their stamps, the last pair first. -/
def stamps (stamp : β → τ) (l : Pairs κ β) : List (κ × τ) :=
  (l.map fun e => (e.1, stamp e.2)).reverse

theorem filter_ne_eq_kerase {k : κ} {l : Pairs κ β} (h : l.NodupKeys) :
    l.filter (fun e => decide (e.1 ≠ k)) = l.kerase k := by
  induction l with
  | nil => rfl
  | cons e l ih =>
    obtain ⟨hne, hl⟩ := List.nodupKeys_cons.mp h
    by_cases hk : k = e.1
    · rw [List.kerase_cons_eq hk, List.filter_cons_of_neg (by simp [hk])]
      apply List.filter_eq_self.mpr
      intro x hx
      apply decide_eq_true
      intro hxk
      exact hne (hk ▸ hxk ▸ List.mem_map_of_mem hx)
    · rw [List.kerase_cons_ne hk, List.filter_cons_of_pos (by simpa using Ne.symm hk), ih hl]

omit [DecidableEq κ] [DecidableEq τ] in
theorem filter_stamps (stamp : β → τ) (keep : (Σ _ : κ, β) → Bool) (keep' : κ × τ → Bool)
    {l : Pairs κ β} (h : ∀ e ∈ l, keep' (e.1, stamp e.2) = keep e) :
    (stamps stamp l).filter keep' = stamps stamp (l.filter keep) := by
  unfold stamps
  rw [List.filter_reverse, List.filter_map]
  congr 2
  apply List.filter_congr
  intro e he
  exact h e he

namespace Queued

variable {stamp : β → τ} {s : Queued κ β τ} {k : κ} {v : β} {cap bound : ℕ}

/-- The current items of the queue are the entries of the map, the one inserted last at the end. -/
def Ordered (stamp : β → τ) (s : Queued κ β τ) : Prop :=
  s.order.filter (isCurrent stamp s.map) = stamps stamp s.map.entries

theorem isCurrent_iff {map : AList fun _ : κ => β} {item : κ × τ} :
    isCurrent stamp map item = true ↔ ∃ v, map.lookup item.1 = some v ∧ stamp v = item.2 := by
  simp [isCurrent, Option.any_eq_true]

theorem ordered_push (h : s.Ordered stamp) (hfresh : (k, stamp v) ∉ s.order) :
    Ordered stamp ⟨s.map.insert k v, s.order ++ [(k, stamp v)]⟩ := by
  have hold : s.order.filter (isCurrent stamp (s.map.insert k v)) =
      (s.order.filter (isCurrent stamp s.map)).filter fun item => decide (item.1 ≠ k) := by
    rw [List.filter_filter]
    apply List.filter_congr
    rintro ⟨k', t⟩ hmem
    by_cases hk : k' = k
    · subst hk
      have hne : stamp v ≠ t := by
        rintro rfl
        exact hfresh hmem
      simp [isCurrent, hne]
    · simp [isCurrent, AList.lookup_insert_ne hk, hk]
  have hlast : isCurrent stamp (s.map.insert k v) (k, stamp v) = true :=
    isCurrent_iff.mpr ⟨v, AList.lookup_insert s.map, rfl⟩
  unfold Ordered
  rw [List.filter_append, List.filter_singleton, hlast, hold, h,
    filter_stamps stamp (fun e => decide (e.1 ≠ k)) _ fun _ _ => rfl,
    filter_ne_eq_kerase s.map.nodupKeys, AList.entries_insert]
  simp [stamps]

theorem ordered_skip {map : AList fun _ : κ => β} {item : κ × τ} {order : List (κ × τ)}
    (h : Ordered stamp ⟨map, item :: order⟩) (hc : isCurrent stamp map item = false) :
    Ordered stamp ⟨map, order⟩ := by
  unfold Ordered at h
  rwa [List.filter_cons_of_neg (by simp [hc])] at h

theorem ordered_pop {map : AList fun _ : κ => β} {item : κ × τ} {order : List (κ × τ)}
    (h : Ordered stamp ⟨map, item :: order⟩) (hc : isCurrent stamp map item = true) :
    Ordered stamp ⟨map.erase item.1, order⟩ ∧
      (map.erase item.1).entries = map.entries.take (map.entries.length - 1) := by
  have hcons : item :: order.filter (isCurrent stamp map) = stamps stamp map.entries := by
    unfold Ordered at h
    rwa [List.filter_cons_of_pos hc] at h
  obtain ⟨newer, e, he⟩ : ∃ newer e, map.entries = newer ++ [e] := by
    rcases List.eq_nil_or_concat map.entries with hnil | ⟨newer, e, he⟩
    · rw [hnil] at hcons
      simp [stamps] at hcons
    · exact ⟨newer, e, by simpa using he⟩
  have hstamps : stamps stamp map.entries = (e.1, stamp e.2) :: stamps stamp newer := by
    simp [stamps, he]
  obtain ⟨rfl, hrest⟩ := List.cons.inj (hcons.trans hstamps)
  have hkey : e.1 ∉ newer.keys := by
    have hn : (newer ++ [e]).keys.Nodup := he ▸ map.nodupKeys
    rw [List.keys, List.map_append, List.nodup_append] at hn
    intro hmem
    exact hn.2.2 _ hmem e.1 (List.mem_singleton_self _) rfl
  have herase : (map.erase e.1).entries = newer := by
    change map.entries.kerase e.1 = newer
    rw [he, List.kerase_append_right hkey, List.kerase_cons_eq rfl, List.append_nil]
  constructor
  · unfold Ordered
    rw [herase, ← hrest]
    apply List.filter_congr
    rintro ⟨k, t⟩ hmem
    by_cases hk : k = e.1
    · have hstale : isCurrent stamp map (k, t) = false := by
        apply Bool.eq_false_iff.mpr
        intro hcur
        have hin : (k, t) ∈ stamps stamp newer := hrest ▸ List.mem_filter.mpr ⟨hmem, hcur⟩
        obtain ⟨x, hx, hxe⟩ := List.mem_map.mp (List.mem_reverse.mp hin)
        have hxk : x.1 = e.1 := (Prod.mk.inj hxe).1.trans hk
        exact hkey (hxk ▸ List.mem_map_of_mem hx)
      rw [hstale, hk, isCurrent, AList.lookup_erase]
      rfl
    · simp [isCurrent, AList.lookup_erase_ne hk]
  · rw [herase, he, List.length_append, List.length_singleton, Nat.add_sub_cancel,
      List.take_left']
    rfl

theorem evictLoop_spec (cap : ℕ) {order : List (κ × τ)} {map : AList fun _ : κ => β}
    (h : Ordered stamp ⟨map, order⟩) :
    (evictLoop stamp cap order map).map.entries = map.entries.take cap ∧
      (evictLoop stamp cap order map).Ordered stamp := by
  induction order generalizing map with
  | nil =>
    have hnil : map.entries = [] := by
      have hs : stamps stamp map.entries = [] := h.symm
      simpa [stamps] using hs
    exact ⟨by simp [evictLoop, hnil], h⟩
  | cons item order ih =>
    unfold evictLoop
    split_ifs with hle hc
    · exact ⟨(List.take_of_length_le hle).symm, h⟩
    · obtain ⟨hrest, hentries⟩ := ordered_pop h hc
      obtain ⟨he, ho⟩ := ih hrest
      refine ⟨?_, ho⟩
      rw [he, hentries, List.take_take, Nat.min_eq_left (by omega)]
    · exact ih (ordered_skip h (Bool.eq_false_iff.mpr hc))

theorem ordered_compact (h : s.Ordered stamp) : (s.compact stamp bound).Ordered stamp := by
  unfold compact
  split_ifs
  · unfold Ordered
    rw [List.filter_filter]
    simp only [Bool.and_self]
    exact h
  · exact h

theorem length_compact (h : s.Ordered stamp) (hb : s.map.entries.length ≤ bound) :
    (s.compact stamp bound).order.length ≤ bound := by
  unfold compact
  split_ifs with hlt
  · change (s.order.filter (isCurrent stamp s.map)).length ≤ bound
    rw [h]
    simpa [stamps] using hb
  · exact Nat.not_lt.mp hlt

theorem compact_sublist : (s.compact stamp bound).order.Sublist s.order := by
  unfold compact
  split_ifs
  · exact List.filter_sublist
  · exact List.Sublist.refl _

theorem map_compact : (s.compact stamp bound).map = s.map := by
  unfold compact
  split_ifs <;> rfl

theorem insert_spec (h : s.Ordered stamp) (hfresh : (k, stamp v) ∉ s.order) (hb : cap ≤ bound) :
    (s.insert stamp cap bound k v).Ordered stamp ∧
      (s.insert stamp cap bound k v).map.entries = (⟨k, v⟩ :: s.map.entries.kerase k).take cap ∧
      (s.insert stamp cap bound k v).order.length ≤ bound := by
  obtain ⟨he, ho⟩ := evictLoop_spec cap (ordered_push h hfresh)
  refine ⟨ordered_compact ho, ?_, ?_⟩
  · rw [insert, map_compact, he, AList.entries_insert]
  · apply length_compact ho
    rw [he, List.length_take]
    omega

omit [DecidableEq τ] in
theorem lookup_retain (s : Queued κ β τ) (keep : β → Bool) (k : κ) :
    (s.retain keep).map.lookup k = (s.map.lookup k).filter keep := by
  apply Option.ext
  intro v
  rw [← Option.mem_def, ← Option.mem_def, AList.mem_lookup_iff, Option.mem_filter_iff,
    AList.mem_lookup_iff]
  exact List.mem_filter

theorem ordered_retain (h : s.Ordered stamp) (keep : β → Bool) :
    (s.retain keep).Ordered stamp := by
  have hfilter : s.order.filter (isCurrent stamp (s.retain keep).map) =
      (s.order.filter (isCurrent stamp s.map)).filter fun item =>
        (s.map.lookup item.1).any keep := by
    rw [List.filter_filter]
    apply List.filter_congr
    rintro ⟨k, t⟩ -
    rw [isCurrent, isCurrent, lookup_retain]
    cases s.map.lookup k with
    | none => rfl
    | some v => by_cases hv : keep v <;> simp [Option.filter, hv]
  change s.order.filter (isCurrent stamp (s.retain keep).map) = _
  rw [hfilter, h]
  apply filter_stamps
  intro e he
  have hl : s.map.lookup e.1 = some e.2 := List.mem_dlookup s.map.nodupKeys he
  rw [hl, Option.any_some]

/-! ## Histories -/

/-- What was inserted since a key was, in a history whose newest insertion comes first. -/
def since (k : κ) (history : Pairs κ β) : Pairs κ β :=
  history.takeWhile fun e => decide (e.1 ≠ k)

omit [DecidableEq τ] in
theorem since_cons_of_ne {k' : κ} {history : Pairs κ β} (h : k' ≠ k) :
    since k' (⟨k, v⟩ :: history) = ⟨k, v⟩ :: since k' history :=
  List.takeWhile_cons_of_pos (decide_eq_true (Ne.symm h))

omit [DecidableEq τ] in
theorem length_le_since {newer l : Pairs κ β} (hn : newer.NodupKeys) (hs : newer.keys ⊆ l.keys) :
    newer.length ≤ l.keys.dedup.length := by
  have hsub : newer.keys ⊆ l.keys.dedup := fun k hk => List.mem_dedup.mpr (hs hk)
  have hle := (List.subperm_of_subset hn hsub).length_le
  rwa [List.keys, List.length_map] at hle

omit [DecidableEq τ] in
/-- A pair with few enough pairs before it stays when another is put first. -/
theorem take_kerase_eq {k' : κ} {v' : β} {l newer older since : Pairs κ β} (hn : l.NodupKeys)
    (hl : l = newer ++ ⟨k', v'⟩ :: older) (hk : k' ≠ k) (hs : newer.keys ⊆ since.keys)
    (hc : (⟨k, v⟩ :: since : Pairs κ β).keys.dedup.length < cap) :
    ∃ newer older, (⟨k, v⟩ :: l.kerase k : Pairs κ β).take cap = newer ++ ⟨k', v'⟩ :: older ∧
      newer.keys ⊆ (⟨k, v⟩ :: since : Pairs κ β).keys := by
  have hkerase : l.kerase k = newer.filter (fun e => decide (e.1 ≠ k)) ++
      ⟨k', v'⟩ :: older.filter (fun e => decide (e.1 ≠ k)) := by
    rw [← filter_ne_eq_kerase hn, hl, List.filter_append,
      List.filter_cons_of_pos (by simpa using hk)]
  let front : Pairs κ β := ⟨k, v⟩ :: newer.filter fun e => decide (e.1 ≠ k)
  have hfront : front.keys ⊆ (⟨k, v⟩ :: since : Pairs κ β).keys := by
    intro x hx
    rcases List.mem_cons.mp hx with rfl | hx
    · exact List.mem_cons_self
    · obtain ⟨e, hm, rfl⟩ := List.mem_map.mp hx
      exact List.mem_cons_of_mem _ (hs (List.mem_map_of_mem (List.mem_of_mem_filter hm)))
  have hnodup : front.NodupKeys := by
    have hcons : (⟨k, v⟩ :: l.kerase k : Pairs κ β).NodupKeys :=
      List.nodupKeys_cons.mpr ⟨List.notMem_keys_kerase k hn, hn.kerase k⟩
    rw [hkerase] at hcons
    exact hcons.sublist (List.Sublist.cons_cons _ (List.sublist_append_left _ _))
  have hlen := (length_le_since hnodup hfront).trans_lt hc
  refine ⟨front, (older.filter fun e => decide (e.1 ≠ k)).take (cap - front.length - 1), ?_,
    hfront⟩
  rw [hkerase]
  change (front ++ _).take cap = _
  rw [List.take_append, List.take_of_length_le hlen.le]
  congr 1
  have hpos : cap - front.length = cap - front.length - 1 + 1 := by omega
  rw [hpos, List.take_succ_cons, Nat.add_sub_cancel]

/-- The map stays within its capacity, and a key holds nothing but what it was given last. Each key
of the map has an item in the queue, and each item was given to its key. -/
structure Sound (stamp : β → τ) (cap : ℕ) (history : Pairs κ β) (s : Queued κ β τ) : Prop where
  backed : ∀ k v, s.map.lookup k = some v → (k, stamp v) ∈ s.order
  given : ∀ item ∈ s.order, ∃ e ∈ history, item = (e.1, stamp e.2)
  bounded : s.map.entries.length ≤ cap
  newest : ∀ k v, s.map.lookup k = some v → history.dlookup k = some v

/-- Whatever stamps are given, the queue is not used up before the map is within its capacity. -/
theorem evictLoop_backed (cap : ℕ) {order : List (κ × τ)} {map : AList fun _ : κ => β}
    (h : ∀ k v, map.lookup k = some v → (k, stamp v) ∈ order) :
    (∀ k v, (evictLoop stamp cap order map).map.lookup k = some v →
        (k, stamp v) ∈ (evictLoop stamp cap order map).order) ∧
      (evictLoop stamp cap order map).map.entries.length ≤ cap ∧
      (evictLoop stamp cap order map).map.entries ⊆ map.entries ∧
      (evictLoop stamp cap order map).order <:+ order := by
  induction order generalizing map with
  | nil =>
    have hnil : map.entries = [] := by
      apply List.eq_nil_iff_forall_not_mem.mpr
      rintro ⟨k, v⟩ hm
      exact List.not_mem_nil (h k v (AList.mem_lookup_iff.mpr hm))
    refine ⟨h, ?_, List.Subset.refl _, List.suffix_rfl⟩
    simp [evictLoop, hnil]
  | cons item order ih =>
    unfold evictLoop
    split_ifs with hle hc
    · exact ⟨h, hle, List.Subset.refl _, List.suffix_rfl⟩
    · have hrest : ∀ k v, (map.erase item.1).lookup k = some v → (k, stamp v) ∈ order := by
        intro k v hl
        have hne : k ≠ item.1 := by
          rintro rfl
          rw [AList.lookup_erase] at hl
          cases hl
        rw [AList.lookup_erase_ne hne] at hl
        rcases List.mem_cons.mp (h k v hl) with rfl | hm
        · exact absurd rfl hne
        · exact hm
      obtain ⟨hb, hlen, hsub, hs⟩ := ih hrest
      exact ⟨hb, hlen, List.Subset.trans hsub (List.kerase_sublist _ _).subset,
        hs.trans (List.suffix_cons item order)⟩
    · have hrest : ∀ k v, map.lookup k = some v → (k, stamp v) ∈ order := by
        intro k v hl
        rcases List.mem_cons.mp (h k v hl) with rfl | hm
        · exact absurd (isCurrent_iff.mpr ⟨v, hl, rfl⟩) hc
        · exact hm
      obtain ⟨hb, hlen, hsub, hs⟩ := ih hrest
      exact ⟨hb, hlen, hsub, hs.trans (List.suffix_cons item order)⟩

theorem lookup_evictLoop_last (hc : 0 < cap) {order : List (κ × τ)} {map : AList fun _ : κ => β}
    (hb : ∀ k' v', map.lookup k' = some v' → (k', stamp v') ∈ order ++ [(k, stamp v)])
    (hk : map.lookup k = some v) (hn : (k, stamp v) ∉ order) :
    (evictLoop stamp cap (order ++ [(k, stamp v)]) map).map.lookup k = some v := by
  induction order generalizing map with
  | nil =>
    have hle : map.entries.length ≤ cap := by
      have hone : ∀ x ∈ map.entries.keys, x = k := by
        intro x hx
        obtain ⟨e, he, rfl⟩ := List.mem_map.mp hx
        exact (Prod.mk.inj (List.mem_singleton.mp
          (hb e.1 e.2 (AList.mem_lookup_iff.mpr he)))).1
      have hsub : map.entries.keys ⊆ [k] := fun x hx => List.mem_singleton.mpr (hone x hx)
      have hlen := List.Nodup.length_le_of_subset map.nodupKeys hsub
      rw [List.keys, List.length_map, List.length_singleton] at hlen
      omega
    rw [List.nil_append, evictLoop, if_pos hle]
    exact hk
  | cons item order ih =>
    rw [List.mem_cons, not_or] at hn
    rw [List.cons_append, evictLoop]
    split_ifs with hle hcur
    · exact hk
    · obtain ⟨v', hl, hv⟩ := isCurrent_iff.mp hcur
      have hne : k ≠ item.1 := by
        rintro rfl
        obtain rfl := Option.some.inj (hk.symm.trans hl)
        exact hn.1 (Prod.ext rfl hv)
      refine ih ?_ ((AList.lookup_erase_ne hne).trans hk) hn.2
      intro k' v' hl'
      have hne' : k' ≠ item.1 := by
        rintro rfl
        rw [AList.lookup_erase] at hl'
        cases hl'
      rw [AList.lookup_erase_ne hne'] at hl'
      rcases List.mem_cons.mp (hb k' v' hl') with rfl | hm
      · exact absurd rfl hne'
      · exact hm
    · refine ih ?_ hk hn.2
      intro k' v' hl'
      rcases List.mem_cons.mp (hb k' v' hl') with rfl | hm
      · exact absurd (isCurrent_iff.mpr ⟨v', hl', rfl⟩) hcur
      · exact hm

namespace Sound

variable {history : Pairs κ β}

omit [DecidableEq τ] in
theorem empty : Sound stamp cap [] (empty : Queued κ β τ) := by
  constructor
  · intro k v h
    cases h
  · intro item hm
    cases hm
  · exact Nat.zero_le cap
  · intro k v h
    cases h

omit [DecidableEq τ] in
theorem backed_push (h : Sound stamp cap history s) (k : κ) (v : β) (k' : κ) (v' : β)
    (hl : (s.map.insert k v).lookup k' = some v') :
    (k', stamp v') ∈ s.order ++ [(k, stamp v)] := by
  by_cases hk : k' = k
  · subst hk
    rw [AList.lookup_insert] at hl
    obtain rfl := Option.some.inj hl
    exact List.mem_append_right _ (List.mem_singleton_self _)
  · rw [AList.lookup_insert_ne hk] at hl
    exact List.mem_append_left _ (h.backed k' v' hl)

theorem insert (h : Sound stamp cap history s) (bound : ℕ) (k : κ) (v : β) :
    Sound stamp cap (⟨k, v⟩ :: history) (s.insert stamp cap bound k v) := by
  obtain ⟨hb, hlen, hsub, hs⟩ := evictLoop_backed cap (h.backed_push k v)
  constructor
  · intro k' v' hl
    rw [Queued.insert, map_compact] at hl
    unfold Queued.insert compact
    split_ifs
    · exact List.mem_filter.mpr ⟨hb k' v' hl, isCurrent_iff.mpr ⟨v', hl, rfl⟩⟩
    · exact hb k' v' hl
  · intro item hm
    rcases List.mem_append.mp (hs.subset (compact_sublist.subset hm)) with hm | hm
    · obtain ⟨e, he, heq⟩ := h.given item hm
      exact ⟨e, List.mem_cons_of_mem _ he, heq⟩
    · exact ⟨⟨k, v⟩, List.mem_cons_self, List.mem_singleton.mp hm⟩
  · rw [Queued.insert, map_compact]
    exact hlen
  · intro k' v' hl
    rw [Queued.insert, map_compact] at hl
    replace hl := AList.mem_lookup_iff.mpr (hsub (AList.mem_lookup_iff.mp hl))
    by_cases hk : k' = k
    · subst hk
      rw [AList.lookup_insert] at hl
      rw [← hl]
      exact List.dlookup_cons_eq _ _ _
    · rw [AList.lookup_insert_ne hk] at hl
      rw [List.dlookup_cons_ne _ _ hk]
      exact h.newest k' v' hl

theorem lookup_insert (h : Sound stamp cap history s) (hc : 0 < cap) (bound : ℕ)
    (hfresh : ∀ e ∈ history, e.1 = k → stamp e.2 ≠ stamp v) :
    (s.insert stamp cap bound k v).map.lookup k = some v := by
  rw [Queued.insert, map_compact]
  apply lookup_evictLoop_last hc (h.backed_push k v) (AList.lookup_insert s.map)
  intro hm
  obtain ⟨e, he, hke⟩ := h.given _ hm
  obtain ⟨hk, ht⟩ := Prod.mk.inj hke
  exact hfresh e he hk.symm ht.symm

omit [DecidableEq τ] in
theorem retain (h : Sound stamp cap history s) (keep : β → Bool) :
    Sound stamp cap history (s.retain keep) := by
  have hl : ∀ k v, (s.retain keep).map.lookup k = some v → s.map.lookup k = some v := by
    intro k v hr
    rw [lookup_retain] at hr
    exact (Option.filter_eq_some_iff.mp hr).1
  constructor
  · exact fun k v hr => h.backed k v (hl k v hr)
  · exact h.given
  · exact List.filter_sublist.length_le.trans h.bounded
  · exact fun k v hr => h.newest k v (hl k v hr)

end Sound

/-- The queue stays within its bound too, and a key holds what it was given last while that is live,
until as many other keys as fit were given something. -/
structure Tracks (stamp : β → τ) (cap bound : ℕ) (history : Pairs κ β) (live : β → Prop)
    (s : Queued κ β τ) : Prop where
  ordered : s.Ordered stamp
  sound : s.Sound stamp cap history
  short : s.order.length ≤ bound
  kept : ∀ k v, history.dlookup k = some v → live v →
    (since k history).keys.dedup.length < cap →
      ∃ newer older, s.map.entries = newer ++ ⟨k, v⟩ :: older ∧ newer.keys ⊆ (since k history).keys

namespace Tracks

variable {history : Pairs κ β} {live live' : β → Prop}

theorem empty : Tracks stamp cap bound [] live (empty : Queued κ β τ) := by
  constructor
  · rfl
  · exact .empty
  · exact Nat.zero_le bound
  · intro k v h
    cases h

theorem lookup (h : Tracks stamp cap bound history live s) (hd : history.dlookup k = some v)
    (hl : live v) (hc : (since k history).keys.dedup.length < cap) :
    s.map.lookup k = some v := by
  obtain ⟨newer, older, he, -⟩ := h.kept k v hd hl hc
  apply AList.mem_lookup_iff.mpr
  rw [he]
  exact List.mem_append_right newer List.mem_cons_self

theorem insert (h : Tracks stamp cap bound history live s) (hb : cap ≤ bound)
    (hfresh : ∀ e ∈ history, e.1 = k → stamp e.2 ≠ stamp v) :
    Tracks stamp cap bound (⟨k, v⟩ :: history) live (s.insert stamp cap bound k v) := by
  have hnew : (k, stamp v) ∉ s.order := by
    intro hm
    obtain ⟨e, he, hke⟩ := h.sound.given _ hm
    obtain ⟨hk, ht⟩ := Prod.mk.inj hke
    exact hfresh e he hk.symm ht.symm
  obtain ⟨ho, hentries, hshort⟩ := insert_spec h.ordered hnew hb
  constructor
  · exact ho
  · exact h.sound.insert bound k v
  · exact hshort
  · intro k' v' hd hl hc
    by_cases hk : k' = k
    · subst hk
      rw [List.dlookup_cons_eq] at hd
      obtain rfl := Option.some.inj hd
      have hpos : cap = cap - 1 + 1 := by omega
      refine ⟨[], (s.map.entries.kerase k').take (cap - 1), ?_, List.nil_subset _⟩
      rw [hentries, hpos, List.take_succ_cons]
      rfl
    · rw [since_cons_of_ne hk] at hc ⊢
      rw [List.dlookup_cons_ne _ _ hk] at hd
      have hmono : (since k' history).keys.dedup.length ≤
          (⟨k, v⟩ :: since k' history : Pairs κ β).keys.dedup.length := by
        apply (List.subperm_of_subset (List.nodup_dedup _) _).length_le
        intro x hx
        exact List.mem_dedup.mpr (List.mem_cons_of_mem _ (List.mem_dedup.mp hx))
      obtain ⟨newer, older, he, hkeys⟩ := h.kept k' v' hd hl (hmono.trans_lt hc)
      rw [hentries]
      exact take_kerase_eq s.map.nodupKeys he hk hkeys hc

theorem retain (h : Tracks stamp cap bound history live s) {keep : β → Bool}
    (hl : ∀ v, live' v → live v ∧ keep v = true) :
    Tracks stamp cap bound history live' (s.retain keep) := by
  constructor
  · exact ordered_retain h.ordered keep
  · exact h.sound.retain keep
  · exact h.short
  · intro k v hd hlive hc
    obtain ⟨hv, hkeep⟩ := hl v hlive
    obtain ⟨newer, older, he, hkeys⟩ := h.kept k v hd hv hc
    refine ⟨newer.filter fun e => keep e.2, older.filter fun e => keep e.2, ?_, ?_⟩
    · change s.map.entries.filter (fun e => keep e.2) = _
      have hcons : (⟨k, v⟩ :: older : Pairs κ β).filter (fun e => keep e.2) =
          ⟨k, v⟩ :: older.filter fun e => keep e.2 := List.filter_cons_of_pos hkeep
      rw [he, List.filter_append, hcons]
    · intro x hx
      obtain ⟨e, hm, rfl⟩ := List.mem_map.mp hx
      exact hkeys (List.mem_map_of_mem (List.mem_of_mem_filter hm))

end Tracks

end Queued

end Eviction
