import Aitp.Foundation.ExpiringMap
import Mathlib.Algebra.BigOperators.Group.Finset.Basic
import Mathlib.Algebra.Order.BigOperators.Group.Finset

/-! # Counts of expiring maps

How many records a purge removes, and what the heap of a shard says of its records: as
long as each has its item, a purge leaves none that expired and the first item is a lower
bound.
-/

namespace Expiring

variable {τ κ β : Type} [LinearOrder τ] [DecidableEq κ] {expiresAt : β → τ}

/-! ## Numbers of records -/

theorem length_erase {map : AList fun _ : κ => β} {k : κ} (h : (map.lookup k).isSome) :
    (map.erase k).entries.length + 1 = map.entries.length := by
  have hk : k ∈ map.entries.keys := AList.lookup_isSome.mp h
  have hlen := List.length_erase_of_mem hk
  have hpos : 0 < map.entries.keys.length := List.length_pos_of_mem hk
  rw [← List.keys_kerase] at hlen
  simp only [List.keys, List.length_map] at hlen hpos
  have herase : (map.erase k).entries = map.entries.kerase k := rfl
  rw [herase]
  omega

theorem length_insert {map : AList fun _ : κ => β} {k : κ} {r : β} (h : map.lookup k = none) :
    (map.insert k r).entries.length = map.entries.length + 1 := by
  rw [AList.entries_insert_of_notMem (AList.lookup_eq_none.mp h), List.length_cons]

namespace Shard

/-- How many records a shard holds. -/
def size (s : Shard τ κ β) : ℕ :=
  s.map.entries.length

theorem length_purgeLoop (now : τ) (items : List (τ × κ)) (map : AList fun _ : κ => β) :
    (purgeLoop expiresAt now items map).2.1.entries.length +
      (purgeLoop expiresAt now items map).2.2 = map.entries.length := by
  fun_induction purgeLoop expiresAt now items map with
  | case1 => rfl
  | case2 exp k items map hx hm r ih =>
    have hsome : (map.lookup k).isSome := by
      obtain ⟨e, he, -⟩ := (Option.any_eq_true ..).mp hm
      rw [he]
      rfl
    have hl := length_erase hsome
    simp only [r] at ih ⊢
    omega
  | case3 _ _ _ _ _ _ ih => exact ih
  | case4 => rfl

theorem size_purge (s : Shard τ κ β) (now : τ) :
    (s.purge expiresAt now).1.size + (s.purge expiresAt now).2 = s.size :=
  length_purgeLoop now s.expiry.items s.map

/-! ## Items of the heap -/

/-- Every record has an item. -/
def Covers (expiresAt : β → τ) (items : List (τ × κ)) (map : AList fun _ : κ => β) : Prop :=
  ∀ k r, map.lookup k = some r → (expiresAt r, k) ∈ items

theorem covers_purgeLoop {now : τ} {items : List (τ × κ)} {map : AList fun _ : κ => β}
    (h : Covers expiresAt items map) : Covers expiresAt (purgeLoop expiresAt now items map).1
      (purgeLoop expiresAt now items map).2.1 := by
  fun_induction purgeLoop expiresAt now items map with
  | case1 => exact h
  | case2 exp k items map hx hm r ih =>
    apply ih
    intro k' r' hr
    by_cases hk : k' = k
    · subst hk
      rw [AList.lookup_erase] at hr
      cases hr
    · rw [AList.lookup_erase_ne hk] at hr
      rcases List.mem_cons.mp (h k' r' hr) with he | he
      · exact absurd (Prod.mk.inj he).2 hk
      · exact he
  | case3 exp k items map hx hm ih =>
    apply ih
    intro k' r' hr
    rcases List.mem_cons.mp (h k' r' hr) with he | he
    · obtain ⟨rfl, rfl⟩ := Prod.mk.inj he
      rw [hr] at hm
      simp at hm
    · exact he
  | case4 => exact h

theorem le_of_mem_purgeLoop {now : τ} {items : List (τ × κ)} {map : AList fun _ : κ => β}
    (hs : items.Pairwise fun a b => a.1 ≤ b.1) :
    ∀ x ∈ (purgeLoop expiresAt now items map).1, now ≤ x.1 := by
  fun_induction purgeLoop expiresAt now items map with
  | case1 =>
    rintro x ⟨⟩
  | case2 _ _ _ _ _ _ _ ih => exact ih (List.pairwise_cons.mp hs).2
  | case3 _ _ _ _ _ _ ih => exact ih (List.pairwise_cons.mp hs).2
  | case4 exp k items map hx =>
    intro x hm
    rcases List.mem_cons.mp hm with rfl | hm
    · exact not_lt.mp hx
    · exact (not_lt.mp hx).trans ((List.pairwise_cons.mp hs).1 x hm)

theorem covers_purge {s : Shard τ κ β} (h : Covers expiresAt s.expiry.items s.map) (now : τ) :
    Covers expiresAt (s.purge expiresAt now).1.expiry.items (s.purge expiresAt now).1.map :=
  covers_purgeLoop h

theorem le_of_lookup_purge {s : Shard τ κ β} (h : Covers expiresAt s.expiry.items s.map) {now : τ}
    {k : κ} {r : β} (hr : (s.purge expiresAt now).1.map.lookup k = some r) : now ≤ expiresAt r :=
  le_of_mem_purgeLoop s.expiry.sorted _ (covers_purge h now k r hr)

/-- How many records of a map expired before a clock. -/
def expiredCount (expiresAt : β → τ) (now : τ) (map : AList fun _ : κ => β) : ℕ :=
  map.entries.countP fun r => decide (expiresAt r.2 < now)

theorem expiredCount_erase {now : τ} {map : AList fun _ : κ => β} {k : κ} {r : β}
    (h : map.lookup k = some r) (hr : expiresAt r < now) :
    expiredCount expiresAt now (map.erase k) + 1 = expiredCount expiresAt now map := by
  have hk : k ∈ map.entries.keys := AList.lookup_isSome.mp (by rw [h]; rfl)
  obtain ⟨r', before, after, hn, hl, he⟩ := List.exists_of_kerase hk
  have hr' : r' = r := by
    have hmem : (⟨k, r'⟩ : Sigma fun _ : κ => β) ∈ map.entries := by
      rw [hl]
      exact List.mem_append_right _ List.mem_cons_self
    have hlookup : map.lookup k = some r' := (List.mem_dlookup_iff map.nodupKeys).mpr hmem
    exact Option.some.inj (hlookup.symm.trans h)
  subst hr'
  have herase : (map.erase k).entries = map.entries.kerase k := rfl
  rw [expiredCount, expiredCount, herase, he, hl, List.countP_append, List.countP_append,
    List.countP_cons, if_pos (decide_eq_true hr), Nat.add_assoc]

theorem expiredCount_purgeLoop (now : τ) (items : List (τ × κ)) (map : AList fun _ : κ => β) :
    expiredCount expiresAt now (purgeLoop expiresAt now items map).2.1 +
      (purgeLoop expiresAt now items map).2.2 = expiredCount expiresAt now map := by
  fun_induction purgeLoop expiresAt now items map with
  | case1 => rfl
  | case2 exp k items map hx hm r ih =>
    obtain ⟨e, he, hexp⟩ := (Option.any_eq_true ..).mp hm
    have hlt : expiresAt e < now := by
      rw [of_decide_eq_true hexp]
      exact hx
    have hc := expiredCount_erase he hlt
    simp only [r] at ih ⊢
    omega
  | case3 _ _ _ _ _ _ ih => exact ih
  | case4 => rfl

theorem count_purge {s : Shard τ κ β} (h : Covers expiresAt s.expiry.items s.map) (now : τ) :
    (s.purge expiresAt now).2 = expiredCount expiresAt now s.map := by
  have hc : expiredCount expiresAt now (s.purge expiresAt now).1.map +
      (s.purge expiresAt now).2 = expiredCount expiresAt now s.map :=
    expiredCount_purgeLoop now s.expiry.items s.map
  have hz : expiredCount expiresAt now (s.purge expiresAt now).1.map = 0 := by
    apply List.countP_eq_zero.mpr
    intro r hr hlt
    have hlookup : (s.purge expiresAt now).1.map.lookup r.1 = some r.2 :=
      (List.mem_dlookup_iff (s.purge expiresAt now).1.map.nodupKeys).mpr hr
    exact absurd (of_decide_eq_true hlt) (not_lt.mpr (le_of_lookup_purge h hlookup))
  omega

theorem lookup_purge_iff {s : Shard τ κ β} (h : Covers expiresAt s.expiry.items s.map) {now : τ}
    {k : κ} {r : β} : (s.purge expiresAt now).1.map.lookup k = some r ↔
      s.map.lookup k = some r ∧ now ≤ expiresAt r := by
  have ht : Thins s.map.lookup (s.purge expiresAt now).1.map.lookup
      fun _ r => expiresAt r < now := thins_purgeLoop expiresAt now s.expiry.items s.map
  constructor
  · intro hr
    exact ⟨ht.kept hr, le_of_lookup_purge h hr⟩
  · rintro ⟨hr, hle⟩
    by_contra hn
    exact absurd (ht.removed hr hn) (not_lt.mpr hle)

theorem Covers.head_le {s : Shard τ κ β} (h : Covers expiresAt s.expiry.items s.map) {k : κ} {r : β}
    (hr : s.map.lookup k = some r) : ∃ first, s.expiry.items.head?.map Prod.fst = some first ∧
      first ≤ expiresAt r := by
  have hm := h k r hr
  have hs := s.expiry.sorted
  cases hitems : s.expiry.items with
  | nil =>
    rw [hitems] at hm
    cases hm
  | cons x items =>
    rw [hitems] at hm hs
    refine ⟨x.1, rfl, ?_⟩
    rcases List.mem_cons.mp hm with rfl | hm
    · exact le_rfl
    · exact (List.pairwise_cons.mp hs).1 _ hm

end Shard

omit [DecidableEq κ] in
theorem Heap.mem_push {h : Heap τ κ} {x y : τ × κ} : y ∈ (h.push x).items ↔ y = x ∨ y ∈ h.items :=
  mem_place

omit [DecidableEq κ] in
theorem Heap.mem_ofItems {x : τ × κ} {items : List (τ × κ)} :
    x ∈ (Heap.ofItems items).items ↔ x ∈ items := by
  induction items with
  | nil => exact Iff.rfl
  | cons y items ih => rw [Heap.ofItems, mem_push, ih, List.mem_cons]

omit [DecidableEq κ] in
theorem Heap.length_push (h : Heap τ κ) (x : τ × κ) :
    (h.push x).items.length = h.items.length + 1 := by
  show (place x h.items).length = h.items.length + 1
  induction h.items with
  | nil => rfl
  | cons y l ih =>
    unfold place
    split_ifs
    · rfl
    · rw [List.length_cons, ih, List.length_cons]

omit [DecidableEq κ] in
theorem Heap.length_ofItems (items : List (τ × κ)) :
    (Heap.ofItems items).items.length = items.length := by
  induction items with
  | nil => rfl
  | cons x items ih => rw [ofItems, length_push, ih, List.length_cons]

theorem covers_insert {expiry : Heap τ κ} {map : AList fun _ : κ => β} {k : κ} {r : β}
    (h : Shard.Covers expiresAt expiry.items map) :
    Shard.Covers expiresAt (expiry.push (expiresAt r, k)).items (map.insert k r) := by
  intro k' r' hr
  by_cases hk : k' = k
  · subst hk
    rw [AList.lookup_insert] at hr
    obtain rfl := Option.some.inj hr
    exact Heap.mem_push.mpr (.inl rfl)
  · rw [AList.lookup_insert_ne hk] at hr
    exact Heap.mem_push.mpr (.inr (h k' r' hr))

omit [LinearOrder τ] in
theorem covers_erase {items : List (τ × κ)} {map : AList fun _ : κ => β} (k : κ)
    (h : Shard.Covers expiresAt items map) : Shard.Covers expiresAt items (map.erase k) := by
  intro k' r' hr
  by_cases hk : k' = k
  · subst hk
    rw [AList.lookup_erase] at hr
    cases hr
  · rw [AList.lookup_erase_ne hk] at hr
    exact h k' r' hr

theorem covers_ofItems (map : AList fun _ : κ => β) : Shard.Covers expiresAt
    (Heap.ofItems (map.entries.map fun r => (expiresAt r.2, r.1))).items map := by
  intro k r hr
  have hmem : (⟨k, r⟩ : Sigma fun _ : κ => β) ∈ map.entries := List.of_mem_dlookup hr
  exact Heap.mem_ofItems.mpr (List.mem_map.mpr ⟨⟨k, r⟩, hmem, rfl⟩)

/-! ## Sums over shards and threads -/

theorem sum_update {α : Type} {n t : ℕ} (h : t < n) (f : ℕ → α) (g : α → ℕ) (a : α) :
    ∑ x ∈ Finset.range n, g (Function.update f t a x) + g (f t) =
      ∑ x ∈ Finset.range n, g (f x) + g a := by
  have hm : t ∈ Finset.range n := Finset.mem_range.mpr h
  have hold := Finset.add_sum_erase _ (fun x => g (f x)) hm
  have hnew := Finset.add_sum_erase _ (fun x => g (Function.update f t a x)) hm
  have hrest : ∑ x ∈ (Finset.range n).erase t, g (Function.update f t a x) =
      ∑ x ∈ (Finset.range n).erase t, g (f x) := by
    refine Finset.sum_congr rfl ?_
    intro x hx
    rw [Function.update_of_ne (Finset.ne_of_mem_erase hx)]
  simp only [Function.update_self, hrest] at hnew
  omega

end Expiring
