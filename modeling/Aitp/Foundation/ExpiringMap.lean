import Mathlib.Data.List.AList
import Mathlib.Data.List.Sort
import Mathlib.Order.Defs.LinearOrder
import Mathlib.Data.Nat.Notation

/-! # Expiring maps

Maps whose records expire, each with a heap of the expiries, in shards chosen by
key. A purge drops records that expired before its clock, and no others.
-/

namespace Expiring

variable {τ κ β : Type} [LinearOrder τ]

/-- A min-heap on the expiry, as the list of its items in the order they are popped. Items of one
expiry are popped in any order. -/
structure Heap (τ κ : Type) [LinearOrder τ] where
  items : List (τ × κ)
  sorted : items.Pairwise fun a b => a.1 ≤ b.1

namespace Heap

def empty : Heap τ κ := ⟨[], .nil⟩

/-- Insert an item in its place. -/
def place (x : τ × κ) : List (τ × κ) → List (τ × κ)
  | [] => [x]
  | y :: ys => if x.1 ≤ y.1 then x :: y :: ys else y :: place x ys

theorem mem_place {x y : τ × κ} {l : List (τ × κ)} : y ∈ place x l ↔ y = x ∨ y ∈ l := by
  induction l with
  | nil => simp [place]
  | cons z l ih =>
    unfold place
    split_ifs
    · simp
    · simp only [List.mem_cons, ih]
      tauto

theorem sorted_place {x : τ × κ} {l : List (τ × κ)}
    (h : l.Pairwise fun a b => a.1 ≤ b.1) : (place x l).Pairwise fun a b => a.1 ≤ b.1 := by
  induction l with
  | nil => simp [place]
  | cons z l ih =>
    obtain ⟨hz, hl⟩ := List.pairwise_cons.mp h
    unfold place
    split_ifs with hx
    · refine List.pairwise_cons.mpr ⟨fun y hy => ?_, h⟩
      rcases List.mem_cons.mp hy with rfl | hy
      · exact hx
      · exact hx.trans (hz y hy)
    · refine List.pairwise_cons.mpr ⟨fun y hy => ?_, ih hl⟩
      rcases mem_place.mp hy with rfl | hy
      · exact (not_le.mp hx).le
      · exact hz y hy

def push (h : Heap τ κ) (x : τ × κ) : Heap τ κ :=
  ⟨place x h.items, sorted_place h.sorted⟩

/-- The heap of some items. -/
def ofItems : List (τ × κ) → Heap τ κ
  | [] => empty
  | x :: xs => (ofItems xs).push x

end Heap

/-- Records are only removed, each for the given reason. -/
def Thins (held held' : κ → Option β) (why : κ → β → Prop) : Prop :=
  ∀ k, held' k = held k ∨ ∃ r, held k = some r ∧ held' k = none ∧ why k r

namespace Thins

variable {h₀ h₁ h₂ : κ → Option β} {why : κ → β → Prop}

theorem of_eq (h : h₁ = h₀) : Thins h₀ h₁ why :=
  fun k => .inl (congrFun h k)

theorem trans (h : Thins h₀ h₁ why) (h' : Thins h₁ h₂ why) : Thins h₀ h₂ why := by
  intro k
  rcases h' k with he | ⟨r, hr, hn, hw⟩
  · rcases h k with he' | ⟨r, hr, hn, hw⟩
    · exact .inl (he.trans he')
    · exact .inr ⟨r, hr, he.trans hn, hw⟩
  · rcases h k with he' | ⟨r', -, hn', -⟩
    · exact .inr ⟨r, he'.symm.trans hr, hn, hw⟩
    · rw [hn'] at hr
      exact absurd hr (by simp)

theorem kept (h : Thins h₀ h₁ why) {k : κ} {r : β} (hr : h₁ k = some r) : h₀ k = some r := by
  rcases h k with he | ⟨_, -, hn, -⟩
  · rwa [← he]
  · rw [hn] at hr
    exact absurd hr (by simp)

theorem removed (h : Thins h₀ h₁ why) {k : κ} {r : β} (hr : h₀ k = some r)
    (hn : h₁ k ≠ some r) : why k r := by
  rcases h k with he | ⟨r', hr', -, hw⟩
  · exact absurd (he.trans hr) hn
  · rwa [Option.some.inj (hr.symm.trans hr')]

end Thins

variable [DecidableEq κ]

/-- The records of a shard and the heap of their expiries. An item of the heap may be stale. -/
structure Shard (τ κ β : Type) [LinearOrder τ] [DecidableEq κ] where
  map : AList fun _ : κ => β
  expiry : Heap τ κ

variable (expiresAt : β → τ)

namespace Shard

def empty : Shard τ κ β := ⟨∅, Heap.empty⟩

/-- The loop of a purge: the items left in the heap, the records left, and how many were
removed. -/
def purgeLoop (now : τ) :
    List (τ × κ) → (AList fun _ : κ => β) → List (τ × κ) × (AList fun _ : κ => β) × ℕ
  | [], map => ([], map, 0)
  | (exp, k) :: items, map =>
    if exp < now then
      if (map.lookup k).any fun r => decide (expiresAt r = exp) then
        let r := purgeLoop now items (map.erase k)
        (r.1, r.2.1, r.2.2 + 1)
      else purgeLoop now items map
    else ((exp, k) :: items, map, 0)

theorem suffix_purgeLoop (now : τ) (items : List (τ × κ)) (map : AList fun _ : κ => β) :
    (purgeLoop expiresAt now items map).1 <:+ items := by
  fun_induction purgeLoop expiresAt now items map with
  | case1 => exact List.suffix_refl _
  | case2 _ _ _ _ _ _ _ ih => exact ih.trans (List.suffix_cons ..)
  | case3 _ _ _ _ _ _ ih => exact ih.trans (List.suffix_cons ..)
  | case4 => exact List.suffix_refl _

/-- Drop the records that expired before a clock. -/
def purge (s : Shard τ κ β) (now : τ) : Shard τ κ β × ℕ :=
  let r := purgeLoop expiresAt now s.expiry.items s.map
  (⟨r.2.1, ⟨r.1, s.expiry.sorted.sublist (suffix_purgeLoop ..).sublist⟩⟩, r.2.2)

theorem thins_purgeLoop (now : τ) (items : List (τ × κ)) (map : AList fun _ : κ => β) :
    Thins map.lookup (purgeLoop expiresAt now items map).2.1.lookup
      fun _ r => expiresAt r < now := by
  fun_induction purgeLoop expiresAt now items map with
  | case1 => exact .of_eq rfl
  | case2 exp k items map hx hm r ih =>
    obtain ⟨e, he, hexp⟩ := (Option.any_eq_true ..).mp hm
    refine Thins.trans (fun k' => ?_) ih
    by_cases hk : k' = k
    · subst hk
      exact .inr ⟨e, he, AList.lookup_erase .., of_decide_eq_true hexp ▸ hx⟩
    · exact .inl (AList.lookup_erase_ne hk)
  | case3 _ _ _ _ _ _ ih => exact ih
  | case4 => exact .of_eq rfl

end Shard

/-! ## Shards -/

/-- The record held under a key. -/
def held (shardOf : κ → ℕ) (shards : ℕ → Shard τ κ β) (k : κ) : Option β :=
  (shards (shardOf k)).map.lookup k

variable {shardOf : κ → ℕ} {shards : ℕ → Shard τ κ β} {expiresAt}

theorem held_update (i : ℕ) (s : Shard τ κ β) (k : κ) :
    held shardOf (Function.update shards i s) k =
      if shardOf k = i then s.map.lookup k else held shardOf shards k := by
  simp only [held]
  split_ifs with h
  · rw [h, Function.update_self]
  · rw [Function.update_of_ne h]

theorem held_update_of_map {i : ℕ} {s : Shard τ κ β} (h : s.map = (shards i).map) :
    held shardOf (Function.update shards i s) = held shardOf shards := by
  funext k
  rw [held_update]
  split_ifs with hi
  · rw [h, held, hi]
  · rfl

theorem held_update_insert {k : κ} {r : β} {s : Shard τ κ β}
    (h : s.map = (shards (shardOf k)).map.insert k r) :
    held shardOf (Function.update shards (shardOf k) s) =
      Function.update (held shardOf shards) k (some r) := by
  funext k'
  rw [held_update, h]
  by_cases hk : k' = k
  · subst hk
    rw [if_pos rfl, AList.lookup_insert, Function.update_self]
  · rw [AList.lookup_insert_ne hk, Function.update_of_ne hk, held]
    split_ifs with hi
    · rw [hi]
    · rfl

theorem held_update_erase {k : κ} {s : Shard τ κ β}
    (h : s.map = (shards (shardOf k)).map.erase k) :
    held shardOf (Function.update shards (shardOf k) s) =
      Function.update (held shardOf shards) k none := by
  funext k'
  rw [held_update, h]
  by_cases hk : k' = k
  · subst hk
    rw [if_pos rfl, AList.lookup_erase, Function.update_self]
  · rw [AList.lookup_erase_ne hk, Function.update_of_ne hk, held]
    split_ifs with hi
    · rw [hi]
    · rfl

theorem thins_update_purge {i : ℕ} {s : Shard τ κ β} {now : τ}
    (h : s.map = ((shards i).purge expiresAt now).1.map) :
    Thins (held shardOf shards) (held shardOf (Function.update shards i s))
      fun _ r => expiresAt r < now := by
  intro k
  rw [held_update]
  split_ifs with hi
  · rw [h, held, hi]
    exact Shard.thins_purgeLoop expiresAt now _ _ k
  · exact .inl rfl

end Expiring
