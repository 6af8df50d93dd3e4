import Mathlib.Data.List.Basic
import Mathlib.Data.Nat.Notation
import Mathlib.Order.Defs.LinearOrder
import Mathlib.Tactic.Common

/-! # Sliding windows

Instants of one history, and those of the last while. A history that grows only while
fewer than a limit of its instants are live has no more than the limit in any window.
-/

namespace SlidingWindow

variable (width : ℕ)

/-- The instants that are less than a width ago. -/
def live (now : ℕ) (history : List ℕ) : List ℕ :=
  history.filter fun t => decide (now - t < width)

/-- Instants less than a width apart. -/
def Window (I : ℕ → Prop) : Prop :=
  ∀ s t, I s → I t → t - s < width

variable {width} {now then' limit : ℕ} {history : List ℕ}

theorem mem_live {t : ℕ} : t ∈ live width now history ↔ t ∈ history ∧ now - t < width := by
  simp [live]

theorem live_append (history' : List ℕ) :
    live width now (history ++ history') = live width now history ++ live width now history' :=
  List.filter_append ..

theorem live_live (h : then' ≤ now) :
    live width now (live width then' history) = live width now history := by
  unfold live
  rw [List.filter_filter]
  apply List.filter_congr
  intro t _
  rw [Bool.eq_iff_iff]
  simp only [Bool.and_eq_true, decide_eq_true_eq]
  omega

theorem live_eq_self (h : ∀ t ∈ history, now - t < width) : live width now history = history := by
  apply List.filter_eq_self.mpr
  intro t ht
  exact decide_eq_true (h t ht)

theorem window_Ico (t : ℕ) (hw : 0 < width) : Window width fun s => t ≤ s ∧ s < t + width := by
  rintro r s ⟨hr, -⟩ ⟨-, hs⟩
  omega

theorem window_Ioc (t : ℕ) (hw : 0 < width) : Window width fun s => t < s ∧ s ≤ t + width := by
  rintro r s ⟨hr, -⟩ ⟨-, hs⟩
  omega

theorem length_filter_append_le {I : ℕ → Prop} [DecidablePred I] (hI : Window width I)
    (hlive : (live width now history).length < limit)
    (hle : (history.filter fun t => decide (I t)).length ≤ limit) :
    ((history ++ [now]).filter fun t => decide (I t)).length ≤ limit := by
  rw [List.filter_append, List.length_append]
  by_cases hn : I now
  · have hsub : (history.filter fun t => decide (I t)).length ≤
        (live width now history).length := by
      apply List.Sublist.length_le
      apply List.monotone_filter_right
      intro t ht
      exact decide_eq_true (hI t now (of_decide_eq_true ht) hn)
    have hone : ([now].filter fun t => decide (I t)).length ≤ 1 := List.length_filter_le ..
    omega
  · have hnone : [now].filter (fun t => decide (I t)) = [] := by simp [hn]
    rw [hnone]
    exact hle

end SlidingWindow
