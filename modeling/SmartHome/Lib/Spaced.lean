/-
  Times with a least distance: how many fit into a window, and when the k-th latest of some
  times leaves it.
-/
import Mathlib.Algebra.Order.Ring.Rat
import Mathlib.Data.List.Sort
import Mathlib.Tactic.Linarith

namespace Verif

variable {gap : ℚ} {times : List ℚ} {a : ℚ}

/-- Each time is at least `gap` after all times before it. -/
def Spaced (gap : ℚ) (times : List ℚ) : Prop := times.Pairwise fun a b => a + gap ≤ b

theorem spaced_concat : Spaced gap (times ++ [a]) ↔ Spaced gap times ∧ ∀ t ∈ times, t + gap ≤ a := by
  simp [Spaced, List.pairwise_append]

/-- The last of spaced times is late. -/
theorem Spaced.span (h : Spaced gap (a :: times)) : ∀ z ∈ (a :: times).getLast?, a + gap * times.length ≤ z := by
  induction times generalizing a with
  | nil => simp
  | cons b times ih =>
    obtain ⟨hab, hrest⟩ := List.pairwise_cons.1 h
    intro z hz
    have hb := hab b List.mem_cons_self
    have hlast := ih hrest z (by simpa using hz)
    rw [List.length_cons]
    push_cast
    linarith

/-- **At most `n` spaced times fit into less than `n` distances.** -/
theorem Spaced.length_le {n : ℕ} (h : Spaced gap times) (hgap : 0 < gap)
    (hspan : ∀ a ∈ times, ∀ z ∈ times, z - a < gap * n) : times.length ≤ n := by
  cases times with
  | nil => exact Nat.zero_le n
  | cons a rest =>
    obtain ⟨z, hz⟩ : ∃ z, z ∈ (a :: rest).getLast? :=
      ⟨_, List.getLast?_eq_getLast_of_ne_nil (List.cons_ne_nil a rest)⟩
    have hlate := h.span z hz
    have hnear := hspan a List.mem_cons_self z (List.mem_of_getLast? hz)
    have hlt : gap * rest.length < gap * n := by linarith
    have hlen : (rest.length : ℚ) < n := lt_of_mul_lt_mul_left hlt hgap.le
    rw [List.length_cons]
    exact_mod_cast hlen

/-- The window of `n` distances that ends with `w + gap * n`. -/
theorem Spaced.window (h : Spaced gap times) (hgap : 0 < gap) (w : ℚ) (n : ℕ) :
    (times.filter fun t => w < t ∧ t ≤ w + gap * n).length ≤ n := by
  refine Spaced.length_le (h.filter _) hgap fun a ha z hz => ?_
  have ha := (List.mem_filter.1 ha).2
  have hz := (List.mem_filter.1 hz).2
  rw [decide_eq_true_eq] at ha hz
  linarith [ha.1, hz.2]

/-- The window of `n` distances that starts with `w`. -/
theorem Spaced.window_from (h : Spaced gap times) (hgap : 0 < gap) (w : ℚ) (n : ℕ) :
    (times.filter fun t => w ≤ t ∧ t < w + gap * n).length ≤ n := by
  refine Spaced.length_le (h.filter _) hgap fun a ha z hz => ?_
  have ha := (List.mem_filter.1 ha).2
  have hz := (List.mem_filter.1 hz).2
  rw [decide_eq_true_eq] at ha hz
  linarith [ha.1, hz.2]

/-- The k-th latest of sorted times, if there are so many. -/
def latest (k : ℕ) (times : List ℚ) : Option ℚ :=
  if k ≤ times.length then times[times.length - k]? else none

/-- **The k-th latest of sorted times** says whether `k` of them are after a time. -/
theorem le_length_after_iff {k : ℕ} (hsorted : times.Pairwise (· ≤ ·)) (hk : 0 < k) (x : ℚ) :
    k ≤ (times.filter fun t => x < t).length ↔ ∃ a ∈ latest k times, x < a := by
  unfold latest
  split_ifs with hlen
  swap
  · have hfew := List.length_filter_le (fun t => decide (x < t)) times
    constructor
    · intro h
      omega
    · rintro ⟨a, ha, -⟩
      cases ha
  have hm : times.length - k < times.length := by omega
  rw [List.getElem?_eq_getElem hm]
  constructor
  · intro h
    refine ⟨_, rfl, ?_⟩
    by_contra hle
    -- the times up to the k-th latest are not after `x`
    have hearly : (times.take (times.length - k + 1)).filter (fun t => x < t) = [] := by
      rw [List.filter_eq_nil_iff]
      intro t ht
      obtain ⟨i, hi, rfl⟩ := List.getElem_of_mem ht
      rw [List.length_take] at hi
      rw [List.getElem_take, decide_eq_true_eq, not_lt]
      have hord : times[i] ≤ times[times.length - k] := by
        rcases Nat.lt_or_ge i (times.length - k) with hlt | hge
        · exact List.pairwise_iff_getElem.1 hsorted _ _ _ hm hlt
        · exact le_of_eq (getElem_congr_idx (by omega))
      exact hord.trans (not_lt.1 hle)
    have hsplit := congrArg (fun l => (l.filter fun t => x < t).length)
      (List.take_append_drop (times.length - k + 1) times)
    simp only [List.filter_append, hearly, List.nil_append] at hsplit
    have hlate := List.length_filter_le (fun t => decide (x < t)) (times.drop (times.length - k + 1))
    rw [List.length_drop] at hlate
    omega
  · rintro ⟨a, ha, h⟩
    obtain rfl := Option.some.inj ha
    -- the k latest times are after `x`
    have hlate : (times.drop (times.length - k)).filter (fun t => x < t) = times.drop (times.length - k) := by
      rw [List.filter_eq_self]
      intro t ht
      obtain ⟨i, hi, rfl⟩ := List.getElem_of_mem ht
      rw [List.length_drop] at hi
      rw [List.getElem_drop, decide_eq_true_eq]
      rcases Nat.eq_zero_or_pos i with rfl | hpos
      · exact h
      · exact h.trans_le (List.pairwise_iff_getElem.1 hsorted _ _ hm (by omega) (by omega))
    have hsub := ((List.drop_sublist (times.length - k) times).filter fun t => x < t).length_le
    rw [hlate, List.length_drop] at hsub
    omega

end Verif
