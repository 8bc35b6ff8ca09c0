import Mathlib.Data.List.DropRight
import Mathlib.Algebra.BigOperators.Group.List.Basic
import Mathlib.Algebra.Order.Ring.Rat

/-!
# Sliding windows

A window of bounded capacity takes a new entry at its end and drops its oldest entry when
it has become too long. Started empty, it always holds the last entries of everything it
was given, at most as many as its capacity.
-/

namespace NodePower

variable {A : Type*}

/-- Drop the oldest entry of a window that has outgrown its capacity. -/
def dropOldest (capacity : ℕ) (window : List A) : List A :=
  if capacity < window.length then window.tail else window

/-- Take a new entry, dropping the oldest one when the capacity is exceeded. -/
def slide (capacity : ℕ) (window : List A) (entry : A) : List A :=
  dropOldest capacity (window ++ [entry])

/-- The last entries of a list have the shorter of the two lengths. -/
theorem length_rtake (xs : List A) (n : ℕ) : (xs.rtake n).length = min n xs.length := by
  simp only [List.rtake, List.length_drop]
  omega

/-- Without its oldest entry, a full run of last entries is the next shorter one. -/
theorem tail_rtake_succ {n : ℕ} {xs : List A} (h : n < xs.length) :
    (xs.rtake (n + 1)).tail = xs.rtake n := by
  rw [List.rtake, List.rtake, List.tail_drop]
  congr 1
  omega

/-- Sliding in one entry keeps a window equal to the last entries of the whole history. -/
theorem slide_rtake {capacity : ℕ} (hpos : 0 < capacity) (history : List A) (entry : A) :
    slide capacity (history.rtake capacity) entry = (history ++ [entry]).rtake capacity := by
  obtain ⟨n, rfl⟩ := Nat.exists_eq_succ_of_ne_zero hpos.ne'
  have hlength : (history.rtake (n + 1) ++ [entry]).length = min (n + 1) history.length + 1 := by
    rw [List.length_append, length_rtake, List.length_singleton]
  rw [Nat.succ_eq_add_one, List.rtake_concat_succ, slide, dropOldest, hlength]
  by_cases hfull : n < history.length
  · have hne : history.rtake (n + 1) ≠ [] := by
      rw [← List.length_pos_iff, length_rtake]
      omega
    rw [if_pos (by omega), List.tail_append_of_ne_nil hne, tail_rtake_succ hfull]
  · rw [if_neg (by omega), List.rtake, List.rtake, Nat.sub_eq_zero_of_le (by omega),
      Nat.sub_eq_zero_of_le (by omega)]

/-- A full window stays full. -/
theorem length_slide_of_full {capacity : ℕ} {window : List A} (hpos : 0 < capacity)
    (hfull : window.length = capacity) (entry : A) : (slide capacity window entry).length = capacity := by
  have hlen : capacity < (window ++ [entry]).length := by
    simp only [List.length_append, List.length_singleton]
    omega
  rw [slide, dropOldest, if_pos hlen, List.length_tail, List.length_append, List.length_singleton]
  omega

/-- Every entry of the new window is an old entry or the new one. -/
theorem mem_slide {capacity : ℕ} {window : List A} {entry a : A}
    (h : a ∈ slide capacity window entry) : a ∈ window ∨ a = entry := by
  have hmem : a ∈ window ++ [entry] := by
    rw [slide, dropOldest] at h
    split at h
    · exact List.mem_of_mem_tail h
    · exact h
  simpa using hmem

end NodePower
