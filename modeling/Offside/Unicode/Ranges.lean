/-! Sets of code points given by ranges. -/
namespace Offside.Unicode

/-- Inclusive ranges in ascending order. -/
abbrev RangeTable := List (Nat × Nat)

namespace RangeTable

/-- The search stops at the first range that begins beyond the number. -/
def contains : RangeTable → Nat → Bool
  | [], _ => false
  | (lo, hi) :: table, n => if n < lo then false else n ≤ hi || contains table n

/-- Every range has a member, begins at `start` or beyond and behind the range before it. -/
def ascendingFrom (start : Nat) : RangeTable → Bool
  | [] => true
  | (lo, hi) :: table => start ≤ lo && lo ≤ hi && ascendingFrom (hi + 1) table

theorem le_of_ascendingFrom {start : Nat} {table : RangeTable} (h : table.ascendingFrom start)
    {r : Nat × Nat} (hr : r ∈ table) : start ≤ r.1 := by
  induction table generalizing start with
  | nil => cases hr
  | cons s table ih =>
    simp only [ascendingFrom, Bool.and_eq_true, decide_eq_true_eq] at h
    rcases List.mem_cons.1 hr with rfl | hr
    · exact h.1.1
    · have := ih h.2 hr
      omega

theorem contains_iff {start : Nat} {table : RangeTable} (h : table.ascendingFrom start) (n : Nat) :
    table.contains n = true ↔ ∃ r ∈ table, r.1 ≤ n ∧ n ≤ r.2 := by
  induction table generalizing start with
  | nil => simp [contains]
  | cons s table ih =>
    simp only [ascendingFrom, Bool.and_eq_true, decide_eq_true_eq] at h
    simp only [contains, List.mem_cons, exists_eq_or_imp]
    split
    · simp only [Bool.false_eq_true, false_iff, not_or, not_exists]
      refine ⟨by omega, fun r hr => ?_⟩
      have := le_of_ascendingFrom h.2 hr.1
      omega
    · have hn : s.1 ≤ n := by omega
      simp [hn, ih h.2]

end RangeTable
end Offside.Unicode
