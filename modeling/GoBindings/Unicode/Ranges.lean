/-
  GoBindings/Unicode/Ranges.lean
  ==============================
  **Sets of code points as lists of intervals.**

  A Unicode property is a few hundred intervals. A list of them is enough: a
  lookup walks it, and a fact about a property is a fact about the list.
-/
namespace GoBindings.Unicode

/-- Intervals of code points, both ends included. -/
abbrev Ranges := List (Nat × Nat)

/-- Membership in one of the intervals. -/
def Ranges.contains (ranges : Ranges) (c : Char) : Bool :=
  ranges.any fun r => r.1 ≤ c.toNat && c.toNat ≤ r.2

theorem Ranges.contains_iff {ranges : Ranges} {c : Char} :
    ranges.contains c = true ↔ ∃ r ∈ ranges, r.1 ≤ c.toNat ∧ c.toNat ≤ r.2 := by
  simp [Ranges.contains]

/-- A character of one set is not in another if their intervals are apart. -/
theorem Ranges.contains_eq_false_of_apart {ranges others : Ranges} {c : Char}
    (h : ∀ r ∈ ranges, ∀ q ∈ others, r.2 < q.1 ∨ q.2 < r.1) (hc : ranges.contains c = true) :
    others.contains c = false := by
  obtain ⟨r, hr, hlow, hhigh⟩ := contains_iff.mp hc
  rw [← Bool.not_eq_true, contains_iff]
  rintro ⟨q, hq, hlow', hhigh'⟩
  rcases h r hr q hq with hbelow | habove
  · omega
  · omega

end GoBindings.Unicode
