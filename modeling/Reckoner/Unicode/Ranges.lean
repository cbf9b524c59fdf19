/-!
# Ranges of code points

A class of characters is a list of ranges of code points, both ends included, together with the
proof that the ranges ascend (`Ascending`). The search of `Ranges.contains` stops at the first range
beyond the code; as the ranges ascend, it misses nothing (`Ranges.contains_iff`). A statement about a
small class is checked on the list of its codes (`Ranges.mem_codes_iff`).
-/

namespace Reckoner.Unicode

/-- Ranges from `start` on: none of them is empty, and each begins beyond the end of the one before
it. -/
def Ascending : Nat → List (Nat × Nat) → Prop
  | _, [] => True
  | start, (lo, hi) :: rest => start ≤ lo ∧ lo ≤ hi ∧ Ascending (hi + 1) rest

instance decidableAscending : ∀ start ranges, Decidable (Ascending start ranges)
  | _, [] => .isTrue trivial
  | start, (lo, hi) :: rest =>
    have := decidableAscending (hi + 1) rest
    inferInstanceAs (Decidable (start ≤ lo ∧ lo ≤ hi ∧ Ascending (hi + 1) rest))

theorem Ascending.le_of_mem {start : Nat} {ranges : List (Nat × Nat)} (h : Ascending start ranges)
    {p : Nat × Nat} (hp : p ∈ ranges) : start ≤ p.1 := by
  induction ranges generalizing start with
  | nil => cases hp
  | cons q rest ih =>
    obtain ⟨from_start, nonempty, later⟩ := h
    obtain rfl | hp := List.mem_cons.1 hp
    · exact from_start
    · have := ih later hp
      omega

/-- Ranges of code points, both ends included, in ascending order. -/
structure Ranges where
  entries : List (Nat × Nat)
  ascending : Ascending 0 entries := by decide

namespace Ranges

/-- Whether a range holds `n`; the first one above `n` ends the search. -/
def search : List (Nat × Nat) → Nat → Bool
  | [], _ => false
  | (lo, hi) :: rest, n => if n < lo then false else n ≤ hi || search rest n

/-- Whether one of the ranges holds a code. -/
def contains (r : Ranges) (n : Nat) : Bool := search r.entries n

theorem search_iff {start : Nat} {ranges : List (Nat × Nat)} (h : Ascending start ranges)
    (n : Nat) : search ranges n = true ↔ ∃ p ∈ ranges, p.1 ≤ n ∧ n ≤ p.2 := by
  induction ranges generalizing start with
  | nil => simp [search]
  | cons p rest ih =>
    obtain ⟨lo, hi⟩ := p
    obtain ⟨-, nonempty, later⟩ := h
    by_cases below : n < lo
    · simp only [search, below, reduceIte, Bool.false_eq_true, false_iff]
      rintro ⟨q, hq, reached, -⟩
      obtain rfl | hq := List.mem_cons.1 hq
      · exact Nat.not_lt.2 reached below
      · have beyond := later.le_of_mem hq
        omega
    · simp only [search, below, reduceIte, Bool.or_eq_true, decide_eq_true_eq, ih later]
      constructor
      · rintro (within | ⟨q, hq, bounds⟩)
        · exact ⟨_, List.mem_cons_self, Nat.not_lt.1 below, within⟩
        · exact ⟨q, List.mem_cons_of_mem _ hq, bounds⟩
      · rintro ⟨q, hq, bounds⟩
        obtain rfl | hq := List.mem_cons.1 hq
        · exact .inl bounds.2
        · exact .inr ⟨q, hq, bounds⟩

/-- **The search misses nothing.** -/
theorem contains_iff {r : Ranges} {n : Nat} :
    r.contains n = true ↔ ∃ p ∈ r.entries, p.1 ≤ n ∧ n ≤ p.2 :=
  search_iff r.ascending n

/-! ## The codes of a class -/

/-- All codes of some ranges. -/
def codes (r : Ranges) : List Nat := r.entries.flatMap fun p => List.range' p.1 (p.2 + 1 - p.1)

theorem mem_codes_iff {r : Ranges} {n : Nat} : n ∈ r.codes ↔ r.contains n = true := by
  rw [contains_iff, codes, List.mem_flatMap]
  refine exists_congr fun p => and_congr_right fun _ => ?_
  rw [List.mem_range'_1]
  omega

end Ranges

end Reckoner.Unicode
