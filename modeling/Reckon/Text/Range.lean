/-!
Sets of characters given by sorted ranges of code points.

A property of characters that a standard lists as ranges is stored as
the list of its ranges in increasing order, so a look-up stops at the
first range that starts above the code point asked for.

* `CodeRange`: the code points from `first` to `last`, both included;
* `Sorted`: the ranges are nonempty, increasing and do not touch;
* `covers_iff`: on a sorted list the early stop changes nothing, a code
  point is covered exactly when some range of the list contains it.
-/

namespace Reckon.Text

/-- The code points from `first` to `last`, both included. -/
structure CodeRange where
  first : Nat
  last : Nat
deriving DecidableEq, Repr

namespace CodeRange

/-- The range contains the code point `n`. -/
def Contains (r : CodeRange) (n : Nat) : Prop := r.first ≤ n ∧ n ≤ r.last

/-- Each range is nonempty and ends before the next one starts. -/
def Sorted : List CodeRange → Prop
  | [] => True
  | [r] => r.first ≤ r.last
  | r :: s :: rest => r.first ≤ r.last ∧ r.last < s.first ∧ Sorted (s :: rest)

/-- Sortedness is decided along the list. -/
instance decidableSorted : ∀ ranges, Decidable (Sorted ranges)
  | [] => .isTrue trivial
  | [r] => inferInstanceAs (Decidable (r.first ≤ r.last))
  | r :: s :: rest =>
      have := decidableSorted (s :: rest)
      inferInstanceAs (Decidable (r.first ≤ r.last ∧ r.last < s.first ∧ Sorted (s :: rest)))

/-- Some range of the list contains `n`; the search stops at the first range
that starts above `n`. -/
def covers : List CodeRange → Nat → Bool
  | [], _ => false
  | r :: rest, n => if n < r.first then false else n ≤ r.last || covers rest n

/-- No range of a sorted list starts below its first one. -/
theorem Sorted.first_le {r : CodeRange} {rest : List CodeRange} (h : Sorted (r :: rest)) :
    ∀ s ∈ rest, r.first ≤ s.first := by
  induction rest generalizing r with
  | nil => simp
  | cons t rest ih =>
      obtain ⟨hr, hrt, ht⟩ := h
      intro s hs
      rcases List.mem_cons.1 hs with rfl | hs
      · omega
      · have := ih ht s hs
        omega

/-- The tail of a sorted list is sorted. -/
theorem Sorted.tail {r : CodeRange} {rest : List CodeRange} (h : Sorted (r :: rest)) :
    Sorted rest := by
  cases rest with
  | nil => trivial
  | cons s rest => exact h.2.2

/-- On a sorted list, `covers` is membership in one of the ranges. -/
theorem covers_iff {ranges : List CodeRange} (h : Sorted ranges) (n : Nat) :
    covers ranges n = true ↔ ∃ r ∈ ranges, r.Contains n := by
  induction ranges with
  | nil => simp [covers]
  | cons r rest ih =>
      by_cases hn : n < r.first
      · simp only [covers, hn, if_true, Bool.false_eq_true, false_iff]
        rintro ⟨s, hs, hc⟩
        rcases List.mem_cons.1 hs with rfl | hs
        · exact absurd hc.1 (by omega)
        · have := h.first_le s hs
          exact absurd hc.1 (by omega)
      · have hr : r.first ≤ n := by omega
        simp [covers, hn, ih h.tail, Contains, hr]

end CodeRange

end Reckon.Text
