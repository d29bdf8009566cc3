import Reckon.Text.Range

/-!
Blank characters: the Unicode property White_Space.

* `isBlank`: the character has the property. `isBlank_iff` says that it
  lies in one of the ranges of the table;
* `trim`: a text without the blanks at its two ends.
-/

namespace Reckon.Text

/-- The code points with the property White_Space. -/
def blankRanges : List CodeRange :=
  [⟨0x9, 0xD⟩, ⟨0x20, 0x20⟩, ⟨0x85, 0x85⟩, ⟨0xA0, 0xA0⟩, ⟨0x1680, 0x1680⟩,
   ⟨0x2000, 0x200A⟩, ⟨0x2028, 0x2029⟩, ⟨0x202F, 0x202F⟩, ⟨0x205F, 0x205F⟩,
   ⟨0x3000, 0x3000⟩]

/-- The character is blank: it separates tokens and means nothing else. -/
def isBlank (c : Char) : Bool := CodeRange.covers blankRanges c.toNat

/-- The text without the blanks at its two ends. -/
def trim (cs : List Char) : List Char :=
  ((cs.dropWhile isBlank).reverse.dropWhile isBlank).reverse

/-- The table of blank characters is in order. -/
theorem sorted_blankRanges : CodeRange.Sorted blankRanges := by decide

/-- A blank is a character in one of the ranges. -/
theorem isBlank_iff {c : Char} : isBlank c = true ↔ ∃ r ∈ blankRanges, r.Contains c.toNat :=
  CodeRange.covers_iff sorted_blankRanges c.toNat

/-- Every character that the core library calls a whitespace is blank. -/
theorem isBlank_of_isWhitespace {c : Char} (h : c.isWhitespace = true) : isBlank c = true := by
  simp only [Char.isWhitespace, Bool.or_eq_true, decide_eq_true_eq] at h
  rcases h with ((rfl | rfl) | rfl) | rfl <;> decide

end Reckon.Text
