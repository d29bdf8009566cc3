import Mathlib.Data.List.TakeWhile
import Mathlib.Tactic.Lemma
import Reckon.Lexer

/-!
Words, blanks and signs at the start of a text.

A letter is neither a blank nor a character of a number. So a word is read
as one name, up to the character after it, and the rest of the text is read
as if the word had not been there. A number is read in the same way.

* `isBlank_eq_false_of_isLetter` and `isNumberPart_eq_false_of_isLetter`:
  what a letter is not;
* `Text.IsWord`: names that can be written in a text. `Text.isWord_spelling`:
  those of the functions are among them;
* `LongestRun`: a run of characters of one kind, and what ends it;
* `scan_number` and `scan_word`: such a run is scanned as a whole;
* `EndsWord`: what may follow a word for it to be a name;
* `outcomes_cons_of_blank`, `outcomes_word_append` and `outcomes_assign_cons`:
  the tokens and faults of a text that starts with a blank, with a word or
  with an assignment sign.
-/

namespace Reckon

namespace Text

/-! ### Letters among the characters -/

/-- The ranges of the blanks, gone through one code point after the other, have no letter. -/
lemma covers_letterRanges_of_blank : ∀ r ∈ blankRanges,
    ∀ n ∈ List.range' r.first (r.last + 1 - r.first), CodeRange.covers letterRanges n = false := by
  decide +kernel

lemma isBlank_eq_false_of_isLetter {c : Char} (h : isLetter c = true) : isBlank c = false := by
  rw [Bool.eq_false_iff]
  intro hblank
  obtain ⟨r, hr, hfirst, hlast⟩ := isBlank_iff.1 hblank
  have hmem : c.toNat ∈ List.range' r.first (r.last + 1 - r.first) :=
    List.mem_range'_1.2 ⟨hfirst, by omega⟩
  have hletter : isLetter c = false := covers_letterRanges_of_blank r hr c.toNat hmem
  rw [h] at hletter
  cases hletter

/-- The first letter in the order of the code points is `A`. -/
lemma le_toNat_of_isLetter {c : Char} (h : isLetter c = true) : 0x41 ≤ c.toNat := by
  obtain ⟨r, hr, hc⟩ := isLetter_iff.1 h
  have hfirst : 0x41 ≤ r.first := by
    rcases List.mem_cons.1 hr with rfl | hr
    · exact Nat.le_refl _
    · exact sorted_letterRanges.first_le r hr
  exact Nat.le_trans hfirst hc.1

/-- The name is a word: it consists of letters. -/
structure IsWord (name : String) : Prop where
  ne_empty : name ≠ ""
  letters : ∀ c ∈ name.toList, isLetter c = true

/-- Some characters stand in no word. -/
lemma IsWord.notMem {name : String} {c : Char} (h : IsWord name) (hc : isLetter c = false) :
    c ∉ name.toList := by
  intro hmem
  cases hc.symm.trans (h.letters c hmem)

/-- A name in the letters of the Latin alphabet is a word. -/
lemma isWord_of_isAlpha {name : String} (hne : name ≠ "")
    (hall : name.toList.all Char.isAlpha = true) : IsWord name :=
  ⟨hne, fun c hc => isLetter_of_isAlpha (List.all_eq_true.1 hall c hc)⟩

/-- The functions have words as names. -/
lemma isWord_spelling (f : Elementary) : IsWord f.name ∧ IsWord f.upperName := by
  constructor <;> exact isWord_of_isAlpha (by cases f <;> decide) (by cases f <;> decide)

end Text

namespace Lexer

open Text

/-- Digits and the decimal point come before the letters. -/
lemma isNumberPart_eq_false_of_isLetter {c : Char} (h : isLetter c = true) :
    isNumberPart c = false := by
  have hle : 0x41 ≤ c.toNat := le_toNat_of_isLetter h
  rw [isNumberPart, Bool.or_eq_false_iff]
  constructor
  · rw [decide_eq_false_iff_not]
    rintro rfl
    exact absurd hle (by decide)
  · rw [Bool.eq_false_iff]
    intro hdigit
    have hlast : c.toNat ≤ 0x39 := (Char.isDigit_iff_toNat.1 hdigit).2
    omega

/-- A digit belongs to a number. -/
lemma isNumberPart_of_isDigit {c : Char} (h : c.isDigit = true) : isNumberPart c = true := by
  rw [isNumberPart, h, Bool.or_true]

/-- Neither the decimal point nor a digit is among the ranges of the blanks. -/
lemma isBlank_eq_false_of_isNumberPart {c : Char} (h : isNumberPart c = true) :
    isBlank c = false := by
  have hrange : 0x2E ≤ c.toNat ∧ c.toNat ≤ 0x39 := by
    rw [isNumberPart, Bool.or_eq_true, decide_eq_true_eq] at h
    rcases h with rfl | hdigit
    · decide
    · have hfirst : 0x30 ≤ c.toNat := (Char.isDigit_iff_toNat.1 hdigit).1
      exact ⟨by omega, (Char.isDigit_iff_toNat.1 hdigit).2⟩
  have hapart : ∀ r ∈ blankRanges, r.last < 0x2E ∨ 0x39 < r.first := by decide
  rw [Bool.eq_false_iff]
  intro hblank
  obtain ⟨r, hr, hfirst, hlast⟩ := isBlank_iff.1 hblank
  have hdisjoint := hapart r hr
  omega

/-! ### Runs of characters -/

/-- The run consists of characters of one kind, and none of them comes right after it. -/
structure LongestRun (p : Char → Bool) (run rest : List Char) : Prop where
  ne_nil : run ≠ []
  all : ∀ c ∈ run, p c = true
  stop : ∀ c ∈ rest.head?, p c = false

namespace LongestRun

variable {p : Char → Bool} {run rest : List Char}

lemma takeWhile_eq (h : LongestRun p run rest) : (run ++ rest).takeWhile p = run := by
  rw [List.takeWhile_append_of_pos h.all]
  cases rest with
  | nil => simp
  | cons d rest => simp [h.stop d rfl]

lemma dropWhile_eq (h : LongestRun p run rest) : (run ++ rest).dropWhile p = rest := by
  rw [List.dropWhile_append_of_pos h.all]
  cases rest with
  | nil => rfl
  | cons d rest => simp [h.stop d rfl]

/-- A run has a first character. -/
lemma exists_cons (h : LongestRun p run rest) : ∃ c more, run = c :: more ∧ p c = true := by
  cases run with
  | nil => exact absurd rfl h.ne_nil
  | cons c more => exact ⟨c, more, rfl, h.all c List.mem_cons_self⟩

/-- The characters of a text that are taken as long as they are of one kind. -/
lemma of_cons {c : Char} (h : p c = true) (rest : List Char) :
    LongestRun p ((c :: rest).takeWhile p) ((c :: rest).dropWhile p) where
  ne_nil := by simp [h]
  all := fun _ hd => List.mem_takeWhile_imp hd
  stop := by
    intro d hd
    have hfirst := List.head?_dropWhile_not p (c :: rest)
    rw [Option.mem_def.1 hd] at hfirst
    exact hfirst

end LongestRun

/-! ### The start of a text -/

variable {c : Char} {word literal rest : List Char}

/-- A blank in front of a text is passed over. -/
lemma scan_cons_of_blank (h : isBlank c = true) (rest : List Char) :
    scan (c :: rest) = scan rest := by
  rw [scan, scan, List.dropWhile_cons_of_pos h]

/-- What is not blank is scanned. -/
lemma scan_cons_of_not_blank (h : isBlank c = false) (rest : List Char) :
    scan (c :: rest) = scanAt c rest := by
  rw [scan, List.dropWhile_cons_of_neg (by simp [h])]

/-- A run of digits and points is scanned as a whole. -/
lemma scan_number (h : LongestRun isNumberPart literal rest) :
    scan (literal ++ rest) = (numberToken literal, rest) := by
  have htake := h.takeWhile_eq
  have hdrop := h.dropWhile_eq
  obtain ⟨c, more, rfl, hc⟩ := h.exists_cons
  rw [List.cons_append] at htake hdrop ⊢
  rw [scan_cons_of_not_blank (isBlank_eq_false_of_isNumberPart hc)]
  simp only [scanAt, hc, htake, hdrop, if_true]

/-- A run of letters is scanned as a whole. -/
lemma scan_word (h : LongestRun isLetter word rest) :
    scan (word ++ rest) = (wordToken word rest, rest) := by
  have htake := h.takeWhile_eq
  have hdrop := h.dropWhile_eq
  obtain ⟨c, more, rfl, hc⟩ := h.exists_cons
  rw [List.cons_append] at htake hdrop ⊢
  rw [scan_cons_of_not_blank (isBlank_eq_false_of_isLetter hc)]
  simp only [scanAt, isNumberPart_eq_false_of_isLetter hc, hc, htake, hdrop, if_true,
    Bool.false_eq_true, if_false]

/-- Where no equals sign comes next, nothing is consumed. -/
lemma withEquals_of_ne (h : rest.head? ≠ some '=') (double single : Token) :
    withEquals double single rest = (.ok single, rest) := by
  rw [withEquals.eq_def]
  split
  case h_1 => exact absurd rfl h
  case h_2 => rfl

/-- A text that starts with neither a letter nor a parenthesis ends the word in front of it,
which is no name of a function. -/
def EndsWord (rest : List Char) : Prop := ∀ c ∈ rest.head?, isLetter c = false ∧ c ≠ '('

/-- A word is scanned up to its end. -/
lemma scan_word_append (hword : word ≠ []) (hletters : ∀ c ∈ word, isLetter c = true)
    (hrest : EndsWord rest) :
    scan (word ++ rest) = (.ok (.ident (String.ofList word)), rest) := by
  have hafter : rest.head? ≠ some '(' := fun hhead => (hrest '(' hhead).2 rfl
  rw [scan_word ⟨hword, hletters, fun c hc => (hrest c hc).1⟩, wordToken, if_neg hafter]

/-! ### What the whole text comes to -/

lemma outcomes_cons_of_blank (h : isBlank c = true) (rest : List Char) :
    outcomes (c :: rest) = outcomes rest := by
  rw [outcomes.eq_def (c :: rest), outcomes.eq_def rest, scan_cons_of_blank h]

/-- A word is a name, unless it stands in front of a parenthesis. -/
lemma outcomes_word_append (hword : word ≠ []) (hletters : ∀ c ∈ word, isLetter c = true)
    (hrest : EndsWord rest) :
    outcomes (word ++ rest) = .ok (.ident (String.ofList word)) :: outcomes rest := by
  have hscan : scan (word ++ rest) = _ := scan_word_append hword hletters hrest
  rw [outcomes_of_not_end (by simp [hscan]), hscan]

/-- An equals sign is an assignment sign, unless another one follows it at once. -/
lemma outcomes_assign_cons (h : rest.head? ≠ some '=') :
    outcomes ('=' :: rest) = .ok .assign :: outcomes rest := by
  have hscan : scan ('=' :: rest) = (.ok .assign, rest) := withEquals_of_ne h _ _
  rw [outcomes_of_not_end (by simp [hscan]), hscan]

end Lexer

end Reckon
