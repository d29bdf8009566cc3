import Reckon.Proofs.Lexer.Calls

/-!
What stands behind a function.

The lexer looks one character ahead to tell a function from a variable: only
a word right in front of a parenthesis is looked up among the functions. The
parenthesis is left where it is, so it is the next token, and no token comes
between a function and its parenthesis. A word that blanks keep apart from
the parenthesis is a variable, whatever its spelling.

* `next_of_function`: behind a function comes a parenthesis;
* `isWord_of_next` and `nonneg_of_next`: names are words, and integers are
  not negative;
* `outcomes_word_apart` and `next_word_apart`: a word apart from a parenthesis.
-/

namespace Reckon.Lexer

open Text

variable {l : Lexer} {lexeme before blanks rest : List Char} {tok : Token} {f : Elementary}
  {word name : String} {n : Int64}

/-! ### The characters of a token -/

lemma Lexeme.head?_of_function (h : Lexeme lexeme rest (.ok (.function f))) :
    rest.head? = some '(' := by
  cases h with
  | number run reading => cases reading
  | word run reading =>
      cases reading with
      | function call spelling => exact call
  | symbol mem alone => simp [symbols] at mem

lemma Lexeme.nonneg_of_int (h : Lexeme lexeme rest (.ok (.int n))) : 0 ≤ n.toInt := by
  cases h with
  | number run reading =>
      cases reading with
      | int noPoint le value => exact value ▸ Int.natCast_nonneg _
  | word run reading => cases reading
  | symbol mem alone => simp [symbols] at mem

/-- What a call comes to is a lexeme in front of what it leaves. -/
lemma exists_lexeme_of_next (h : l.next.1 = .ok tok) (hne : tok ≠ .eof) :
    ∃ lexeme, Lexeme lexeme l.next.2.rest (.ok tok) := by
  have hscan : scan l.rest = (.ok tok, l.next.2.rest) := Prod.ext h rfl
  rcases scan_eq_iff.1 hscan with ⟨heof, -, -⟩ | ⟨blanks, lexeme, -, -, hread⟩
  · exact absurd (Except.ok.inj heof) hne
  · exact ⟨lexeme, hread⟩

/-! ### One call after the other -/

/-- **Behind a function comes a parenthesis**, and nothing in between. -/
lemma next_of_function (h : l.next.1 = .ok (.function f)) : l.next.2.next.1 = .ok .lparen := by
  obtain ⟨lexeme, hread⟩ := exists_lexeme_of_next h (by simp)
  obtain ⟨more, hmore⟩ := List.head?_eq_some_iff.1 hread.head?_of_function
  have hsymbol : (['('], Token.lparen) ∈ symbols := by simp [symbols]
  have hparen : scan ('(' :: more) = (.ok .lparen, more) :=
    scan_symbol hsymbol fun hmem => absurd hmem (by decide)
  rw [next_fst, hmore, hparen]

/-- A name is a word. -/
lemma isWord_of_next (h : l.next.1 = .ok (.ident name)) : IsWord name := by
  obtain ⟨lexeme, hread⟩ := exists_lexeme_of_next h (by simp)
  obtain ⟨rfl, run⟩ := hread.of_ident
  exact ⟨fun hempty => run.ne_nil (by rw [hempty]; rfl), run.all⟩

/-- An integer in a text has no sign. -/
lemma nonneg_of_next (h : l.next.1 = .ok (.int n)) : 0 ≤ n.toInt := by
  obtain ⟨lexeme, hread⟩ := exists_lexeme_of_next h (by simp)
  exact hread.nonneg_of_int

/-! ### Words apart from a parenthesis -/

/-- **Apart from a parenthesis**, every word is a name. -/
lemma outcomes_word_apart (hword : IsWord word) (hblanks : ∀ c ∈ before ++ blanks, isBlank c = true)
    (hne : blanks ≠ []) (rest : List Char) :
    outcomes (before ++ (word.toList ++ (blanks ++ '(' :: rest))) =
      .ok (.ident word) :: .ok .lparen :: outcomes rest := by
  rw [List.forall_mem_append] at hblanks
  have hread : Lexeme word.toList (blanks ++ '(' :: rest) (.ok (.ident word)) :=
    lexeme_ident hword (separates_blanks_append hne hblanks.2 _)
  rw [outcomes_blanks_append hblanks.1, outcomes_lexeme_append hread,
    outcomes_blanks_append hblanks.2, outcomes_lparen_cons]

/-- The call where such a word comes next, and the one after it. -/
lemma next_word_apart (hword : IsWord word) (hblanks : ∀ c ∈ before ++ blanks, isBlank c = true)
    (hne : blanks ≠ []) (hl : l.rest = before ++ (word.toList ++ (blanks ++ '(' :: rest))) :
    l.next.1 = .ok (.ident word) ∧ l.next.2.next.1 = .ok .lparen := by
  have houtcomes : outcomes l.rest = _ := hl ▸ outcomes_word_apart hword hblanks hne rest
  constructor
  · show l.call 0 = _
    rw [call_eq, houtcomes]
    rfl
  · show l.call 1 = _
    rw [call_eq, houtcomes]
    rfl

end Reckon.Lexer
