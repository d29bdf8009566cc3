import Reckon.Proofs.Lexer.Lexeme

/-!
Texts cut into lexemes.

A whole text is blanks and lexemes in turn, without a gap, and there is one
way to see it so. Where two texts are put side by side, only the last lexeme
of the first one could change, so the tokens stay what they were if nothing
at the start of the second text can be drawn into it.

* `Splits`: the text is cut into blanks and lexemes;
* `splits_iff`: there is one way to do so, and the lexer finds it;
* `next_maximal_munch`: the main statement, for every place in a text;
* `Separates`: what may follow a text without a change to its tokens;
* `outcomes_append`: the tokens and faults of two texts side by side;
* `isWord_of_mem_outcomes`: the names that occur in a text are words.
-/

namespace Reckon.Lexer

open Text

variable {text lexeme blanks rest : List Char} {outcome : Except LexError Token}

/-! ### Whole texts -/

/-- The text is cut into blanks and lexemes, which come to these tokens and faults. -/
inductive Splits : List Char → List (Except LexError Token) → Prop
  | nil {blanks : List Char} (allBlank : ∀ c ∈ blanks, isBlank c = true) : Splits blanks []
  | cons {blanks lexeme rest : List Char} {outcome : Except LexError Token}
      {more : List (Except LexError Token)} (allBlank : ∀ c ∈ blanks, isBlank c = true)
      (first : Lexeme lexeme rest outcome) (others : Splits rest more) :
      Splits (blanks ++ lexeme ++ rest) (outcome :: more)

/-- A lexeme is not the end of the text. -/
lemma Lexeme.ne_eof (h : Lexeme lexeme rest outcome) : outcome ≠ .ok .eof := by
  rintro rfl
  have hscan := scan_lexeme h
  have hend : (scan (lexeme ++ rest)).1 = .ok .eof := by rw [hscan]
  obtain ⟨c, more, rfl, hc⟩ := h.exists_cons
  have hblank := scan_eof_iff.1 hend
  rw [List.cons_append, List.dropWhile_cons_of_neg (by simp [hc])] at hblank
  cases hblank

/-- Nothing but blanks has no tokens and no faults. -/
lemma outcomes_of_blanks (h : ∀ c ∈ blanks, isBlank c = true) : outcomes blanks = [] :=
  outcomes_of_end (scan_eof_iff.2 (List.dropWhile_eq_nil_iff.2 h))

lemma outcomes_nil : outcomes [] = [] := outcomes_of_blanks (by simp)

/-- Blanks in front of a text do not matter. -/
lemma outcomes_blanks_append (h : ∀ c ∈ blanks, isBlank c = true) (text : List Char) :
    outcomes (blanks ++ text) = outcomes text := by
  rw [outcomes.eq_def (blanks ++ text), outcomes.eq_def text, scan_append_of_blanks h]

/-- The first lexeme of a text comes to its first token or fault. -/
lemma outcomes_lexeme_append (h : Lexeme lexeme rest outcome) :
    outcomes (lexeme ++ rest) = outcome :: outcomes rest := by
  have hscan : scan (lexeme ++ rest) = (outcome, rest) := scan_lexeme h
  rw [outcomes_of_not_end (by rw [hscan]; exact h.ne_eof), hscan]

/-- A lexeme that is a whole text. -/
lemma outcomes_of_lexeme (h : Lexeme text [] outcome) : outcomes text = [outcome] := by
  have hcut := outcomes_lexeme_append h
  rwa [List.append_nil, outcomes_nil] at hcut

lemma splits_outcomes (text : List Char) : Splits text (outcomes text) := by
  induction text using outcomes.induct with
  | case1 text hend =>
      have heof : (scan text).1 = .ok .eof := isEnd_iff.1 hend
      rw [outcomes_of_end heof]
      exact .nil (List.dropWhile_eq_nil_iff.1 (scan_eof_iff.1 heof))
  | case2 text hend ih =>
      have heof : (scan text).1 ≠ .ok .eof := fun h => hend (isEnd_iff.2 h)
      rw [outcomes_of_not_end heof]
      rcases scan_eq_iff.1 (Prod.eta (scan text)).symm with
        ⟨houtcome, -, -⟩ | ⟨blanks, lexeme, htext, hblanks, hread⟩
      · exact absurd houtcome heof
      · have hcut := Splits.cons hblanks hread ih
        rwa [← htext] at hcut

/-- **There is one way to cut a text.** It is the one that the lexer finds. -/
lemma splits_iff {os : List (Except LexError Token)} : outcomes text = os ↔ Splits text os := by
  constructor
  · rintro rfl
    exact splits_outcomes text
  · intro h
    induction h with
    | nil allBlank => exact outcomes_of_blanks allBlank
    | cons allBlank first others ih =>
        rw [List.append_assoc, outcomes_blanks_append allBlank, outcomes_lexeme_append first, ih]

/-! ### The lexer -/

/-- **The longest lexeme, and no character lost.** At every place in a text, the next token is
the end exactly if only blanks are left, and else the one of the lexeme after the blanks, which
is as long as it can be; what comes after it is left. So a text is cut into blanks and lexemes
without a gap, in one way only. -/
theorem next_maximal_munch :
    (∀ (l l' : Lexer) (outcome : Except LexError Token),
      l.next = (outcome, l') ↔
        l'.text = l.text ∧
          ((outcome = .ok .eof ∧ l'.rest = [] ∧ ∀ c ∈ l.rest, isBlank c = true) ∨
            ∃ blanks lexeme, l.rest = blanks ++ lexeme ++ l'.rest ∧
              (∀ c ∈ blanks, isBlank c = true) ∧ lexeme ≠ [] ∧
              (∀ c ∈ lexeme.head?, isBlank c = false) ∧ Lexeme lexeme l'.rest outcome)) ∧
      ∀ (text : List Char) (os : List (Except LexError Token)),
        outcomes text = os ↔ Splits text os := by
  refine ⟨fun ⟨text, before⟩ ⟨text', after⟩ outcome => ?_, fun _ _ => splits_iff⟩
  have hnext : (⟨text, before⟩ : Lexer).next = (outcome, ⟨text', after⟩) ↔
      text' = text ∧ scan before = (outcome, after) := by
    rw [Prod.ext_iff, Prod.ext_iff, next_fst, next_snd, Lexer.mk.injEq]
    exact ⟨fun h => ⟨h.2.1.symm, h.1, h.2.2⟩, fun h => ⟨h.2.1, h.1.symm, h.2.2⟩⟩
  rw [hnext, scan_eq_iff]
  refine and_congr_right fun _ => or_congr_right (exists_congr fun blanks =>
    exists_congr fun lexeme => and_congr_right fun _ => and_congr_right fun _ => ?_)
  constructor
  · intro hread
    obtain ⟨c, more, rfl, hc⟩ := hread.exists_cons
    refine ⟨List.cons_ne_nil c more, fun d hd => ?_, hread⟩
    rw [List.head?_cons, Option.mem_some_iff] at hd
    exact hd ▸ hc
  · rintro ⟨-, -, hread⟩
    exact hread

/-- A word ends where a digit stands, and of the signs the longest one is taken. -/
example : outcomes "ab12<==pow(".toList =
    [.ok (.ident "ab"), .ok (.int 12), .ok (.comparison .lessEqual), .ok .assign,
      .ok (.function .pow), .ok .lparen] := by
  with_unfolding_all rfl

/-! ### Texts side by side -/

variable {b : List Char}

/-- Nothing at the start of the text can be drawn into a lexeme in front of it: it does not go
on with a number or a word, call a function or make a sign longer. -/
def Separates (b : List Char) : Prop :=
  ∀ c ∈ b.head?, isNumberPart c = false ∧ isLetter c = false ∧ c ≠ '(' ∧ c ≠ '='

/-- The first character of two texts side by side is one of the two first characters. -/
lemma forall_head?_append {p : Char → Prop} (hrest : ∀ c ∈ rest.head?, p c)
    (hb : ∀ c ∈ b.head?, p c) : ∀ c ∈ (rest ++ b).head?, p c := by
  cases rest with
  | nil => exact hb
  | cons c rest => exact hrest

/-- A lexeme stays a lexeme if the text after it is continued. -/
lemma Lexeme.append (h : Lexeme lexeme rest outcome) (hb : Separates b) :
    Lexeme lexeme (rest ++ b) outcome := by
  have hnot : ∀ d, (∀ c ∈ b.head?, c ≠ d) → rest.head? ≠ some d → (rest ++ b).head? ≠ some d :=
    fun d hd hrest hhead => forall_head?_append (p := (· ≠ d))
      (fun c hc hcd => hrest (hcd ▸ hc)) hd d hhead rfl
  have hcall : rest.head? = some '(' → (rest ++ b).head? = some '(' := by
    intro hhead
    rw [List.head?_append, hhead, Option.some_or]
  cases h with
  | number run reading =>
      exact .number ⟨run.ne_nil, run.all,
        forall_head?_append run.stop fun c hc => (hb c hc).1⟩ reading
  | word run reading =>
      refine .word ⟨run.ne_nil, run.all,
        forall_head?_append run.stop fun c hc => (hb c hc).2.1⟩ ?_
      cases reading with
      | name apart => exact .name (hnot '(' (fun c hc => (hb c hc).2.2.1) apart)
      | function call spelling => exact .function (hcall call) spelling
      | unknown call spelling => exact .unknown (hcall call) spelling
  | symbol mem alone =>
      exact .symbol mem fun hmem => hnot '=' (fun c hc => (hb c hc).2.2.2) (alone hmem)
  | unexpected notBlank notNumber notLetter notSymbol =>
      exact .unexpected notBlank notNumber notLetter notSymbol

/-- **The tokens of two texts side by side** are those of the one and then those of the
other. -/
lemma outcomes_append (a : List Char) (hb : Separates b) :
    outcomes (a ++ b) = outcomes a ++ outcomes b := by
  have hsplits : ∀ os, Splits a os → outcomes (a ++ b) = os ++ outcomes b := by
    intro os h
    induction h with
    | nil allBlank => exact outcomes_blanks_append allBlank b
    | cons allBlank first others ih =>
        rw [List.append_assoc, List.append_assoc, outcomes_blanks_append allBlank,
          outcomes_lexeme_append (first.append hb), ih, List.cons_append]
  exact hsplits _ (splits_outcomes a)

/-- A blank separates. -/
lemma separates_cons_of_blank {c : Char} (h : isBlank c = true) (rest : List Char) :
    Separates (c :: rest) := by
  intro d hd
  obtain rfl : c = d := Option.some.inj hd
  refine ⟨?_, ?_, ?_, ?_⟩
  · rw [Bool.eq_false_iff]
    intro hnumber
    cases h.symm.trans (isBlank_eq_false_of_isNumberPart hnumber)
  · rw [Bool.eq_false_iff]
    intro hletter
    cases h.symm.trans (isBlank_eq_false_of_isLetter hletter)
  · rintro rfl
    cases h
  · rintro rfl
    cases h

/-- A sign that no other sign begins with is a token by itself. -/
lemma outcomes_sign_cons {c : Char} {tok : Token} (mem : ([c], tok) ∈ symbols)
    (alone : [c] ∉ [['='], ['<'], ['>']]) (rest : List Char) :
    outcomes (c :: rest) = .ok tok :: outcomes rest :=
  outcomes_lexeme_append (.symbol mem fun hmem => absurd hmem alone)

lemma outcomes_lparen_cons (rest : List Char) :
    outcomes ('(' :: rest) = .ok .lparen :: outcomes rest :=
  outcomes_sign_cons (by simp [symbols]) (by decide) rest

lemma outcomes_rparen_cons (rest : List Char) :
    outcomes (')' :: rest) = .ok .rparen :: outcomes rest :=
  outcomes_sign_cons (by simp [symbols]) (by decide) rest

/-- A closing parenthesis separates. -/
lemma separates_rparen_cons (rest : List Char) : Separates (')' :: rest) := by
  intro c hc
  obtain rfl : ')' = c := Option.some.inj hc
  decide +kernel

/-- The sign of an operator is a token by itself. -/
lemma outcomes_operator_append (op : ArithOp) (rest : List Char) :
    outcomes (op.symbol.toList ++ rest) = .ok (.arith op) :: outcomes rest := by
  cases op with
  | add => exact outcomes_sign_cons (c := '+') (by simp [symbols]) (by decide) rest
  | sub => exact outcomes_sign_cons (c := '-') (by simp [symbols]) (by decide) rest
  | mul => exact outcomes_sign_cons (c := '*') (by simp [symbols]) (by decide) rest
  | div => exact outcomes_sign_cons (c := '/') (by simp [symbols]) (by decide) rest

/-- The name of a function right in front of a parenthesis calls the function. -/
lemma outcomes_function_append (f : Elementary) (rest : List Char) :
    outcomes (f.name.toList ++ '(' :: rest) = .ok (.function f) :: outcomes ('(' :: rest) := by
  have hrun : LongestRun isLetter f.name.toList ('(' :: rest) := by
    refine ⟨by cases f <;> decide, (isWord_spelling f).1.letters, fun c hc => ?_⟩
    obtain rfl : '(' = c := Option.some.inj hc
    decide +kernel
  exact outcomes_lexeme_append (.word hrun (.function rfl (.inl String.ofList_toList)))

/-- An integer that is not negative is read as it is written. -/
lemma lexeme_int {n : Int64} (h : 0 ≤ n.toInt) (hrest : Separates rest) :
    Lexeme (Token.int n).render.toList rest (.ok (.int n)) := by
  have htext : (Token.int n).render.toList = Decimal.natural n.toInt.natAbs := by
    rw [Token.render, String.toList_ofList, Decimal.integer, if_neg (Int.not_lt.2 h)]
  have hdigits : ∀ c ∈ Decimal.natural n.toInt.natAbs, c.isDigit = true :=
    fun c hc => Decimal.isDigit_of_mem_natural hc
  have hpoint : '.' ∉ Decimal.natural n.toInt.natAbs := by
    intro hmem
    cases hdigits '.' hmem
  have hle : n.toInt ≤ 9223372036854775807 := n.toInt_le
  have hvalue : Nat.ofDigitChars 10 (Decimal.natural n.toInt.natAbs) 0 = n.toInt.natAbs :=
    Decimal.value_natural _
  rw [htext]
  exact .number ⟨Nat.toDigits_ne_nil, fun c hc => isNumberPart_of_isDigit (hdigits c hc),
    fun c hc => (hrest c hc).1⟩ (.int hpoint (by omega) (by omega))

/-- A word is read as a name. -/
lemma lexeme_ident {name : String} (h : IsWord name) (hrest : Separates rest) :
    Lexeme name.toList rest (.ok (.ident name)) := by
  have hreading : WordReading name.toList rest (.ok (.ident (String.ofList name.toList))) :=
    .name fun hhead => (hrest '(' hhead).2.2.1 rfl
  rw [String.ofList_toList] at hreading
  exact .word ⟨by simpa using h.ne_empty, h.letters, fun c hc => (hrest c hc).2.1⟩ hreading

/-! ### Names in a text -/

/-- A lexeme that comes to a name is that name. -/
lemma Lexeme.of_ident {name : String} (h : Lexeme lexeme rest (.ok (.ident name))) :
    lexeme = name.toList ∧ LongestRun isLetter lexeme rest := by
  cases h with
  | number run reading => cases reading
  | word run reading =>
      cases reading with
      | name apart => exact ⟨String.toList_ofList.symm, run⟩
  | symbol mem alone => simp [symbols] at mem

lemma Splits.isWord_of_ident {name : String} {os : List (Except LexError Token)}
    (h : Splits text os) (hmem : .ok (.ident name) ∈ os) : IsWord name := by
  induction h with
  | nil allBlank => cases hmem
  | cons allBlank first others ih =>
      rcases List.mem_cons.1 hmem with rfl | hmem
      · obtain ⟨rfl, run⟩ := first.of_ident
        exact ⟨fun hempty => run.ne_nil (by rw [hempty]; rfl), run.all⟩
      · exact ih hmem

/-- Every name that occurs in a text is a word. -/
lemma isWord_of_mem_outcomes {name : String} (h : .ok (.ident name) ∈ outcomes text) :
    IsWord name :=
  (splits_outcomes text).isWord_of_ident h

end Reckon.Lexer
