import Reckon.Proofs.Decimal.Integers
import Reckon.Proofs.Lexer.Words

/-!
Lexemes: the characters that make up one token or one fault.

The grammar of lexemes is written down here without a scanner. A number or a
word goes on as far as it can, a symbol of two characters is preferred to
one of one character, and any other character is a fault by itself. The
scanner is shown to read a text by this grammar and in no other way, so
nothing but blanks is ever lost between two lexemes.

* `NumberReading`, `WordReading` and `symbols`: what a run of digits and
  points, a run of letters, and any other character come to;
* `Lexeme`: the grammar of lexemes. Which characters belong to a lexeme
  depends on those that come after it;
* `scan_lexeme` and `exists_lexeme`: a lexeme is scanned as a whole, and
  nothing but a lexeme is;
* `scan_eq_iff`: the scanner passes over blanks and then takes a lexeme.
-/

namespace Reckon.Lexer

open Text

/-! ### The grammar of lexemes -/

/-- What a run of digits and points comes to. Without a point it is the integer that the digits
denote, as long as 64 bits can hold it. -/
inductive NumberReading : List Char → Except LexError Token → Prop
  | int {literal : List Char} {n : Int64} (noPoint : '.' ∉ literal)
      (le : Nat.ofDigitChars 10 literal 0 ≤ 9223372036854775807)
      (value : n.toInt = Nat.ofDigitChars 10 literal 0) : NumberReading literal (.ok (.int n))
  | tooLarge {literal : List Char} (noPoint : '.' ∉ literal)
      (gt : 9223372036854775807 < Nat.ofDigitChars 10 literal 0) :
      NumberReading literal (.error (.integerTooLarge (String.ofList literal)))
  /-- One point with a digit before or after it: the double nearest to the decimal. -/
  | float {whole fraction : List Char} (whole_noPoint : '.' ∉ whole)
      (fraction_noPoint : '.' ∉ fraction) (digit : whole ++ fraction ≠ []) :
      NumberReading (whole ++ '.' :: fraction)
        (.ok (.float (Float.ofScientific (Nat.ofDigitChars 10 (whole ++ fraction) 0) true
          fraction.length)))
  | noDigits : NumberReading ['.'] (.error (.noDigits "."))
  | severalPoints {literal : List Char} (points : 2 ≤ literal.count '.') :
      NumberReading literal (.error (.severalPoints (String.ofList literal)))

/-- What a run of letters comes to in front of a text. Only right in front of a
parenthesis, which is left there, it is looked for among the names of the functions. -/
inductive WordReading (word rest : List Char) : Except LexError Token → Prop
  | name (apart : rest.head? ≠ some '(') : WordReading word rest (.ok (.ident (String.ofList word)))
  | function {f : Elementary} (call : rest.head? = some '(')
      (spelling : String.ofList word = f.name ∨ String.ofList word = f.upperName) :
      WordReading word rest (.ok (.function f))
  | unknown (call : rest.head? = some '(')
      (spelling : ∀ f : Elementary,
        String.ofList word ≠ f.name ∧ String.ofList word ≠ f.upperName) :
      WordReading word rest (.error (.unknownFunction (String.ofList word)))

/-- The symbols and their tokens. -/
def symbols : List (List Char × Token) :=
  [(['=', '='], .comparison .equal), (['<', '='], .comparison .lessEqual),
   (['>', '='], .comparison .greaterEqual), (['='], .assign), (['<'], .comparison .less),
   (['>'], .comparison .greater), (['+'], .arith .add), (['-'], .arith .sub),
   (['*'], .arith .mul), (['/'], .arith .div), (['('], .lparen), ([')'], .rparen)]

/-- In front of this rest, the characters are one lexeme, which comes to this token or
fault. -/
inductive Lexeme : List Char → List Char → Except LexError Token → Prop
  | number {literal rest : List Char} {outcome : Except LexError Token}
      (run : LongestRun isNumberPart literal rest) (reading : NumberReading literal outcome) :
      Lexeme literal rest outcome
  | word {word rest : List Char} {outcome : Except LexError Token}
      (run : LongestRun isLetter word rest) (reading : WordReading word rest outcome) :
      Lexeme word rest outcome
  /-- Where an equals sign comes next, it belongs to the symbol. -/
  | symbol {symbol rest : List Char} {tok : Token} (mem : (symbol, tok) ∈ symbols)
      (alone : symbol ∈ [['='], ['<'], ['>']] → rest.head? ≠ some '=') :
      Lexeme symbol rest (.ok tok)
  /-- A character that starts nothing else. -/
  | unexpected {c : Char} {rest : List Char} (notBlank : isBlank c = false)
      (notNumber : isNumberPart c = false) (notLetter : isLetter c = false)
      (notSymbol : ∀ p ∈ symbols, p.1.head? ≠ some c) :
      Lexeme [c] rest (.error (.unexpectedCharacter c))

/-! ### Numbers and words -/

variable {text lexeme blanks word literal rest : List Char} {outcome : Except LexError Token}

lemma floatToken_append {whole : List Char} (h : '.' ∉ whole) (fraction : List Char) :
    floatToken (whole ++ '.' :: fraction) =
      if whole ++ fraction = [] then
        .error (.noDigits (String.ofList (whole ++ '.' :: fraction)))
      else
        .ok (.float (Float.ofScientific (Nat.ofDigitChars 10 (whole ++ fraction) 0) true
          fraction.length)) := by
  have hrun : ∀ c ∈ whole, decide (c ≠ '.') = true := by
    intro c hc
    rw [decide_eq_true_eq]
    rintro rfl
    exact h hc
  have htake : (whole ++ '.' :: fraction).takeWhile (· ≠ '.') = whole := by
    rw [List.takeWhile_append_of_pos hrun]
    simp
  have hdrop : (whole ++ '.' :: fraction).dropWhile (· ≠ '.') = '.' :: fraction := by
    rw [List.dropWhile_append_of_pos hrun]
    simp
  simp only [floatToken, htake, hdrop, List.drop_succ_cons, List.drop_zero, Bool.and_eq_true,
    List.isEmpty_iff, List.append_eq_nil_iff, Decimal.nearest_neg]

/-- A literal with one point consists of what is before the point and what is after it. -/
lemma exists_point (h : literal.count '.' = 1) :
    ∃ whole fraction, literal = whole ++ '.' :: fraction ∧ '.' ∉ whole ∧ '.' ∉ fraction := by
  obtain ⟨whole, fraction, rfl, hwhole⟩ :=
    List.eq_append_cons_of_mem (List.count_pos_iff.1 (by omega : 0 < literal.count '.'))
  refine ⟨whole, fraction, rfl, hwhole, ?_⟩
  rw [List.count_append, List.count_cons_self, List.count_eq_zero.2 hwhole] at h
  exact List.count_eq_zero.1 (by omega)

/-- The token of a run of digits and points is what the run comes to. -/
lemma numberReading_numberToken (literal : List Char) :
    NumberReading literal (numberToken literal) := by
  rw [numberToken.eq_def]
  split
  case h_1 hcount =>
    have hpoint : '.' ∉ literal := List.count_eq_zero.1 hcount
    rw [integerToken]
    split
    case isTrue hle =>
      exact .int hpoint hle (Int64.toInt_ofNat_of_lt (Nat.lt_succ_of_le hle))
    case isFalse hlt => exact .tooLarge hpoint (Nat.lt_of_not_le hlt)
  case h_2 hcount =>
    obtain ⟨whole, fraction, rfl, hwhole, hfraction⟩ := exists_point hcount
    rw [floatToken_append hwhole]
    split
    case isTrue hnil =>
      obtain ⟨rfl, rfl⟩ := List.append_eq_nil_iff.1 hnil
      exact .noDigits
    case isFalse hdigit => exact .float hwhole hfraction hdigit
  case h_3 _ hzero hone =>
    have hpositive : literal.count '.' ≠ 0 := hzero
    have hsecond : literal.count '.' ≠ 1 := hone
    have hpoints : 2 ≤ literal.count '.' := by omega
    exact .severalPoints hpoints

/-- A run of digits and points comes to nothing but its token. -/
lemma NumberReading.eq_numberToken (h : NumberReading literal outcome) :
    outcome = numberToken literal := by
  have hlarge : Int64.maxValue.toInt.toNat = 9223372036854775807 := by decide
  cases h with
  | @int _ n noPoint le value =>
      have hvalue : n = Int64.ofNat (Nat.ofDigitChars 10 literal 0) := by
        rw [← Int64.toInt_inj, value, Int64.toInt_ofNat_of_lt (Nat.lt_succ_of_le le)]
      rw [numberToken, List.count_eq_zero.2 noPoint]
      simp only [integerToken, Decimal.value, hlarge, if_pos le, hvalue]
  | tooLarge noPoint gt =>
      rw [numberToken, List.count_eq_zero.2 noPoint]
      simp only [integerToken, Decimal.value, hlarge, if_neg (Nat.not_le_of_lt gt)]
  | @float whole fraction whole_noPoint fraction_noPoint digit =>
      have hcount : (whole ++ '.' :: fraction).count '.' = 1 := by
        rw [List.count_append, List.count_cons_self, List.count_eq_zero.2 whole_noPoint,
          List.count_eq_zero.2 fraction_noPoint]
      rw [numberToken, hcount]
      simp only [floatToken_append whole_noPoint, if_neg digit]
  | noDigits => rfl
  | severalPoints points =>
      rw [numberToken.eq_def]
      split
      case h_1 hcount => omega
      case h_2 hcount => omega
      case h_3 => rfl

lemma wordReading_wordToken (word rest : List Char) :
    WordReading word rest (wordToken word rest) := by
  rw [wordToken]
  by_cases hcall : rest.head? = some '('
  · rw [if_pos hcall]
    cases hname : Elementary.ofName? (String.ofList word) with
    | some f => exact .function hcall (Elementary.ofName?_eq_some_iff.1 hname)
    | none =>
        refine .unknown hcall fun f => not_or.1 fun hspelling => ?_
        rw [Elementary.ofName?_eq_some_iff.2 hspelling] at hname
        cases hname
  · rw [if_neg hcall]
    exact .name hcall

/-- A run of letters comes to nothing but its token. -/
lemma WordReading.eq_wordToken (h : WordReading word rest outcome) :
    outcome = wordToken word rest := by
  rw [wordToken]
  cases h with
  | name apart => rw [if_neg apart]
  | function call spelling =>
      rw [if_pos call]
      simp only [Elementary.ofName?_eq_some_iff.2 spelling]
  | unknown call spelling =>
      rw [if_pos call]
      cases hname : Elementary.ofName? (String.ofList word) with
      | none => rfl
      | some f =>
          have hor := Elementary.ofName?_eq_some_iff.1 hname
          exact absurd hor (not_or.2 (spelling f))

/-! ### Symbols and other characters -/

/-- A symbol is scanned as a whole. -/
lemma scan_symbol {symbol : List Char} {tok : Token} (mem : (symbol, tok) ∈ symbols)
    (alone : symbol ∈ [['='], ['<'], ['>']] → rest.head? ≠ some '=') :
    scan (symbol ++ rest) = (.ok tok, rest) := by
  have hall : ∀ p ∈ symbols, (p.1 ∈ [['='], ['<'], ['>']] → rest.head? ≠ some '=') →
      scan (p.1 ++ rest) = (.ok p.2, rest) := by
    simp only [symbols, List.forall_mem_cons]
    refine ⟨?_, ?_, ?_, ?_, ?_, ?_, ?_, ?_, ?_, ?_, ?_, ?_, by simp⟩
    case refine_4 | refine_5 | refine_6 =>
      intro h
      exact withEquals_of_ne (h (by decide)) _ _
    all_goals exact fun _ => rfl
  exact hall _ mem alone

/-- A character that starts no symbol is a fault. -/
lemma symbolToken_of_ne {c : Char} (h : ∀ p ∈ symbols, p.1.head? ≠ some c) (rest : List Char) :
    symbolToken c rest = (.error (.unexpectedCharacter c), rest) := by
  rw [symbolToken.eq_def]
  split
  case h_10 => rfl
  all_goals exact absurd h (by decide)

/-- Two symbols that differ in an equals sign. -/
lemma exists_lexeme_withEquals {c : Char} {double single : Token}
    (hdouble : ([c, '='], double) ∈ symbols) (hsingle : ([c], single) ∈ symbols)
    (rest : List Char) :
    ∃ lexeme, c :: rest = lexeme ++ (withEquals double single rest).2 ∧
      Lexeme lexeme (withEquals double single rest).2 (withEquals double single rest).1 := by
  rw [withEquals.eq_def]
  split
  case h_1 => exact ⟨[c, '='], rfl, .symbol hdouble (by simp)⟩
  case h_2 hne =>
    refine ⟨[c], rfl, .symbol hsingle fun _ hhead => ?_⟩
    obtain ⟨more, rfl⟩ := List.head?_eq_some_iff.1 hhead
    exact hne more rfl

/-- What starts with neither a digit, a point nor a letter is a symbol or a fault. -/
lemma exists_lexeme_symbolToken {c : Char} (notBlank : isBlank c = false)
    (notNumber : isNumberPart c = false) (notLetter : isLetter c = false) (rest : List Char) :
    ∃ lexeme, c :: rest = lexeme ++ (symbolToken c rest).2 ∧
      Lexeme lexeme (symbolToken c rest).2 (symbolToken c rest).1 := by
  have hstarts : ∀ p ∈ symbols,
      p.1.head? ∈ ['=', '<', '>', '+', '-', '*', '/', '(', ')'].map some := by decide
  by_cases hc : c ∈ ['=', '<', '>', '+', '-', '*', '/', '(', ')']
  case pos =>
    simp only [List.mem_cons, List.not_mem_nil, or_false] at hc
    rcases hc with rfl | rfl | rfl | rfl | rfl | rfl | rfl | rfl | rfl
    case inl | inr.inl | inr.inr.inl =>
      exact exists_lexeme_withEquals (by simp [symbols]) (by simp [symbols]) rest
    all_goals exact ⟨[_], rfl, .symbol (by simp [symbols]) (by simp)⟩
  case neg =>
    have hnone : ∀ p ∈ symbols, p.1.head? ≠ some c := by
      intro p hp hhead
      obtain ⟨d, hd, hdc⟩ := List.mem_map.1 (hstarts p hp)
      rw [hhead, Option.some.injEq] at hdc
      exact hc (hdc ▸ hd)
    rw [symbolToken_of_ne hnone]
    exact ⟨[c], rfl, .unexpected notBlank notNumber notLetter hnone⟩

/-! ### The scanner and the grammar -/

/-- A lexeme has a first character, which is no blank. -/
lemma Lexeme.exists_cons (h : Lexeme lexeme rest outcome) :
    ∃ c more, lexeme = c :: more ∧ isBlank c = false := by
  cases h with
  | number run reading =>
      obtain ⟨c, more, rfl, hc⟩ := run.exists_cons
      exact ⟨c, more, rfl, isBlank_eq_false_of_isNumberPart hc⟩
  | word run reading =>
      obtain ⟨c, more, rfl, hc⟩ := run.exists_cons
      exact ⟨c, more, rfl, isBlank_eq_false_of_isLetter hc⟩
  | symbol mem alone =>
      have hall : ∀ p ∈ symbols, ∃ c more, p.1 = c :: more ∧ isBlank c = false := by
        simp only [symbols, List.forall_mem_cons]
        simp +decide
      exact hall _ mem
  | unexpected notBlank notNumber notLetter notSymbol => exact ⟨_, [], rfl, notBlank⟩

/-- **A lexeme is scanned as a whole.** -/
lemma scan_lexeme (h : Lexeme lexeme rest outcome) : scan (lexeme ++ rest) = (outcome, rest) := by
  cases h with
  | number run reading => rw [scan_number run, reading.eq_numberToken]
  | word run reading => rw [scan_word run, reading.eq_wordToken]
  | symbol mem alone => exact scan_symbol mem alone
  | unexpected notBlank notNumber notLetter notSymbol =>
      rw [List.singleton_append, scan_cons_of_not_blank notBlank]
      simp only [scanAt, notNumber, notLetter, Bool.false_eq_true, if_false]
      exact symbolToken_of_ne notSymbol rest

/-- What starts with a character other than a blank starts with a lexeme. -/
lemma exists_lexeme {c : Char} (notBlank : isBlank c = false) (rest : List Char) :
    ∃ lexeme, c :: rest = lexeme ++ (scanAt c rest).2 ∧
      Lexeme lexeme (scanAt c rest).2 (scanAt c rest).1 := by
  rw [scanAt]
  split
  case isTrue hnumber =>
    exact ⟨_, List.takeWhile_append_dropWhile.symm,
      .number (.of_cons hnumber rest) (numberReading_numberToken _)⟩
  case isFalse hnumber =>
    split
    case isTrue hletter =>
      exact ⟨_, List.takeWhile_append_dropWhile.symm,
        .word (.of_cons hletter rest) (wordReading_wordToken _ _)⟩
    case isFalse hletter =>
      exact exists_lexeme_symbolToken notBlank (Bool.eq_false_iff.2 hnumber)
        (Bool.eq_false_iff.2 hletter) rest

/-- Blanks in front of a text are passed over. -/
lemma scan_append_of_blanks (h : ∀ c ∈ blanks, isBlank c = true) (text : List Char) :
    scan (blanks ++ text) = scan text := by
  rw [scan, scan, List.dropWhile_append_of_pos h]

/-- **What is scanned.** Either nothing but blanks is left, which is the end, or some blanks
are passed over and a lexeme is taken. -/
lemma scan_eq_iff : scan text = (outcome, rest) ↔
    (outcome = .ok .eof ∧ rest = [] ∧ ∀ c ∈ text, isBlank c = true) ∨
      ∃ blanks lexeme, text = blanks ++ lexeme ++ rest ∧ (∀ c ∈ blanks, isBlank c = true) ∧
        Lexeme lexeme rest outcome := by
  constructor
  · intro hscan
    have hblanks : ∀ c ∈ text.takeWhile isBlank, isBlank c = true :=
      fun _ => List.mem_takeWhile_imp
    have htext : text.takeWhile isBlank ++ text.dropWhile isBlank = text :=
      List.takeWhile_append_dropWhile
    cases hrest : text.dropWhile isBlank with
    | nil =>
        rw [hrest, List.append_nil] at htext
        rw [scan, hrest, Prod.mk.injEq] at hscan
        rw [htext] at hblanks
        exact .inl ⟨hscan.1.symm, hscan.2.symm, hblanks⟩
    | cons c more =>
        have hnotBlank : isBlank c = false := by
          have hfirst := List.head?_dropWhile_not isBlank text
          rw [hrest] at hfirst
          exact hfirst
        obtain ⟨lexeme, hlexeme, hread⟩ := exists_lexeme hnotBlank more
        have hfirst : scanAt c more = (outcome, rest) := by
          rw [scan, hrest] at hscan
          exact hscan
        rw [hfirst] at hlexeme hread
        refine .inr ⟨_, lexeme, ?_, hblanks, hread⟩
        rw [List.append_assoc, ← hlexeme, ← hrest, htext]
  · rintro (⟨rfl, rfl, hblanks⟩ | ⟨blanks, lexeme, rfl, hblanks, hread⟩)
    · rw [scan, List.dropWhile_eq_nil_iff.2 hblanks]
    · rw [List.append_assoc, scan_append_of_blanks hblanks, scan_lexeme hread]

end Reckon.Lexer
