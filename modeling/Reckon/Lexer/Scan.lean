import Reckon.Decimal.Reading
import Reckon.Error
import Reckon.Text.Blank
import Reckon.Text.Letter

/-!
The first token of a text.

Blanks are skipped, and the character after them says what follows: a
number, a word, or a symbol. Numbers and words are as long as they can be.
Where there is no token, the faulty characters are consumed like a token,
so that reading can go on behind them.

* `numberToken`, `wordToken` and `symbolToken`: the token of a run of
  number characters, of a run of letters, and of any other character;
* `scan`: the first token of a text, or its fault, and the text after it;
* `scan_eof_iff`: the end is reported exactly for a text of blanks;
* `scan_shortens`: everything else consumes at least one character.
-/

namespace Reckon.Lexer

open Text

/-- The character belongs to a number: it is a digit or the decimal point. -/
def isNumberPart (c : Char) : Bool := c = '.' || c.isDigit

/-- The token of digits without a point. -/
def integerToken (digits : List Char) : Except LexError Token :=
  let n := Decimal.value digits
  if n ≤ Int64.maxValue.toInt.toNat then .ok (.int (Int64.ofNat n))
  else .error (.integerTooLarge (String.ofList digits))

/-- The token of digits with one point among them. -/
def floatToken (literal : List Char) : Except LexError Token :=
  let whole := literal.takeWhile (· ≠ '.')
  let fraction := (literal.dropWhile (· ≠ '.')).drop 1
  if whole.isEmpty && fraction.isEmpty then .error (.noDigits (String.ofList literal))
  else .ok (.float (Decimal.nearest (whole ++ fraction) (-fraction.length)))

/-- The token of a run of digits and points. -/
def numberToken (literal : List Char) : Except LexError Token :=
  match literal.count '.' with
  | 0 => integerToken literal
  | 1 => floatToken literal
  | _ => .error (.severalPoints (String.ofList literal))

/-- The token of a run of letters with this text after it. In front of a
parenthesis, which is left where it is, the word is the name of a function. -/
def wordToken (word after : List Char) : Except LexError Token :=
  let text := String.ofList word
  if after.head? = some '(' then
    match Elementary.ofName? text with
    | some f => .ok (.function f)
    | none => .error (.unknownFunction text)
  else
    .ok (.ident text)

/-- The token `double` if an equals sign comes next, which is consumed, and else
the token `single`. -/
def withEquals (double single : Token) : List Char → Except LexError Token × List Char
  | '=' :: rest => (.ok double, rest)
  | rest => (.ok single, rest)

/-- The token that starts with a character that is neither a number character
nor a letter, and the text after it. -/
def symbolToken (c : Char) (rest : List Char) : Except LexError Token × List Char :=
  match c with
  | '=' => withEquals (.comparison .equal) .assign rest
  | '<' => withEquals (.comparison .lessEqual) (.comparison .less) rest
  | '>' => withEquals (.comparison .greaterEqual) (.comparison .greater) rest
  | '+' => (.ok (.arith .add), rest)
  | '-' => (.ok (.arith .sub), rest)
  | '*' => (.ok (.arith .mul), rest)
  | '/' => (.ok (.arith .div), rest)
  | '(' => (.ok .lparen, rest)
  | ')' => (.ok .rparen, rest)
  | other => (.error (.unexpectedCharacter other), rest)

/-- The token that starts with the character `c`, and the text after it. -/
def scanAt (c : Char) (rest : List Char) : Except LexError Token × List Char :=
  let text := c :: rest
  if isNumberPart c then
    (numberToken (text.takeWhile isNumberPart), text.dropWhile isNumberPart)
  else if isLetter c then
    let after := text.dropWhile isLetter
    (wordToken (text.takeWhile isLetter) after, after)
  else
    symbolToken c rest

/-- The first token of a text, or what is wrong there, and the text after it. -/
def scan (text : List Char) : Except LexError Token × List Char :=
  match text.dropWhile isBlank with
  | [] => (.ok .eof, [])
  | c :: rest => scanAt c rest

/-! ### Every token has a character -/

theorem numberToken_ne_eof (literal : List Char) : numberToken literal ≠ .ok .eof := by
  simp only [numberToken, integerToken, floatToken]
  repeat' split
  all_goals simp

theorem wordToken_ne_eof (word after : List Char) : wordToken word after ≠ .ok .eof := by
  simp only [wordToken]
  repeat' split
  all_goals simp

/-- A symbol is not the end, and does not give back more text than it got. -/
theorem symbolToken_spec (c : Char) (rest : List Char) :
    (symbolToken c rest).1 ≠ .ok .eof ∧ (symbolToken c rest).2.length ≤ rest.length := by
  have withEquals_spec : ∀ double single : Token, double ≠ .eof → single ≠ .eof →
      (withEquals double single rest).1 ≠ .ok .eof ∧
        (withEquals double single rest).2.length ≤ rest.length := by
    intro double single hd hs
    rw [withEquals.eq_def]
    split <;> simp [hd, hs]
  rw [symbolToken.eq_def]
  split
  case h_1 | h_2 | h_3 => exact withEquals_spec _ _ (by simp) (by simp)
  all_goals simp

/-- Dropping a run that starts at once drops at least one character. -/
theorem length_dropWhile_cons_lt {p : Char → Bool} {c : Char} (h : p c = true)
    (rest : List Char) : ((c :: rest).dropWhile p).length < (c :: rest).length := by
  rw [List.dropWhile_cons_of_pos h]
  exact Nat.lt_succ_of_le (List.dropWhile_suffix p).length_le

/-- What starts with a character is not the end and consumes the character. -/
theorem scanAt_spec (c : Char) (rest : List Char) :
    (scanAt c rest).1 ≠ .ok .eof ∧ (scanAt c rest).2.length < (c :: rest).length := by
  rw [scanAt]
  split
  case isTrue h => exact ⟨numberToken_ne_eof _, length_dropWhile_cons_lt h rest⟩
  case isFalse =>
    split
    case isTrue h => exact ⟨wordToken_ne_eof _ _, length_dropWhile_cons_lt h rest⟩
    case isFalse =>
      obtain ⟨hne, hle⟩ := symbolToken_spec c rest
      exact ⟨hne, Nat.lt_succ_of_le hle⟩

/-- The end is reported exactly if nothing but blanks is left. -/
theorem scan_eof_iff {text : List Char} :
    (scan text).1 = .ok .eof ↔ text.dropWhile isBlank = [] := by
  rw [scan]
  split
  case h_1 h => simp [h]
  case h_2 c rest h => simp [h, (scanAt_spec c rest).1]

/-- Nothing is ever put back. -/
theorem length_scan_le (text : List Char) : (scan text).2.length ≤ text.length := by
  rw [scan]
  split
  case h_1 => simp
  case h_2 c rest h =>
    have hlt := (scanAt_spec c rest).2
    have hle := (List.dropWhile_suffix (l := text) isBlank).length_le
    rw [h] at hle
    omega

/-- A token or a fault other than the end consumes at least one character. -/
theorem scan_shortens {text : List Char} (h : (scan text).1 ≠ .ok .eof) :
    (scan text).2.length < text.length := by
  rw [scan] at h ⊢
  split
  case h_1 hb => simp [hb] at h
  case h_2 c rest hb =>
    have hlt := (scanAt_spec c rest).2
    have hle := (List.dropWhile_suffix (l := text) isBlank).length_le
    rw [hb] at hle
    omega

end Reckon.Lexer
