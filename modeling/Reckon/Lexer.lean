import Reckon.Lexer.Scan
import Reckon.Parsing.Source

/-!
The tokens of a text, one at a time.

* `Lexer`: a text and what is left of it; `Lexer.next` reads a token,
  `Lexer.reset` goes back to the start;
* `Lexer.outcomes`: the tokens and faults of a text up to its end;
* `Lexer.tokenize`: the tokens of a text up to its end or its first fault.
-/

namespace Reckon

/-- A text that is being read. -/
structure Lexer where
  /-- The whole text. -/
  text : List Char
  /-- The part that was not read yet. -/
  rest : List Char
deriving DecidableEq

namespace Lexer

/-- A text of which nothing was read yet. -/
def ofText (text : String) : Lexer := ⟨text.toList, text.toList⟩

/-- The next token, or what is wrong there. At the end of the text this is the
end, however often it is asked for. -/
def next (l : Lexer) : Except LexError Token × Lexer :=
  let (outcome, rest) := scan l.rest
  (outcome, { l with rest })

/-- The same text, to be read from its start. -/
def reset (l : Lexer) : Lexer := { l with rest := l.text }

@[simp] theorem next_fst (l : Lexer) : l.next.1 = (scan l.rest).1 := rfl

@[simp] theorem next_snd (l : Lexer) : l.next.2 = ⟨l.text, (scan l.rest).2⟩ := rfl

/-- The outcome is the end of the text. -/
def isEnd : Except LexError Token → Bool
  | .ok t => t = .eof
  | .error _ => false

@[simp] theorem isEnd_iff {outcome : Except LexError Token} :
    isEnd outcome = true ↔ outcome = .ok .eof := by
  cases outcome <;> simp [isEnd]

/-- The tokens and faults of a text in order, without its end. -/
def outcomes (text : List Char) : List (Except LexError Token) :=
  if _ : isEnd (scan text).1 then [] else (scan text).1 :: outcomes (scan text).2
termination_by text.length
decreasing_by exact scan_shortens fun heof => absurd (isEnd_iff.2 heof) ‹_›

/-- Nothing but blanks has no tokens and no faults. -/
theorem outcomes_of_end {text : List Char} (h : (scan text).1 = .ok .eof) :
    outcomes text = [] := by
  rw [outcomes]
  exact dif_pos (isEnd_iff.2 h)

/-- The first token or fault of a text, and those of the text after it. -/
theorem outcomes_of_not_end {text : List Char} (h : (scan text).1 ≠ .ok .eof) :
    outcomes text = (scan text).1 :: outcomes (scan text).2 := by
  rw [outcomes]
  exact dif_neg fun hend => h (isEnd_iff.1 hend)

/-- At the end of a text nothing is left. -/
theorem scan_snd_of_end {text : List Char} (h : (scan text).1 = .ok .eof) :
    (scan text).2 = [] := by
  have hblank := scan_eof_iff.1 h
  rw [scan]
  rw [hblank]

/-- A text is a source of its tokens. -/
instance : RereadableSource Lexer where
  next := next
  left l := (outcomes l.rest).length
  left_of_end l h := by
    rw [next_snd, scan_snd_of_end h, outcomes_of_end h]
    exact ⟨rfl, by rw [outcomes_of_end rfl]; rfl⟩
  left_of_not_end l h := by
    rw [next_snd, outcomes_of_not_end h]
    rfl
  reset := reset

/-- The tokens in front of the first fault, or all of them and the end, and the
first fault if there is one. -/
def untilFault : List (Except LexError Token) → List Token × Option LexError
  | [] => ([.eof], none)
  | .error e :: _ => ([], some e)
  | .ok t :: rest =>
      let (tokens, fault) := untilFault rest
      (t :: tokens, fault)

/-- The tokens of a text up to its end, which is included, or up to its first
fault. -/
def tokenize (text : String) : List Token × Option LexError :=
  untilFault (outcomes text.toList)

end Lexer

end Reckon
