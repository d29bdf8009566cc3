import Reckon.Proofs.Lexer.Splitting
import Reckon.Proofs.Statement.Evaluation

/-!
Texts on one line.

What a statement shows is one line, whatever line breaks are in its text. A
line break is a blank, so it never gets into a token or into a fault; values
and messages are made of tokens, of faults and of fixed words. So the proof
goes along the way that characters of the text can take into a message: from
the scanner to the current token, and from there into the error.

* `Text.Unbroken`: there is no line break in the text;
* `unbroken_float`: numbers are written on one line;
* `Lexer.onOneLine_next`: tokens and faults are, too;
* `contract_unbroken`: where the current token is on one line, rules find
  errors on one line;
* `unbroken_message_of_evaluate`: the main statement.
-/

namespace Reckon

namespace Text

/-- There is no line break in the text, neither a line feed nor a carriage return. -/
def Unbroken (cs : List Char) : Prop := ∀ c ∈ cs, c ≠ '\n' ∧ c ≠ '\r'

instance : DecidablePred Unbroken := fun cs =>
  decidable_of_iff (cs.all fun c => c ≠ '\n' && c ≠ '\r') (by simp [Unbroken])

variable {cs ds : List Char} {c : Char}

lemma Unbroken.append (hcs : Unbroken cs) (hds : Unbroken ds) : Unbroken (cs ++ ds) := by
  intro c hc
  exact (List.mem_append.1 hc).elim (hcs c) (hds c)

lemma Unbroken.cons (hc : c ≠ '\n' ∧ c ≠ '\r') (hcs : Unbroken cs) : Unbroken (c :: cs) :=
  List.forall_mem_cons.2 ⟨hc, hcs⟩

/-- Some of the characters of a text on one line. -/
lemma Unbroken.subset (hcs : Unbroken cs) (h : ds ⊆ cs) : Unbroken ds := fun c hc => hcs c (h hc)

/-- A line break is blank. -/
lemma ne_of_isBlank_eq_false (h : isBlank c = false) : c ≠ '\n' ∧ c ≠ '\r' := by
  constructor <;> rintro rfl <;> cases h

lemma unbroken_of_isBlank_eq_false (h : ∀ c ∈ cs, isBlank c = false) : Unbroken cs :=
  fun c hc => ne_of_isBlank_eq_false (h c hc)

lemma unbroken_of_isNumberPart (h : ∀ c ∈ cs, Lexer.isNumberPart c = true) : Unbroken cs :=
  unbroken_of_isBlank_eq_false fun c hc => Lexer.isBlank_eq_false_of_isNumberPart (h c hc)

end Text

open Text

/-! ### Numbers -/

namespace Decimal

variable {l : Layout} {ds : List Char}

lemma unbroken_natural (n : Nat) : Unbroken (natural n) :=
  unbroken_of_isNumberPart fun _ hc => Lexer.isNumberPart_of_isDigit (isDigit_of_mem_natural hc)

lemma unbroken_integer (n : Int) : Unbroken (integer n) := by
  rw [integer]
  split
  · exact (unbroken_natural _).cons (by decide)
  · exact unbroken_natural _

lemma unbroken_positional (hend : Unbroken l.wholeEnd) (hds : Unbroken ds) (lead : Int) :
    Unbroken (l.positional ds lead) := by
  have hzeros : ∀ n, Unbroken (List.replicate n '0') := by
    intro n c hc
    rw [List.eq_of_mem_replicate hc]
    decide
  rw [Layout.positional]
  split
  · exact (((hzeros _).append hds).cons (by decide)).cons (by decide)
  · dsimp only
    split
    · exact (hds.append (hzeros _)).append hend
    · exact (hds.subset (List.take_subset _ _)).append
        ((hds.subset (List.drop_subset _ _)).cons (by decide))

lemma unbroken_scientific (hmark : Unbroken l.exponentMark) (hds : Unbroken ds) (lead : Int) :
    Unbroken (l.scientific ds lead) := by
  have hpoint : Unbroken (if (ds.drop 1).isEmpty then [] else ['.']) := by
    split <;> decide
  exact ((((hds.subset (List.take_subset _ _)).append hpoint).append
    (hds.subset (List.drop_subset _ _))).append hmark).append (unbroken_integer lead)

lemma unbroken_magnitude (m : Magnitude) : Unbroken (calculator.magnitude m) := by
  rw [Layout.magnitude.eq_def]
  split
  · decide
  · decide
  · exact unbroken_positional (by decide) (by decide) 0
  · dsimp only
    split
    · exact unbroken_positional (by decide) (unbroken_natural _) _
    · exact unbroken_scientific (by decide) (unbroken_natural _) _

/-- Doubles are written on one line. -/
lemma unbroken_float (x : Float) : Unbroken (float x) := by
  rw [float, Layout.float]
  split
  · exact (unbroken_magnitude _).cons (by decide)
  · exact unbroken_magnitude _

end Decimal

/-- Values are written on one line. -/
lemma Value.unbroken_render (v : Value) : Unbroken v.render.toList := by
  cases v with
  | int n =>
      rw [render, String.toList_ofList]
      exact Decimal.unbroken_integer n.toInt
  | float x =>
      rw [render, String.toList_ofList]
      exact Decimal.unbroken_float x
  | bool b => cases b <;> decide

/-! ### Tokens and faults -/

lemma Text.unbroken_append_iff {s t : String} :
    Unbroken (s ++ t).toList ↔ Unbroken s.toList ∧ Unbroken t.toList := by
  rw [String.toList_append]
  exact List.forall_mem_append

lemma Elementary.unbroken_name (f : Elementary) : Unbroken f.name.toList := by
  cases f <;> decide

lemma ArithOp.unbroken_symbol (op : ArithOp) : Unbroken op.symbol.toList := by
  cases op <;> decide

lemma Comparison.unbroken_symbol (op : Comparison) : Unbroken op.symbol.toList := by
  cases op <;> decide

lemma Token.unbroken_render {tok : Token} (h : ∀ name, tok = .ident name → Unbroken name.toList) :
    Unbroken tok.render.toList := by
  cases tok with
  | int n => exact (Value.int n).unbroken_render
  | float x => exact (Value.float x).unbroken_render
  | ident name => exact h name rfl
  | function f => exact f.unbroken_name
  | arith op => exact op.unbroken_symbol
  | comparison op => exact op.unbroken_symbol
  | assign | lparen | rparen | eof => decide

namespace Lexer

variable {literal word lexeme rest : List Char} {outcome : Except LexError Token}

/-- The token or the fault is written on one line. -/
def OnOneLine : Except LexError Token → Prop
  | .ok tok => Unbroken tok.render.toList
  | .error fault => Unbroken fault.message.toList

lemma NumberReading.onOneLine (h : NumberReading literal outcome) (hliteral : Unbroken literal) :
    OnOneLine outcome := by
  have htext : Unbroken (String.ofList literal).toList := by rwa [String.toList_ofList]
  cases h with
  | int | float => exact Token.unbroken_render nofun
  | tooLarge | severalPoints =>
      delta OnOneLine LexError.message
      exact unbroken_append_iff.2 ⟨by decide, htext⟩
  | noDigits =>
      delta OnOneLine LexError.message
      exact unbroken_append_iff.2 ⟨by decide, by decide⟩

lemma WordReading.onOneLine (h : WordReading word rest outcome) (hword : Unbroken word) :
    OnOneLine outcome := by
  have htext : Unbroken (String.ofList word).toList := by rwa [String.toList_ofList]
  cases h with
  | name =>
      refine Token.unbroken_render fun name hname => ?_
      cases hname
      exact htext
  | function => exact Token.unbroken_render nofun
  | unknown =>
      delta OnOneLine LexError.message
      exact unbroken_append_iff.2 ⟨by decide, htext⟩

/-- **Lexemes are on one line**: no character of them is blank, and a line break is. -/
lemma Lexeme.onOneLine (h : Lexeme lexeme rest outcome) : OnOneLine outcome := by
  cases h with
  | number run reading => exact reading.onOneLine (unbroken_of_isNumberPart run.all)
  | word run reading =>
      exact reading.onOneLine (unbroken_of_isBlank_eq_false fun c hc =>
        isBlank_eq_false_of_isLetter (run.all c hc))
  | symbol mem =>
      refine Token.unbroken_render fun name hname => ?_
      simp [symbols, hname] at mem
  | @unexpected c _ notBlank =>
      have hc : Unbroken (String.singleton c).toList := by
        rw [String.toList_singleton]
        exact unbroken_of_isBlank_eq_false fun d hd => (List.mem_singleton.1 hd) ▸ notBlank
      delta OnOneLine LexError.message
      exact unbroken_append_iff.2 ⟨by decide, hc⟩

lemma onOneLine_scan (text : List Char) : OnOneLine (scan text).1 := by
  rcases scan_eq_iff.1 (Prod.eta (scan text)).symm with
    ⟨houtcome, -, -⟩ | ⟨blanks, lexeme, -, -, hread⟩
  · rw [houtcome]
    exact Token.unbroken_render nofun
  · exact hread.onOneLine

/-- Wherever a text is read, the next token or fault is on one line. -/
lemma onOneLine_next (l : Lexer) : OnOneLine (TokenSource.next l).1 := onOneLine_scan l.rest

end Lexer

/-! ### Errors -/

/-- An error of a computation is about numbers and operators only. -/
lemma Error.unbroken_of_kind {e : Error}
    (h : e.kind ∈ [ErrorKind.domain, .zeroDivision, .overflow, .type]) :
    Unbroken e.message.toList := by
  have hfloat : ∀ x, Unbroken (Error.message.floatText x).toList := fun x =>
    Token.unbroken_render nofun
  have hint : ∀ n, Unbroken (Error.message.intText n).toList := fun n =>
    Token.unbroken_render nofun
  cases e with
  | lexical | syntactic | undefined => simp [kind] at h
  | integerDivisionByZero | floatDivisionByZero | booleanOperand => decide
  | booleanCompared op =>
      delta message
      simp only [unbroken_append_iff]
      exact ⟨⟨by decide, op.unbroken_symbol⟩, by decide⟩
  | outsideDomain f x =>
      delta message
      simp only [unbroken_append_iff]
      exact ⟨⟨hfloat x, by decide⟩, f.unbroken_name⟩
  | cotangentPole x =>
      delta message
      simp only [unbroken_append_iff]
      exact ⟨⟨⟨Elementary.ctg.unbroken_name, by decide⟩, hfloat x⟩, by decide⟩
  | integerOverflow l op r =>
      delta message
      simp only [unbroken_append_iff]
      exact ⟨⟨⟨⟨⟨by decide, hint l⟩, by decide⟩, op.unbroken_symbol⟩, by decide⟩, hint r⟩
  | functionOverflow f x =>
      delta message
      simp only [unbroken_append_iff]
      exact ⟨⟨⟨f.unbroken_name, by decide⟩, hfloat x⟩, by decide⟩

/-- An error about a misplaced token shows the token. -/
lemma SyntaxError.unbroken_message {tok : Token} {cause : SyntaxError}
    (h : cause ∈ [SyntaxError.operandExpected tok, .closingExpected tok, .trailing tok])
    (htok : Unbroken tok.render.toList) : Unbroken cause.message.toList := by
  simp only [List.mem_cons, List.not_mem_nil, or_false] at h
  rcases h with rfl | rfl | rfl
  · delta message
    simp only [unbroken_append_iff]
    exact ⟨⟨by decide, htok⟩, by decide⟩
  · delta message
    simp only [unbroken_append_iff]
    exact ⟨⟨⟨⟨by decide, by decide⟩, by decide⟩, htok⟩, by decide⟩
  · delta message
    simp only [unbroken_append_iff]
    exact ⟨⟨by decide, htok⟩, by decide⟩

/-- The line that reports an error is one line. -/
lemma Report.unbroken_render {r : Report} (h : Unbroken r.message.toList) :
    Unbroken r.render.toList := by
  have hlabel : Unbroken r.kind.label.toList := by cases r.kind <;> decide
  delta Report.render
  simp only [unbroken_append_iff]
  exact ⟨⟨hlabel, by decide⟩, h⟩

/-! ### Statements -/

lemma Reader.ends_read (s : Reader Lexer) (l : Lexer) :
    (s.read l).Ends (fun t => Unbroken t.current.render.toList)
      fun e _ => Unbroken e.message.toList := by
  have hnext : Lexer.OnOneLine (TokenSource.next l).1 := Lexer.onOneLine_next l
  rw [Reader.read]
  rcases hl : TokenSource.next l with ⟨fault | tok, rest⟩ <;> rw [hl] at hnext <;> exact hnext

/-- **The current token is on one line**, and so are the errors that name it. -/
lemma contract_unbroken :
    Contract (fun s : Reader Lexer => Unbroken s.current.render.toList)
      fun e _ => Unbroken e.message.toList where
  advance {s} _ _ _ _ := s.ends_read s.source
  undefined {s name} hs hname := by
    rw [hname, Token.render] at hs
    delta Error.message
    simp only [unbroken_append_iff]
    exact ⟨⟨by decide, hs⟩, by decide⟩
  misplaced hs hcause := SyntaxError.unbroken_message hcause hs
  computed _ he := Error.unbroken_of_kind he
  parenthesis {s} _ _ := s.ends_read s.source
  nested _ _ := by decide

variable [FloatFunctions]

/-- The message of an error is on one line, whatever the text and the table. -/
lemma unbroken_message_of_evaluate {text : String} {vars : Variables} {e : Error}
    (h : (evaluate text vars).1 = .error e) : Unbroken e.message.toList := by
  have hfirst : Lexer.OnOneLine (TokenSource.next (Lexer.ofText text)).1 := Lexer.onOneLine_next _
  cases hs : Reader.start (Lexer.ofText text) vars with
  | error fault =>
      rw [Reader.start_eq_error_iff.1 hs] at hfirst
      rw [evaluate, hs] at h
      cases h
      exact hfirst
  | ok s =>
      rw [(Reader.start_eq_ok_iff.1 hs).1] at hfirst
      rw [evaluate_of_start hs] at h
      have hends : (Parsing.statement s).Ends (fun _ => True)
          fun e _ => Unbroken e.message.toList :=
        contract_unbroken.statementWith (contract_unbroken.expression maxNesting)
          (fun t _ => t.ends_read _) (fun _ _ => trivial) (fun _ _ _ _ => trivial) hfirst
      exact hends.of_result h

end Reckon
