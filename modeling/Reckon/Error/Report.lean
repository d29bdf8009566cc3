import Reckon.Error

/-!
How errors are reported.

* `ErrorKind`: the seven kinds that a user of the calculator sees, with
  their names;
* `Error.kind` and `Error.message`: the kind of each cause and what is
  said about it;
* `Report`: a kind with a message, and `Report.render`, its line.
-/

namespace Reckon

/-- The kinds of errors. -/
inductive ErrorKind where
  | lex
  | parse
  | name
  | domain
  | zeroDivision
  | overflow
  | type
deriving DecidableEq, Repr

namespace ErrorKind

/-- Every kind once. -/
def all : List ErrorKind := [lex, parse, name, domain, zeroDivision, overflow, type]

/-- The name of a kind. -/
def label : ErrorKind → String
  | lex => "LexError"
  | parse => "ParseError"
  | name => "NameError"
  | domain => "DomainError"
  | zeroDivision => "ZeroDivisionError"
  | overflow => "OverflowError"
  | type => "TypeError"

/-- The kind with this name. -/
def ofLabel? (text : String) : Option ErrorKind := all.find? fun k => text = k.label

/-- Every kind is found by its name, and by no other. -/
theorem ofLabel?_eq_some_iff {text : String} {k : ErrorKind} :
    ofLabel? text = some k ↔ text = k.label := by
  constructor
  · intro h
    simpa using List.find?_some h
  · rintro rfl
    cases k <;> decide

end ErrorKind

/-- What is said about a text without a token. -/
def LexError.message : LexError → String
  | integerTooLarge digits => s!"integer literal is too large: {digits}"
  | noDigits literal => s!"invalid number: {literal}"
  | severalPoints literal => s!"multiple decimal points in number: {literal}"
  | unknownFunction word => s!"unknown function: {word}"
  | unexpectedCharacter c => s!"unexpected character in input: {c}"

/-- What is said about a misplaced token. -/
def SyntaxError.message : SyntaxError → String
  | operandExpected found =>
      s!"expected a number, a variable or '(' but found '{found.render}'"
  | closingExpected found => s!"expected '{Token.rparen.render}' but found '{found.render}'"
  | trailing found => s!"unexpected '{found.render}' after the end of the statement"
  | nestedTooDeeply => "expression is nested too deeply"

namespace Error

/-- The kind of an error. -/
def kind : Error → ErrorKind
  | lexical _ => .lex
  | syntactic _ => .parse
  | undefined _ => .name
  | outsideDomain _ _ => .domain
  | cotangentPole _ => .zeroDivision
  | integerDivisionByZero => .zeroDivision
  | floatDivisionByZero => .zeroDivision
  | integerOverflow _ _ _ => .overflow
  | functionOverflow _ _ => .overflow
  | booleanOperand => .type
  | booleanCompared _ => .type

/-- What is said about an error. -/
def message : Error → String
  | lexical cause => cause.message
  | syntactic cause => cause.message
  | undefined name => s!"name '{name}' is not defined"
  | outsideDomain f x => s!"{floatText x} is outside of the domain of {f.name}"
  | cotangentPole x => s!"{Elementary.ctg.name}({floatText x}) divides by zero"
  | integerDivisionByZero => "integer division by zero"
  | floatDivisionByZero => "float division by zero"
  | integerOverflow left op right =>
      s!"integer overflow in {intText left} {op.symbol} {intText right}"
  | functionOverflow f x => s!"{f.name}({floatText x}) is too large"
  | booleanOperand => "a boolean can not be used as a number"
  | booleanCompared op => s!"a boolean can not be compared with '{op.symbol}'"
where
  /-- The text of a double. -/
  floatText (x : Float) : String := (Token.float x).render
  /-- The text of an integer. -/
  intText (n : Int64) : String := (Token.int n).render

end Error

/-- An error as it is reported. -/
structure Report where
  kind : ErrorKind
  message : String
deriving DecidableEq

/-- The report of an error. -/
def Error.report (e : Error) : Report := ⟨e.kind, e.message⟩

/-- The line of a report. -/
def Report.render (r : Report) : String := s!"{r.kind.label}: {r.message}"

end Reckon
