import Reckon.Error.Report
import Reckon.Statement

/-!
Sessions: statements that share a table of variables.

* `Line`: what a statement shows, the text of a value or the report of an
  error;
* `runStatements`: statements one after another, whether or not the ones
  before them failed;
* `lines`: the lines of a text;
* `react`: what a line of a session does. It is trimmed; a blank line is
  passed over, an exit word ends the session, and anything else is a
  statement;
* `converse`: a session on the lines of a text.
-/

namespace Reckon

/-- A line that a statement shows. -/
inductive Line where
  /-- The text of a value. -/
  | value (text : String)
  /-- The report of an error. -/
  | failure (text : String)
deriving DecidableEq, Repr

namespace Line

/-- What the result of a statement shows, if anything. -/
def ofResult : Except Error (Option Value) → Option Line
  | .ok (some v) => some (value v.render)
  | .ok none => none
  | .error e => some (failure e.report.render)

/-- The line reports an error. -/
def isFailure : Line → Bool
  | value _ => false
  | failure _ => true

/-- The text of the lines that show values, each ended by a line break. -/
def output (shown : List Line) : String :=
  String.join (shown.map fun
    | value text => text ++ "\n"
    | failure _ => "")

/-- The text of the lines that report errors, each ended by a line break. -/
def errors (shown : List Line) : String :=
  String.join (shown.map fun
    | value _ => ""
    | failure text => text ++ "\n")

end Line

variable [FloatFunctions]

/-- What the statements show when they are evaluated in order, and the table
after them. -/
def runStatements : List String → Variables → List Line × Variables
  | [], vars => ([], vars)
  | text :: rest, vars =>
      let (result, after) := evaluate text vars
      let (shown, final) := runStatements rest after
      ((Line.ofResult result).toList ++ shown, final)

/-- The lines of a text. A line feed ends a line, together with a carriage return
in front of it; the last line may lack it. -/
def lines : List Char → List (List Char)
  | [] => []
  | '\r' :: '\n' :: rest => [] :: lines rest
  | '\n' :: rest => [] :: lines rest
  | c :: rest =>
      match lines rest with
      | [] => [[c]]
      | l :: others => (c :: l) :: others

/-- The words that end a session. -/
def exitWords : List String := ["EXIT", "q"]

/-- What a line of a session does. -/
inductive Reaction where
  /-- The session ends. -/
  | ends
  /-- The session goes on with this table, after showing a line or nothing. -/
  | goesOn (shown : Option Line) (vars : Variables)

/-- What a line of a session does when the variables have these values. -/
def react (line : List Char) (vars : Variables) : Reaction :=
  let text := String.ofList (Text.trim line)
  if text.isEmpty then .goesOn none vars
  else if text ∈ exitWords then .ends
  else
    let (result, after) := evaluate text vars
    .goesOn (Line.ofResult result) after

/-- What a session with these lines shows, and the table at its end. -/
def converse : List (List Char) → Variables → List Line × Variables
  | [], vars => ([], vars)
  | line :: rest, vars =>
      match react line vars with
      | .ends => ([], vars)
      | .goesOn shown after =>
          let (more, final) := converse rest after
          (shown.toList ++ more, final)

end Reckon
