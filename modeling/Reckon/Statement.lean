import Reckon.Lexer
import Reckon.Parsing.Expression

/-!
Statements.

    statement  ::= (IDENT '=')? comparison
    comparison ::= expression (('<' | '<=' | '>' | '>=' | '==') expression)? EOF

Whether a statement that starts with a name is an assignment shows at its
second token. If it is none, the statement is read again from its start.

* `Parsing.comparison` and `Parsing.statement`: the rules. An assignment
  stores its value when everything else is done;
* `evaluate`: the result of a statement and the table after it.
-/

namespace Reckon

namespace Parsing

variable {σ : Type} [FloatFunctions]

/-- Nothing may follow a statement with the value `v`. -/
def finish (v : Value) (s : Reader σ) : Outcome σ Value :=
  if s.current = .eof then .done v s else .failed (.syntactic (.trailing s.current)) s

/-- An expression, or two expressions that are compared, up to the end of the
text. -/
def comparison [TokenSource σ] (s : Reader σ) : Outcome σ Value :=
  ((expression maxNesting).run s).bind fun left t =>
    match t.current with
    | .comparison op =>
        t.advance.bind fun _ u =>
          ((expression maxNesting).run u).bind fun right w =>
            (Outcome.ofExcept w (left.compare op right)).bind finish
    | _ => finish left t

/-- An assignment, which has no value to show, or a comparison. -/
def statement [RereadableSource σ] (s : Reader σ) : Outcome σ (Option Value) :=
  match s.current with
  | .ident name =>
      s.advance.bind fun _ t =>
        if t.current = .assign then
          t.advance.bind fun _ u => (comparison u).bind fun v w => .done none (w.store name v)
        else
          t.rescan.bind fun _ u => (comparison u).map some
  | _ => (comparison s).map some

end Parsing

/-- What the statement in a text shows, and the table after it. -/
def evaluate [FloatFunctions] (text : String) (vars : Variables) :
    Except Error (Option Value) × Variables :=
  match Reader.start (Lexer.ofText text) vars with
  | .error e => (.error (.lexical e), vars)
  | .ok s =>
      let outcome := Parsing.statement s
      (outcome.result, outcome.place.vars)

end Reckon
