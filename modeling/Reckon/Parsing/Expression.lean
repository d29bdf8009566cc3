import Reckon.Elementary.Guarded
import Reckon.Parsing.Rule

/-!
The rules of expressions.

    expression  ::= term (('+' | '-') term)*
    term        ::= application (('*' | '/') application)*
    application ::= FUNCTION? factor
    factor      ::= INT | FLOAT | IDENT | '(' expression ')'

A rule computes the value of what it reads while it reads it, so of
several faults the one that is met first is reported. At most 256
parentheses may be open at once: a factor is read with the number of
parentheses that may still be opened in it, and the rules are built from
the innermost factor outwards.

* `factor`, `application`, `term` and `expression`: the rules;
* `maxNesting`: how many parentheses may be open.
-/

namespace Reckon

/-- The greatest number of parentheses that may be open at once. -/
def maxNesting : Nat := 256

/-- The operators that join terms. -/
def Token.additive? : Token → Option ArithOp
  | .arith .add => some .add
  | .arith .sub => some .sub
  | _ => none

/-- The operators that join factors. -/
def Token.multiplicative? : Token → Option ArithOp
  | .arith .mul => some .mul
  | .arith .div => some .div
  | _ => none

namespace Parsing

variable {σ : Type} [TokenSource σ]

/-- Reads a number, a variable, or an expression in parentheses, which the rule
`inner` reads; without `inner` no parenthesis may be opened. -/
def readFactor (inner : Option (Rule σ Value)) (s : Reader σ) : Outcome σ Value :=
  match s.current with
  | .int n => Rule.accept s (.int n)
  | .float x => Rule.accept s (.float x)
  | .ident name =>
      match s.vars.get name with
      | .ok v => Rule.accept s v
      | .error e => .failed e s
  | .lparen =>
      match inner with
      | some rule => rule.enclosed s
      | none => .failed (.syntactic .nestedTooDeeply) s
  | found => .failed (.syntactic (.operandExpected found)) s

/-- A factor has at least one token. -/
theorem remaining_lt_of_readFactor {inner : Option (Rule σ Value)} {s next : Reader σ} {v : Value}
    (h : readFactor inner s = .done v next) :
    next.remaining < s.remaining := by
  rw [readFactor.eq_def] at h
  cases hc : s.current <;> rw [hc] at h <;> dsimp only at h
  case int | float => exact Rule.remaining_lt_of_accept (by simp [hc]) h
  case ident name =>
    cases hv : s.vars.get name <;> rw [hv] at h
    · cases h
    · exact Rule.remaining_lt_of_accept (by simp [hc]) h
  case lparen =>
    cases inner
    · cases h
    · exact Rule.remaining_lt_of_enclosed h
  all_goals cases h

/-- The rule for factors, with the rule for what stands in parentheses. -/
def factorWith (inner : Option (Rule σ Value)) : Rule σ Value where
  run := readFactor inner
  shortens := remaining_lt_of_readFactor

variable [FloatFunctions]

/-- The guarded value of a function at a number. -/
def applyFunction (f : Elementary) (argument : Value) : Except Error Value := do
  let x ← argument.asFloat
  Value.float <$> f.apply x

/-- Reads a factor, or a function and the factor right after it, to which alone
it is applied. -/
def readApplication (factor : Rule σ Value) (s : Reader σ) : Outcome σ Value :=
  match s.current with
  | .function f =>
      s.advance.bind fun _ t => (factor.run t).bind fun v u => .ofExcept u (applyFunction f v)
  | _ => factor.run s

/-- An application has at least one token. -/
theorem remaining_lt_of_readApplication {factor : Rule σ Value} {s next : Reader σ} {v : Value}
    (h : readApplication factor s = .done v next) : next.remaining < s.remaining := by
  rw [readApplication.eq_def] at h
  cases hc : s.current <;> rw [hc] at h <;> dsimp only at h
  case function f =>
    obtain ⟨_, t, ht, h⟩ := Outcome.bind_eq_done_iff.1 h
    obtain ⟨w, u, hu, h⟩ := Outcome.bind_eq_done_iff.1 h
    obtain ⟨-, rfl⟩ := Outcome.ofExcept_eq_done_iff.1 h
    exact Nat.lt_of_lt_of_le (factor.shortens hu) (Reader.remaining_le_of_advance ht)
  all_goals exact factor.shortens h

/-- The rule for applications. -/
def application (factor : Rule σ Value) : Rule σ Value where
  run := readApplication factor
  shortens := remaining_lt_of_readApplication

/-- Applications joined by multiplications and divisions. -/
def term (factor : Rule σ Value) : Rule σ Value :=
  Rule.chain Token.multiplicative? (application factor)

/-- Terms joined by additions and subtractions. -/
def expressionWith (factor : Rule σ Value) : Rule σ Value :=
  Rule.chain Token.additive? (term factor)

/-- A factor in which this number of parentheses may still be opened. -/
def factor : Nat → Rule σ Value
  | 0 => factorWith none
  | depth + 1 => factorWith (some (expressionWith (factor depth)))

/-- An expression in which this number of parentheses may be open at once. -/
def expression (depth : Nat) : Rule σ Value := expressionWith (factor depth)

end Parsing

end Reckon
