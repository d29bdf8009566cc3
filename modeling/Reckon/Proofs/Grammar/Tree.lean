import Mathlib.Tactic.Lemma
import Reckon.Proofs.Value.Failure
import Reckon.Statement

/-!
Syntax trees and their values.

A tree says how the operands of a statement belong together, and nothing
about how its text was read. Its value is computed from the left to the
right, both sides of an operator before the operator, so of several faults
the one that stands furthest to the left is reported.

* `Expr`, `Clause` and `StatementTree`: the trees of expressions, of what
  may stand behind an assignment sign, and of statements;
* `Expr.eval`, `Clause.eval` and `StatementTree.run`: what they come to;
* `Expr.computes_eval` and `Clause.computes_eval`: a tree never fails with a
  complaint about the text, only with one about the computation.
-/

namespace Reckon

/-- The tree of an expression. -/
inductive Expr where
  | int (n : Int64)
  | float (x : Float)
  | ident (name : String)
  | call (f : Elementary) (argument : Expr)
  | binary (op : ArithOp) (left right : Expr)
deriving DecidableEq

/-- The tree of an expression, or of two expressions that are compared. -/
inductive Clause where
  | value (e : Expr)
  | comparison (op : Comparison) (left right : Expr)
deriving DecidableEq

/-- The tree of a statement. -/
inductive StatementTree where
  | shown (c : Clause)
  | assignment (name : String) (c : Clause)
deriving DecidableEq

section Values

variable [FloatFunctions]

/-- The value of an expression: the operands from left to right, and then the
operator. -/
def Expr.eval (vars : Variables) : Expr → Except Error Value
  | int n => .ok (.int n)
  | float x => .ok (.float x)
  | ident name => vars.get name
  | call f argument => do
      let v ← argument.eval vars
      let x ← v.asFloat
      let y ← f.apply x
      return .float y
  | binary op left right => do
      let v ← left.eval vars
      let w ← right.eval vars
      v.apply op w

lemma Expr.eval_call (vars : Variables) (f : Elementary) (argument : Expr) :
    (call f argument).eval vars = argument.eval vars >>= Parsing.applyFunction f := by
  rw [Expr.eval]
  refine bind_congr fun v => ?_
  refine bind_congr fun x => ?_
  cases f.apply x <;> rfl

/-- The value of an expression, or the outcome of a comparison. -/
def Clause.eval (vars : Variables) : Clause → Except Error Value
  | value e => e.eval vars
  | comparison op left right => do
      let v ← left.eval vars
      let w ← right.eval vars
      v.compare op w

/-- What a statement shows, and the table after it. Only an assignment whose right
hand side has a value changes the table. -/
def StatementTree.run (vars : Variables) : StatementTree → Except Error (Option Value) × Variables
  | shown c => (some <$> c.eval vars, vars)
  | assignment name c =>
      match c.eval vars with
      | .ok v => (.ok none, vars.set name v)
      | .error e => (.error e, vars)

end Values

/-! ### Faults of the text and faults of a computation -/

/-- The error is about the text, not about what it computes. -/
def Error.IsTextual (e : Error) : Prop := e.kind = .lex ∨ e.kind = .parse

instance : DecidablePred Error.IsTextual := fun e =>
  inferInstanceAs (Decidable (e.kind = .lex ∨ e.kind = .parse))

/-- Whatever the computation fails with is not about the text. -/
def Computes {α : Type} (r : Except Error α) : Prop := ∀ e, r = .error e → ¬ e.IsTextual

lemma computes_ok {α : Type} (v : α) : Computes (.ok v) := by
  intro e h
  cases h

lemma computes_error {α : Type} {e : Error} (h : ¬ e.IsTextual) :
    Computes (.error e : Except Error α) := by
  intro e' h'
  cases h'
  exact h

lemma Computes.bind {α β : Type} {r : Except Error α} {f : α → Except Error β} (h : Computes r)
    (hf : ∀ v, Computes (f v)) : Computes (r >>= f) := by
  cases r with
  | ok v => exact hf v
  | error e => exact computes_error (h e rfl)

lemma Computes.map {α β : Type} {r : Except Error α} (f : α → β) (h : Computes r) :
    Computes (f <$> r) := by
  cases r with
  | ok v => exact computes_ok (f v)
  | error e => exact computes_error (h e rfl)

lemma computes_get (vars : Variables) (name : String) : Computes (vars.get name) := by
  rw [Variables.get]
  cases vars.get? name with
  | some v => exact computes_ok v
  | none => exact computes_error (by simp [Error.IsTextual, Error.kind])

/-- What fails only in what it computes. -/
lemma FailsWithin.computes {α : Type} {r : Except Error α}
    (h : FailsWithin [.domain, .zeroDivision, .overflow, .type] r) : Computes r := by
  intro e he htextual
  have hkind := h e he
  rcases htextual with hlex | hparse
  · simp [hlex] at hkind
  · simp [hparse] at hkind

lemma computes_apply (op : ArithOp) (v w : Value) : Computes (v.apply op w) :=
  ((failsWithin_apply op v w).mono (by simp)).computes

lemma computes_compare (op : Comparison) (v w : Value) : Computes (v.compare op w) :=
  ((failsWithin_compare op v w).mono (by simp)).computes

variable [FloatFunctions]

/-- An expression fails with nothing but faults of its computation. -/
lemma Expr.computes_eval (vars : Variables) (e : Expr) : Computes (e.eval vars) := by
  induction e with
  | int n => exact computes_ok _
  | float x => exact computes_ok _
  | ident name => exact computes_get vars name
  | call f argument ih =>
      rw [eval_call]
      exact ih.bind fun v => (failsWithin_applyFunction f v).computes
  | binary op left right ihl ihr =>
      exact ihl.bind fun v => ihr.bind fun w => computes_apply op v w

/-- A clause fails with nothing but faults of its computation. -/
lemma Clause.computes_eval (vars : Variables) (c : Clause) : Computes (c.eval vars) := by
  cases c with
  | value e => exact e.computes_eval vars
  | comparison op left right =>
      exact (left.computes_eval vars).bind fun v => (right.computes_eval vars).bind fun w =>
        computes_compare op v w

end Reckon
