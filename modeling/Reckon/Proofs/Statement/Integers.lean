import Reckon.Proofs.Statement.Evaluation
import Reckon.Proofs.Value.Integers

/-!
Integers are computed with exactly.

Next to the interpreter stands a reference that computes with integers of
any size, in the same order: both sides of an operator from left to right,
and then the operator. As long as no operation of the reference divides by
zero or leaves the range of 64 bits, the two have the same value. The first
operation that does is the one with which the interpreter fails.

* `IntExpr`: expressions of integers and variables, with their exact value
  and the operations on the way to it, in the order of the reference;
* `Operation.Sound`: the operation has a result, and 64 bits can hold it;
* `Answers` and `IntExpr.answers_eval`: the main invariant, by induction on
  the expression;
* `Derives.exists_intExpr`: where neither doubles nor functions stand, there
  is such an expression;
* `evaluate_integers`: the main statement, from the text on.
-/

namespace Reckon

/-! ### The reference -/

/-- An operation on integers of any size. -/
structure Operation where
  op : ArithOp
  left : Int
  right : Int
deriving DecidableEq

namespace Operation

/-- The exact result, division rounding toward zero. -/
def result : Operation → Int
  | ⟨.add, left, right⟩ => left + right
  | ⟨.sub, left, right⟩ => left - right
  | ⟨.mul, left, right⟩ => left * right
  | ⟨.div, left, right⟩ => left.tdiv right

/-- The operation is a division by zero, which has no result. -/
def DividesByZero (o : Operation) : Prop := o.op = .div ∧ o.right = 0

/-- There is a result, and it is in range. -/
def Sound (o : Operation) : Prop := ¬ o.DividesByZero ∧ InRange o.result

instance : DecidablePred DividesByZero := fun o =>
  inferInstanceAs (Decidable (o.op = .div ∧ o.right = 0))

instance : DecidablePred Sound := fun o =>
  inferInstanceAs (Decidable (¬ o.DividesByZero ∧ InRange o.result))

/-- The error of an operation that is not sound: it is refused as a division by zero, or
else the error says that the result of this operation on these operands is too large. -/
def FailsWith (o : Operation) (e : Error) : Prop :=
  if o.DividesByZero then e = .integerDivisionByZero
  else ∃ left right : Int64, left.toInt = o.left ∧ right.toInt = o.right ∧
    e = .integerOverflow left o.op right

lemma result_eq_exact (o : Operation) : o.result = o.op.exact o.left o.right := by
  obtain ⟨op, left, right⟩ := o
  cases op <;> rfl

end Operation

/-- An expression of integers and variables. -/
inductive IntExpr where
  | literal (n : Int64)
  | ident (name : String)
  | binary (op : ArithOp) (left right : IntExpr)
deriving DecidableEq

namespace IntExpr

/-- The expression among all expressions. -/
def toExpr : IntExpr → Expr
  | literal n => .int n
  | ident name => .ident name
  | binary op left right => .binary op left.toExpr right.toExpr

/-- The variables that the expression reads. -/
def names : IntExpr → List String
  | literal _ => []
  | ident name => [name]
  | binary _ left right => left.names ++ right.names

/-- The exact value, if the variables have these values. -/
def value (env : String → Int) : IntExpr → Int
  | literal n => n.toInt
  | ident name => env name
  | binary op left right => Operation.result ⟨op, left.value env, right.value env⟩

/-- The operations on the way to the value: those of the left side, those of the right
side, and then the operator. -/
def operations (env : String → Int) : IntExpr → List Operation
  | literal _ => []
  | ident _ => []
  | binary op left right =>
      left.operations env ++ right.operations env ++ [⟨op, left.value env, right.value env⟩]

/-- The first operation that is not sound. -/
def offending? (env : String → Int) (e : IntExpr) : Option Operation :=
  (e.operations env).find? fun o => ¬ o.Sound

lemma offending?_eq_none_iff {env : String → Int} {e : IntExpr} :
    e.offending? env = none ↔ ∀ o ∈ e.operations env, o.Sound := by
  simp [offending?]

/-- The operations of the left side come first, and the operator comes last. -/
lemma offending?_binary (env : String → Int) (op : ArithOp) (left right : IntExpr) :
    (binary op left right).offending? env =
      (left.offending? env).or ((right.offending? env).or
        (if Operation.Sound ⟨op, left.value env, right.value env⟩ then none
          else some ⟨op, left.value env, right.value env⟩)) := by
  rw [offending?, operations, List.append_assoc, List.find?_append, List.find?_append,
    List.find?_singleton]
  simp only [offending?, decide_not, Bool.not_eq_true', decide_eq_false_iff_not, ite_not]

lemma toExpr_injective : Function.Injective toExpr := by
  intro e
  induction e with
  | literal n => intro e' h; cases e' <;> cases h; rfl
  | ident name => intro e' h; cases e' <;> cases h; rfl
  | binary op left right ihl ihr =>
      intro e' h
      cases e' with
      | literal n => cases h
      | ident name => cases h
      | binary op' left' right' =>
          rw [toExpr, toExpr, Expr.binary.injEq] at h
          rw [h.1, ihl h.2.1, ihr h.2.2]

end IntExpr

/-! ### What the interpreter comes to -/

/-- The result has this value, if no operation is offending, and else it is the error of the
one that is. -/
def Answers (value : Int) : Option Operation → Except Error Value → Prop
  | none, r => ∃ n : Int64, r = .ok (.int n) ∧ n.toInt = value
  | some o, r => ∃ e, r = .error e ∧ o.FailsWith e

/-- What comes later is offending only if nothing before it is. -/
lemma Answers.bind {value value' : Int} {first second : Option Operation}
    {r : Except Error Value} {f : Value → Except Error Value} (h : Answers value first r)
    (hf : ∀ n : Int64, n.toInt = value → Answers value' second (f (.int n))) :
    Answers value' (first.or second) (r >>= f) := by
  cases first with
  | none =>
      obtain ⟨n, rfl, hn⟩ := h
      exact hf n hn
  | some o =>
      obtain ⟨e, rfl, he⟩ := h
      exact ⟨e, rfl, he⟩

/-- **One operation**: on 64 bits it comes to its exact result if it is sound, and fails if
it is not. -/
lemma answers_apply (op : ArithOp) (left right : Int64) :
    Answers (Operation.result ⟨op, left.toInt, right.toInt⟩)
      (if Operation.Sound ⟨op, left.toInt, right.toInt⟩ then none
        else some ⟨op, left.toInt, right.toInt⟩)
      ((Value.int left).apply op (.int right)) := by
  have hright : right.toInt = 0 ↔ right = 0 := by rw [← Int64.toInt_zero, Int64.toInt_inj]
  have hzero : Operation.DividesByZero ⟨op, left.toInt, right.toInt⟩ ↔ op = .div ∧ right = 0 :=
    and_congr_right fun _ => hright
  rw [Value.apply, ArithOp.applyInt]
  by_cases h : op = .div ∧ right = 0
  · have hsound : ¬ Operation.Sound ⟨op, left.toInt, right.toInt⟩ := fun hs => hs.1 (hzero.2 h)
    rw [if_pos h, if_neg hsound]
    exact ⟨_, rfl, by rw [Operation.FailsWith, if_pos (hzero.2 h)]⟩
  · rw [if_neg h, ← Operation.result_eq_exact ⟨op, left.toInt, right.toInt⟩]
    cases hfit : fit? (Operation.result ⟨op, left.toInt, right.toInt⟩) with
    | some n =>
        have hn : n.toInt = _ := fit?_eq_some_iff.1 hfit
        have hsound : Operation.Sound ⟨op, left.toInt, right.toInt⟩ :=
          ⟨fun hs => h (hzero.1 hs), hn ▸ inRange_toInt n⟩
        rw [if_pos hsound]
        exact ⟨n, rfl, hn⟩
    | none =>
        have hsound : ¬ Operation.Sound ⟨op, left.toInt, right.toInt⟩ := fun hs =>
          not_inRange_of_fit?_eq_none hfit hs.2
        rw [if_neg hsound]
        refine ⟨_, rfl, ?_⟩
        rw [Operation.FailsWith, if_neg fun hs => h (hzero.1 hs)]
        exact ⟨left, right, rfl, rfl, rfl⟩

/-- **The invariant**: an expression comes to its exact value, or fails at the first
operation that is not sound. The induction is on the expression, whose two sides have their
operations in front of its own. -/
theorem IntExpr.answers_eval [FloatFunctions] {vars : Variables} {env : String → Int} (e : IntExpr)
    (henv : ∀ name ∈ e.names, ∃ n : Int64, vars.get? name = some (.int n) ∧ n.toInt = env name) :
    Answers (e.value env) (e.offending? env) (e.toExpr.eval vars) := by
  induction e with
  | literal n => exact ⟨n, rfl, rfl⟩
  | ident name =>
      obtain ⟨n, hn, hvalue⟩ := henv name List.mem_cons_self
      exact ⟨n, Variables.get_eq_ok_iff.2 hn, hvalue⟩
  | binary op left right ihl ihr =>
      rw [offending?_binary, toExpr, Expr.eval]
      refine (ihl fun name hname => henv name (List.mem_append_left _ hname)).bind fun l hl => ?_
      refine (ihr fun name hname => henv name (List.mem_append_right _ hname)).bind fun r hr => ?_
      rw [value, ← hl, ← hr]
      exact answers_apply op l r

/-! ### Texts without doubles, functions and comparisons -/

/-- The token may stand in a text about integers: it is no double, no function and no
comparison. -/
def Token.Integral : Token → Prop
  | float _ => False
  | function _ => False
  | comparison _ => False
  | _ => True

/-- Such tokens make expressions of integers and variables. -/
lemma Derives.exists_intExpr {level : Level} {n : Nat} {ts : List Token} {e : Expr}
    (h : Derives level n ts e) (hts : ∀ tok ∈ ts, tok.Integral) : ∃ i : IntExpr, i.toExpr = e := by
  induction h with
  | int n => exact ⟨.literal n, rfl⟩
  | float x => exact (hts _ List.mem_cons_self).elim
  | ident name => exact ⟨.ident name, rfl⟩
  | parentheses inner ih => exact ih fun tok htok => hts tok (by simp [htok])
  | ofFactor h ih | ofApplication h ih | ofTerm h ih => exact ih hts
  | call f argument ih => exact (hts _ List.mem_cons_self).elim
  | product left hop right ihl ihr | sum left hop right ihl ihr =>
      obtain ⟨l, rfl⟩ := ihl fun tok htok => hts tok (by simp [htok])
      obtain ⟨r, rfl⟩ := ihr fun tok htok => hts tok (by simp [htok])
      exact ⟨.binary _ l r, rfl⟩

lemma DerivesClause.exists_intExpr {n : Nat} {ts : List Token} {c : Clause}
    (h : DerivesClause n ts c) (hts : ∀ tok ∈ ts, tok.Integral) :
    ∃ i : IntExpr, c = .value i.toExpr := by
  cases h with
  | value h =>
      obtain ⟨i, rfl⟩ := h.exists_intExpr hts
      exact ⟨i, rfl⟩
  | comparison op left right => exact (hts (.comparison op) (by simp)).elim

namespace StatementTree

variable {tree : StatementTree} {vars : Variables}

/-- What is computed: the clause that is shown or assigned. -/
def clause : StatementTree → Clause
  | shown c => c
  | assignment _ c => c

/-- What a statement whose clause has the value `v` comes to: the value is shown, or it is
stored. -/
def success (vars : Variables) (v : Value) :
    StatementTree → Except Error (Option Value) × Variables
  | shown _ => (.ok (some v), vars)
  | assignment name _ => (.ok none, vars.set name v)

/-- A statement succeeds or fails as its clause does. -/
lemma run_eq [FloatFunctions] (tree : StatementTree) (vars : Variables) :
    tree.run vars =
      match tree.clause.eval vars with
      | .ok v => tree.success vars v
      | .error e => (.error e, vars) := by
  cases tree with
  | shown c =>
      rw [run, clause]
      cases c.eval vars <;> rfl
  | assignment name c => rfl

/-- Success with different values is not the same. -/
lemma success_inj {v w : Value} : tree.success vars v = tree.success vars w ↔ v = w := by
  cases tree with
  | shown c => simp [success]
  | assignment name c => simp [success, Variables.set_inj]

lemma success_ne_error (tree : StatementTree) (v : Value) (e : Error) :
    tree.success vars v ≠ (.error e, vars) := by
  cases tree <;> simp [success]

end StatementTree

lemma DerivesStatement.exists_intExpr {n : Nat} {ts : List Token} {tree : StatementTree}
    (h : DerivesStatement n ts tree) (hts : ∀ tok ∈ ts, tok.Integral) :
    ∃ i : IntExpr, tree.clause = .value i.toExpr := by
  cases h with
  | shown h => exact h.exists_intExpr hts
  | assignment name h => exact h.exists_intExpr fun tok htok => hts tok (by simp [htok])

/-- **Integer evaluation is exact and never wraps**: a text without doubles, functions and
comparisons computes an expression of integers and variables. If the variables hold
integers, then it comes to an integer exactly if all operations on the way are sound, and
then this is the exact value. Otherwise it fails with the error of the first operation that
is not sound. -/
theorem evaluate_integers [FloatFunctions] {text : String} {tree : StatementTree}
    (htree : Parses text tree)
    (htokens : ∀ tok, .ok tok ∈ Lexer.outcomes text.toList → tok.Integral) :
    ∃ e : IntExpr, tree.clause = .value e.toExpr ∧
      ∀ (vars : Variables) (env : String → Int),
        (∀ name ∈ e.names, ∃ n : Int64, vars.get? name = some (.int n) ∧ n.toInt = env name) →
        ((∃ n, evaluate text vars = tree.success vars (.int n)) ↔
            ∀ o ∈ e.operations env, o.Sound) ∧
          (∀ n, evaluate text vars = tree.success vars (.int n) → n.toInt = e.value env) ∧
          ∀ o, e.offending? env = some o →
            ∃ err, evaluate text vars = (.error err, vars) ∧ o.FailsWith err := by
  have ⟨_, ts, houtcomes, hderives, _⟩ := htree
  have hts : ∀ tok ∈ ts, tok.Integral := fun tok htok =>
    htokens tok (houtcomes ▸ List.mem_map_of_mem htok)
  obtain ⟨e, he⟩ := hderives.exists_intExpr hts
  refine ⟨e, he, fun vars env henv => ?_⟩
  have hanswers := e.answers_eval henv
  have hclause : tree.clause.eval vars = e.toExpr.eval vars := by rw [he, Clause.eval]
  rw [evaluate_of_parses htree, StatementTree.run_eq, hclause]
  cases hoffending : e.offending? env with
  | none =>
      rw [hoffending] at hanswers
      obtain ⟨n, hn, hvalue⟩ := hanswers
      rw [hn]
      refine ⟨?_, fun m hm => ?_, fun o ho => by cases ho⟩
      · exact iff_of_true ⟨n, rfl⟩ (IntExpr.offending?_eq_none_iff.1 hoffending)
      · cases StatementTree.success_inj.1 hm
        exact hvalue
  | some o =>
      rw [hoffending] at hanswers
      obtain ⟨err, herr, hfails⟩ := hanswers
      have hunsound : ¬ ∀ o ∈ e.operations env, o.Sound := fun hsound => by
        rw [IntExpr.offending?_eq_none_iff.2 hsound] at hoffending
        cases hoffending
      have hfailed : ∀ n, (.error err, vars) ≠ tree.success vars (.int n) := fun n =>
        (tree.success_ne_error (.int n) err).symm
      rw [herr]
      refine ⟨?_, fun n hn => absurd hn (hfailed n), fun o' ho' => ?_⟩
      · refine iff_of_false ?_ hunsound
        rintro ⟨n, hn⟩
        exact hfailed n hn
      · cases ho'
        exact ⟨err, rfl, hfails⟩

section Machine

attribute [local instance] FloatFunctions.native

/-- The least integer divided by minus one. -/
theorem evaluate_integers_overflow :
    Parses "x / y" (.shown (.value (.binary .div (.ident "x") (.ident "y")))) ∧
      (∀ tok, .ok tok ∈ Lexer.outcomes "x / y".toList → tok.Integral) ∧
      (evaluate "x / y"
          ((Variables.empty.set "x" (.int Int64.minValue)).set "y" (.int (-1)))).1 =
        .error (.integerOverflow Int64.minValue .div (-1)) := by
  have houtcomes : Lexer.outcomes "x / y".toList =
      [.ident "x", .arith .div, .ident "y"].map .ok := by with_unfolding_all rfl
  have hparses : Parses "x / y" (.shown (.value (.binary .div (.ident "x") (.ident "y")))) :=
    ⟨0, _, houtcomes, .shown (.value (.ofTerm (.product (.ofApplication (.ofFactor (.ident "x")))
      (.inr rfl) (.ofFactor (.ident "y"))))), by decide⟩
  have htokens : ∀ tok, .ok tok ∈ Lexer.outcomes "x / y".toList → tok.Integral := by
    intro tok htok
    simp only [houtcomes, List.map_cons, List.map_nil, List.mem_cons, List.not_mem_nil, or_false,
      Except.ok.injEq] at htok
    rcases htok with rfl | rfl | rfl <;> trivial
  refine ⟨hparses, htokens, ?_⟩
  obtain ⟨e, he, hall⟩ := evaluate_integers hparses htokens
  obtain rfl : e = .binary .div (.ident "x") (.ident "y") :=
    IntExpr.toExpr_injective (Clause.value.inj he).symm
  let env : String → Int := fun name => if name = "x" then -9223372036854775808 else -1
  have henv : ∀ name ∈ ["x", "y"], ∃ n : Int64,
      ((Variables.empty.set "x" (.int Int64.minValue)).set "y" (.int (-1))).get? name =
          some (.int n) ∧
        n.toInt = env name := by
    simp [Variables.get?_set, env]
  obtain ⟨-, -, hoffending⟩ := hall _ env henv
  obtain ⟨err, herr, hfails⟩ := hoffending ⟨.div, -9223372036854775808, -1⟩ (by decide +kernel)
  rw [Operation.FailsWith, if_neg (by decide)] at hfails
  obtain ⟨left, right, hleft, hright, rfl⟩ := hfails
  have hleft' : left = Int64.minValue := Int64.toInt_inj.1 hleft
  have hright' : right = -1 := Int64.toInt_inj.1 hright
  rw [herr, hleft', hright']

end Machine

end Reckon
