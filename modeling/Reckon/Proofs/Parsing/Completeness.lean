import Reckon.Proofs.Grammar.Derivation
import Reckon.Proofs.Parsing.Reads

/-!
What the grammar derives is read, and comes to the value of its tree.

Going past the tokens of a derivation, a rule computes what the tree comes
to. A chain of operators does not know where it ends: after the tokens of a
derivation it goes on, and stops only if no operator of its own follows. So
the statement about a rule is about the rule and what it does next.

* `ruleOf` and `resumeOf`: the rule of each kind of expression, and what it
  does after the tokens of a derivation;
* `ending_ruleOf`: the main statement, by induction on the derivation;
* `ending_comparison`: a clause at the end of a text.
-/

namespace Reckon

namespace Parsing

variable {σ : Type} [TokenSource σ] {vars : Variables}

/-- The rule for expressions of this kind, in which this number of parentheses may
still be opened. -/
def ruleOf [FloatFunctions] (depth : Nat) : Level → Rule σ Value
  | .factor => factor depth
  | .application => application (factor depth)
  | .term => term (factor depth)
  | .expression => expressionWith (factor depth)

/-- What the rule does after the tokens of a derivation. -/
def resumeOf [FloatFunctions] (depth : Nat) : Level → Value → Reader σ → Outcome σ Value
  | .factor => .done
  | .application => .done
  | .term => Rule.chainFrom Token.multiplicative? (application (factor depth))
  | .expression => Rule.chainFrom Token.additive? (term (factor depth))

/-! ### Chains -/

/-- A chain is complete where no operator of its own follows. -/
lemma chainFrom_of_none {operator? : Token → Option ArithOp} {operand : Rule σ Value}
    {v : Value} {s : Reader σ} (h : operator? s.current = none) :
    Rule.chainFrom operator? operand v s = .done v s := by
  rw [Rule.chainFrom_eq, h]

/-- A chain goes on where an operator of its own follows. -/
lemma ending_chainFrom_of_some {operator? : Token → Option ArithOp} {operand : Rule σ Value}
    {v : Value} {s t : Reader σ} {op : ArithOp} (h : operator? s.current = some op)
    (hst : s.advance = .done () t) :
    (Rule.chainFrom operator? operand v s).ending =
      (operand.run t).ending >>= fun p =>
        v.apply op p.1 >>= fun w => (Rule.chainFrom operator? operand w p.2).ending := by
  rw [Rule.chainFrom_eq, h]
  simp only [hst, Outcome.bind_done, Outcome.ending_bind, Outcome.ending_ofExcept, bind_assoc]
  rfl

/-- After its first operand, a chain goes on from the value of it. -/
lemma ending_chain_of_operand {operator? : Token → Option ArithOp} {operand : Rule σ Value}
    {r : Except Error Value} {s u : Reader σ}
    (h : (operand.run s).ending = r >>= fun v => .ok (v, u)) :
    ((Rule.chain operator? operand).run s).ending =
      r >>= fun v => (Rule.chainFrom operator? operand v u).ending := by
  show ((operand.run s).bind _).ending = _
  rw [Outcome.ending_bind, h, bind_assoc]
  rfl

/-- After one more operator and its operand, a chain goes on from what the operator
comes to. -/
lemma ending_chain_of_operator {operator? : Token → Option ArithOp} {operand : Rule σ Value}
    {q r : Except Error Value} {s m t u : Reader σ} {op : ArithOp}
    (hchain : ((Rule.chain operator? operand).run s).ending =
      q >>= fun v => (Rule.chainFrom operator? operand v m).ending)
    (hm : operator? m.current = some op) (hmt : m.advance = .done () t)
    (hoperand : (operand.run t).ending = r >>= fun v => .ok (v, u)) :
    ((Rule.chain operator? operand).run s).ending =
      (q >>= fun v => r >>= fun w => v.apply op w) >>=
        fun v => (Rule.chainFrom operator? operand v u).ending := by
  rw [hchain, bind_assoc]
  refine bind_congr fun v => ?_
  rw [ending_chainFrom_of_some hm hmt, hoperand, bind_assoc, bind_assoc]
  rfl

/-! ### Factors and applications -/

lemma ending_accept {α : Type} {s t : Reader σ} (v : α) (hst : s.advance = .done () t) :
    (Rule.accept s v).ending = .ok (v, t) := by
  rw [Rule.accept, hst]
  rfl

/-- Something in parentheses, read by a rule that comes to the closing one. -/
lemma ending_enclosed {rule : Rule σ Value} {r : Except Error Value} {s t m u : Reader σ}
    (hst : s.advance = .done () t)
    (hrule : (rule.run t).ending = r >>= fun v => .ok (v, m))
    (hm : m.current = .rparen) (hmu : m.advance = .done () u) :
    (Rule.enclosed rule s).ending = r >>= fun v => .ok (v, u) := by
  rw [Rule.enclosed, hst, Outcome.bind_done, Outcome.ending_bind, hrule, bind_assoc]
  refine bind_congr fun v => ?_
  show (Rule.close v m).ending = _
  rw [Rule.close, if_pos hm, ending_accept v hmu]

/-- No factor starts with a function. -/
lemma current_ne_function {n : Nat} {ts : List Token} {e : Expr} {s u : Reader σ}
    (h : Derives .factor n ts e) (hsu : s.Reads ts u) (f : Elementary) :
    s.current ≠ .function f := by
  intro hf
  cases h with
  | int | float | ident | parentheses =>
      rw [hsu.1] at hf
      cases hf

variable [FloatFunctions]

/-- What may stand in the parentheses of a factor. -/
def innerRule : Nat → Option (Rule σ Value)
  | 0 => none
  | depth + 1 => some (expressionWith (factor depth))

lemma run_factor (depth : Nat) (s : Reader σ) :
    (factor depth).run s = readFactor (innerRule depth) s := by
  cases depth <;> rfl

lemma readApplication_of_ne_function {rule : Rule σ Value} {s : Reader σ}
    (h : ∀ f, s.current ≠ .function f) : readApplication rule s = rule.run s := by
  rw [readApplication]
  cases hs : s.current with
  | function f => exact absurd hs (h f)
  | _ => rfl

/-- A function and the factor after it. -/
lemma ending_call {rule : Rule σ Value} {r : Except Error Value} {f : Elementary}
    {s t u : Reader σ} (hs : s.current = .function f) (hst : s.advance = .done () t)
    (hrule : (rule.run t).ending = r >>= fun v => .ok (v, u)) :
    (readApplication rule s).ending = (r >>= applyFunction f) >>= fun v => .ok (v, u) := by
  simp only [readApplication, hs, hst, Outcome.bind_done, Outcome.ending_bind, hrule,
    Outcome.ending_ofExcept, bind_assoc, ok_bind]

/-! ### Expressions -/

/-- A term is complete where no operator of its own follows. -/
lemma ending_term_of_closed {depth : Nat} {r : Except Error Value} {s u : Reader σ}
    (h : ((term (factor depth)).run s).ending =
      r >>= fun v => (resumeOf depth .term v u).ending)
    (hu : u.current.multiplicative? = none) :
    ((term (factor depth)).run s).ending = r >>= fun v => .ok (v, u) := by
  rw [h]
  refine bind_congr fun v => ?_
  rw [resumeOf, chainFrom_of_none hu]
  rfl

/-- **Derivations are read**: on the tokens of a derivation, a rule comes to the value
of the tree, and goes on from there. -/
theorem ending_ruleOf {level : Level} {n : Nat} {ts : List Token} {e : Expr}
    (h : Derives level n ts e) {depth : Nat} (hn : n ≤ depth) {s u : Reader σ}
    (hvars : s.vars = vars) (hsu : s.Reads ts u) (hu : level.Closed u.current) :
    ((ruleOf depth level).run s).ending =
      e.eval vars >>= fun v => (resumeOf depth level v u).ending := by
  induction h generalizing depth s u with
  | int n | float x =>
      obtain ⟨hs, t, hst, rfl⟩ := hsu
      rw [ruleOf, run_factor, readFactor.eq_def, hs]
      exact ending_accept _ hst
  | ident name =>
      obtain ⟨hs, t, hst, rfl⟩ := hsu
      rw [ruleOf, run_factor, readFactor.eq_def, hs, hvars, Expr.eval]
      dsimp only
      cases vars.get name with
      | ok v => exact ending_accept v hst
      | error e => rfl
  | parentheses inner ih =>
      obtain ⟨depth, rfl⟩ : ∃ d, depth = d + 1 := ⟨depth - 1, by omega⟩
      obtain ⟨hs, t, hst, htu⟩ := hsu
      obtain ⟨m, htm, hm, _, hmu, rfl⟩ := Reader.reads_append_iff.1 htu
      have htvars : t.vars = vars := (Reader.vars_of_advance hst).trans hvars
      have hinner := ih (Nat.le_of_succ_le_succ hn) htvars htm (by rw [hm]; rfl)
      -- The closing parenthesis is no operator, so the chain inside ends there.
      have hclosed : ∀ v, resumeOf depth .expression v m = .done v m := by
        intro v
        exact chainFrom_of_none (by rw [hm]; rfl)
      simp only [hclosed] at hinner
      rw [ruleOf, run_factor, readFactor.eq_def, hs]
      exact ending_enclosed hst hinner hm hmu
  | ofFactor h ih =>
      show (readApplication _ s).ending = _
      rw [readApplication_of_ne_function (current_ne_function h hsu)]
      exact ih hn hvars hsu rfl
  | call f argument ih =>
      obtain ⟨hs, t, hst, htu⟩ := hsu
      have htvars : t.vars = vars := (Reader.vars_of_advance hst).trans hvars
      rw [Expr.eval_call]
      exact ending_call hs hst (ih hn htvars htu rfl)
  | ofApplication h ih => exact ending_chain_of_operand (ih hn hvars hsu rfl)
  | product left hop right ihl ihr =>
      obtain ⟨m, hsm, hm, t, hmt, htu⟩ := Reader.reads_append_iff.1 hsu
      have htvars : t.vars = vars := (Reader.vars_after hsm hmt).trans hvars
      exact ending_chain_of_operator (ihl (by omega) hvars hsm rfl)
        (by rw [hm]; exact Token.multiplicative?_arith hop) hmt (ihr (by omega) htvars htu rfl)
  | ofTerm h ih =>
      exact ending_chain_of_operand (ending_term_of_closed (ih hn hvars hsu rfl) hu)
  | @sum j k ts us l r op left hop right ihl ihr =>
      obtain ⟨m, hsm, hm, t, hmt, htu⟩ := Reader.reads_append_iff.1 hsu
      have hadd : Level.expression.operator? m.current = some op := by
        rw [hm]
        exact Token.additive?_arith hop
      -- The operator between the two sides ends the last term of the left one.
      have hclosed : Level.expression.Closed m.current := Level.closed_of_operator? hadd
      have htvars : t.vars = vars := (Reader.vars_after hsm hmt).trans hvars
      exact ending_chain_of_operator (ihl (by omega) hvars hsm hclosed) hadd hmt
        (ending_term_of_closed (ihr (by omega) htvars htu rfl) hu)

/-- An expression that no operator follows. -/
lemma ending_expression {n : Nat} {ts : List Token} {e : Expr} (h : Derives .expression n ts e)
    {depth : Nat} (hn : n ≤ depth) {s u : Reader σ} (hvars : s.vars = vars)
    (hsu : s.Reads ts u) (hmul : u.current.multiplicative? = none)
    (hadd : u.current.additive? = none) :
    ((expression depth).run s).ending = e.eval vars >>= fun v => .ok (v, u) := by
  have hrule : ((ruleOf depth .expression).run s).ending = _ :=
    ending_ruleOf h hn hvars hsu hmul
  simp only [resumeOf, chainFrom_of_none hadd] at hrule
  exact hrule

/-- **Clauses are read**: on the tokens of a clause, up to the end of the text, the value
of the tree comes out. -/
theorem ending_comparison {n : Nat} {ts : List Token} {c : Clause} (h : DerivesClause n ts c)
    (hn : n ≤ maxNesting) {s u : Reader σ} (hvars : s.vars = vars) (hsu : s.Reads ts u)
    (hu : u.current = .eof) :
    (comparison s).ending = c.eval vars >>= fun v => .ok (v, u) := by
  have hmul : u.current.multiplicative? = none := by rw [hu]; rfl
  have hadd : u.current.additive? = none := by rw [hu]; rfl
  have hfinish : ∀ v, (finish v u).ending = .ok (v, u) := by
    intro v
    rw [finish, if_pos hu]
    rfl
  rw [comparison, Outcome.ending_bind]
  cases h with
  | value h =>
      rw [ending_expression h hn hvars hsu hmul hadd, bind_assoc]
      refine bind_congr fun v => ?_
      simp only [ok_bind, hu, hfinish]
  | comparison op left right =>
      obtain ⟨m, hsm, hm, t, hmt, htu⟩ := Reader.reads_append_iff.1 hsu
      have htvars : t.vars = vars := (Reader.vars_after hsm hmt).trans hvars
      have hleft : ((expression maxNesting).run s).ending = _ :=
        ending_expression left (by omega) hvars hsm (by rw [hm]; rfl) (by rw [hm]; rfl)
      have hright : ((expression maxNesting).run t).ending = _ :=
        ending_expression right (by omega) htvars htu hmul hadd
      rw [hleft, Clause.eval, bind_assoc, bind_assoc]
      refine bind_congr fun v => ?_
      simp only [ok_bind, hm, hmt, Outcome.bind_done, Outcome.ending_bind, hright,
        Outcome.ending_ofExcept, hfinish, bind_assoc]

end Parsing

end Reckon
