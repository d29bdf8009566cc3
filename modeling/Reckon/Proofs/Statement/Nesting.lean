import Reckon.Proofs.Grammar.Deepest
import Reckon.Proofs.Statement.Substitution

/-!
Parentheses around an expression.

An expression keeps its value in any number of parentheses, as long as not
more than 256 are open at once. The 257th one is refused before anything
behind it is looked at, and no fault can come before it: what was computed up
to there is part of an expression that has a value.

* `ending_ruleOf_of_lt`: a rule fails at the first parenthesis that it may not
  open, by induction on the derivation;
* `evaluate_of_nested`: what follows for a text that starts with a
  parenthesis;
* `inParentheses`: any number of parentheses around a text, and
  `outcomes_inParentheses`, its tokens;
* `evaluate_parenthesized`: the main statement.
-/

namespace Reckon

open Parsing

/-! ### Derivations that are too deep -/

lemma exists_of_bind_eq_ok {α β : Type} {r : Except Error α} {f : α → Except Error β} {v : β}
    (h : (r >>= f) = .ok v) : ∃ w, r = .ok w ∧ f w = .ok v := by
  cases r with
  | ok w => exact ⟨w, rfl, h⟩
  | error e => cases h

section Rules

variable {σ : Type} [TokenSource σ] {vars : Variables} {depth n : Nat} {s t m u : Reader σ}
  {v : Value} {e : Expr} {ts : List Token}

/-- A chain fails with its first operand. -/
lemma ending_chain_of_operand_error {operator? : Token → Option ArithOp} {operand : Rule σ Value}
    {error : Error} (h : (operand.run s).ending = .error error) :
    ((Rule.chain operator? operand).run s).ending = .error error := by
  show ((operand.run s).bind (Rule.chainFrom operator? operand)).ending = _
  rw [Outcome.ending_bind, h]
  rfl

/-- A chain fails with an operand behind an operator. -/
lemma ending_chainFrom_of_operand_error {operator? : Token → Option ArithOp}
    {operand : Rule σ Value} {op : ArithOp} {error : Error} (hop : operator? m.current = some op)
    (hmt : m.advance = .done () t) (h : (operand.run t).ending = .error error) :
    (Rule.chainFrom operator? operand v m).ending = .error error := by
  rw [ending_chainFrom_of_some hop hmt, h]
  rfl

variable [FloatFunctions]

/-- An operator and its two sides: where the left side is not too deep, it comes to its value,
and the right side is read. -/
lemma ending_ruleOf_binary_of_lt {level : Level} {tok : Token} {op : ArithOp} {j k : Nat}
    {us : List Token} {l r : Expr} {error : Error} (hop : level.operator? tok = some op)
    (left : Derives level j ts l) (hv : (Expr.binary op l r).eval vars = .ok v)
    (hn : depth < max j k) (hvars : s.vars = vars) (hsu : s.Reads (ts ++ tok :: us) u)
    (hleft : ∀ {m x}, l.eval vars = .ok x → depth < j → s.Reads ts m →
      ((ruleOf depth level).run s).ending = .error error)
    (hright : ∀ {t y}, r.eval vars = .ok y → depth < k → t.vars = vars → t.Reads us u →
      ((ruleOf depth level.operand).run t).ending = .error error) :
    ((ruleOf depth level).run s).ending = .error error := by
  obtain ⟨m, hsm, rfl, t, hmt, htu⟩ := Reader.reads_append_iff.1 hsu
  rw [Expr.eval] at hv
  obtain ⟨x, hx, hv⟩ := exists_of_bind_eq_ok hv
  obtain ⟨y, hy, -⟩ := exists_of_bind_eq_ok hv
  by_cases hj : depth < j
  · exact hleft hx hj hsm
  · have htvars : t.vars = vars := (Reader.vars_after hsm hmt).trans hvars
    have herror := hright hy (by omega) htvars htu
    rw [ending_ruleOf left (Nat.le_of_not_lt hj) hvars hsm (Level.closed_of_operator? hop), hx,
      ok_bind]
    cases level with
    | factor | application => cases hop
    | term | expression => exact ending_chainFrom_of_operand_error hop hmt herror

/-- **Too deep for a rule**: if the tokens are an expression with a value, and more parentheses
are open in it than the rule may open, then the rule fails, and for no other reason. -/
theorem ending_ruleOf_of_lt {level : Level} (h : Derives level n ts e)
    (hv : e.eval vars = .ok v) (hn : depth < n) (hvars : s.vars = vars) (hsu : s.Reads ts u) :
    ((ruleOf depth level).run s).ending = .error (.syntactic .nestedTooDeeply) := by
  induction h generalizing depth s u v with
  | int | float | ident => exact absurd hn (Nat.not_lt_zero depth)
  | parentheses inner ih =>
      obtain ⟨hs, t, hst, htu⟩ := hsu
      obtain ⟨m, htm, -⟩ := Reader.reads_append_iff.1 htu
      rw [ruleOf, run_factor, readFactor.eq_def, hs]
      cases depth with
      | zero => rfl
      | succ depth =>
          have htvars : t.vars = vars := (Reader.vars_of_advance hst).trans hvars
          have hinner : ((expressionWith (factor depth)).run t).ending = _ :=
            ih hv (Nat.lt_of_succ_lt_succ hn) htvars htm
          show (Rule.enclosed (expressionWith (factor depth)) s).ending = _
          rw [Rule.enclosed, hst, Outcome.bind_done, Outcome.ending_bind, hinner]
          rfl
  | ofFactor h ih =>
      show (readApplication _ s).ending = _
      rw [readApplication_of_ne_function (current_ne_function h hsu)]
      exact ih hv hn hvars hsu
  | call f argument ih =>
      obtain ⟨hs, t, hst, htu⟩ := hsu
      have htvars : t.vars = vars := (Reader.vars_of_advance hst).trans hvars
      rw [Expr.eval_call] at hv
      obtain ⟨w, hw, -⟩ := exists_of_bind_eq_ok hv
      have hargument : ((factor depth).run t).ending = _ := ih hw hn htvars htu
      show (readApplication (factor depth) s).ending = _
      simp only [readApplication, hs, hst, Outcome.bind_done, Outcome.ending_bind, hargument,
        error_bind]
  | ofApplication h ih | ofTerm h ih => exact ending_chain_of_operand_error (ih hv hn hvars hsu)
  | product left hop right ihl ihr =>
      exact ending_ruleOf_binary_of_lt (Token.multiplicative?_arith hop) left hv hn hvars hsu
        (fun hx hj hsm => ihl hx hj hvars hsm) ihr
  | sum left hop right ihl ihr =>
      exact ending_ruleOf_binary_of_lt (Token.additive?_arith hop) left hv hn hvars hsu
        (fun hx hj hsm => ihl hx hj hvars hsm) ihr

end Rules

/-! ### Texts -/

variable {text e : String} {vars : Variables} {v : Value} {n k : Nat} {ts : List Token} {x : Expr}

lemma Outcome.result_eq_ending {σ α : Type} (o : Outcome σ α) :
    o.result = o.ending.map Prod.fst := by
  cases o <;> rfl

/-- A text that starts with a parenthesis and in which too many are open is refused for nothing
else, if it is an expression with a value. -/
lemma evaluate_of_nested [FloatFunctions]
    (houtcomes : Lexer.outcomes text.toList = (Token.lparen :: ts).map .ok)
    (hx : Derives .expression n (.lparen :: ts) x) (hv : x.eval vars = .ok v) (hn : 256 < n) :
    evaluate text vars = (.error (.syntactic .nestedTooDeeply), vars) := by
  obtain ⟨s, hs⟩ := Reader.exists_start houtcomes vars
  obtain ⟨u, hsu, -⟩ :=
    Reader.exists_reads_of_upcoming ((Reader.upcoming_of_start hs).trans houtcomes)
  have hcurrent : s.current = .lparen := hsu.1
  have hexpression : ((expression maxNesting).run s).ending = _ :=
    ending_ruleOf_of_lt hx hv hn (Reader.vars_of_start hs) hsu
  have hcomparison : (comparison s).ending = .error (.syntactic .nestedTooDeeply) := by
    rw [comparison, Outcome.ending_bind, hexpression]
    rfl
  have herror : (evaluate text vars).1 = .error (.syntactic .nestedTooDeeply) := by
    rw [evaluate_of_start hs, statement_of_ne_ident (by simp [hcurrent]), Outcome.result_map,
      Outcome.result_eq_ending, hcomparison]
    rfl
  exact Prod.ext herror (evaluate_snd_of_error herror)

/-- The text in this number of parentheses. -/
def inParentheses (k : Nat) (e : String) : String :=
  String.ofList (List.replicate k '(') ++ e ++ String.ofList (List.replicate k ')')

lemma Lexer.outcomes_lparens_append (k : Nat) (text : List Char) :
    outcomes (List.replicate k '(' ++ text) = List.replicate k (.ok .lparen) ++ outcomes text := by
  induction k with
  | zero => rfl
  | succ k ih =>
      rw [List.replicate_succ, List.cons_append, outcomes_lparen_cons, ih, List.replicate_succ,
        List.cons_append]

lemma Lexer.outcomes_append_rparens (k : Nat) (text : List Char) :
    outcomes (text ++ List.replicate k ')') = outcomes text ++ List.replicate k (.ok .rparen) := by
  induction k with
  | zero => simp
  | succ k ih =>
      rw [List.replicate_succ', List.replicate_succ', ← List.append_assoc,
        outcomes_append _ (separates_rparen_cons []), ih, outcomes_rparen_cons, outcomes_nil,
        List.append_assoc]

/-- Parentheses around a text are parentheses around its tokens. -/
lemma outcomes_inParentheses (k : Nat) (h : Lexer.outcomes e.toList = ts.map .ok) :
    Lexer.outcomes (inParentheses k e).toList =
      (List.replicate k Token.lparen ++ ts ++ List.replicate k Token.rparen).map .ok := by
  simp only [inParentheses, String.toList_append, String.toList_ofList, List.append_assoc,
    Lexer.outcomes_lparens_append, Lexer.outcomes_append_rparens, h, List.map_append,
    List.map_replicate]

/-- **Redundant parentheses**: in parentheses, an expression that shows a value shows the same
value, as long as no more than 256 are open at once, and from there on it is refused for its
nesting and nothing else. The table stays what it is. -/
theorem evaluate_parenthesized [FloatFunctions]
    (hcomparison : ∀ op, .ok (.comparison op) ∉ Lexer.outcomes e.toList)
    (he : (evaluate e vars).1 = .ok (some v)) (k : Nat) :
    (k + deepest '(' ')' e.toList ≤ 256 →
        evaluate (inParentheses k e) vars = (.ok (some v), vars)) ∧
      (256 < k + deepest '(' ')' e.toList →
        ∃ error, evaluate (inParentheses k e) vars = (.error error, vars) ∧
          error.report = ⟨.parse, "expression is nested too deeply"⟩) := by
  obtain ⟨x, hparses, hv⟩ := exists_parses_of_evaluate_some he hcomparison
  obtain ⟨n, ts, hts, hx, hn⟩ := hparses.exists_derives
  have hdeepest : deepest '(' ')' e.toList = n := by rw [Lexer.deepest_text hts, hx.deepest_eq]
  have houtcomes := outcomes_inParentheses k hts
  have hderives := hx.inParentheses k
  rw [hdeepest]
  constructor
  · intro hle
    have hwhole : Parses (inParentheses k e) (.shown (.value x)) :=
      ⟨k + n, _, houtcomes, .shown (.value hderives), hle⟩
    rw [evaluate_of_parses hwhole, StatementTree.run, Clause.eval, hv]
    rfl
  · intro hlt
    obtain ⟨k, rfl⟩ : ∃ j, k = j + 1 := ⟨k - 1, by omega⟩
    rw [List.replicate_succ, List.cons_append, List.cons_append] at houtcomes hderives
    exact ⟨_, evaluate_of_nested houtcomes hderives hv hlt, rfl⟩

section Machine

attribute [local instance] FloatFunctions.native

/-- One pair of parentheses is open in the expression, so 255 more may be. -/
theorem evaluate_parenthesized_product :
    (∀ op, .ok (.comparison op) ∉ Lexer.outcomes "2 * (1 + 3)".toList) ∧
      (evaluate "2 * (1 + 3)" .empty).1 = .ok (some (.int 8)) ∧
      evaluate (inParentheses 255 "2 * (1 + 3)") .empty = (.ok (some (.int 8)), .empty) ∧
      ∃ error, evaluate (inParentheses 256 "2 * (1 + 3)") .empty = (.error error, .empty) ∧
        error.report = ⟨.parse, "expression is nested too deeply"⟩ := by
  have houtcomes : Lexer.outcomes "2 * (1 + 3)".toList =
      [.ok (.int 2), .ok (.arith .mul), .ok .lparen, .ok (.int 1), .ok (.arith .add), .ok (.int 3),
        .ok .rparen] := by with_unfolding_all rfl
  have hcomparison : ∀ op, .ok (.comparison op) ∉ Lexer.outcomes "2 * (1 + 3)".toList := by
    intro op
    rw [houtcomes]
    simp
  have hvalue : (evaluate "2 * (1 + 3)" .empty).1 = .ok (some (.int 8)) := by
    with_unfolding_all rfl
  have hdeepest : deepest '(' ')' "2 * (1 + 3)".toList = 1 := by decide
  refine ⟨hcomparison, hvalue, ?_, ?_⟩
  · exact (evaluate_parenthesized hcomparison hvalue 255).1 (by rw [hdeepest])
  · exact (evaluate_parenthesized hcomparison hvalue 256).2 (by rw [hdeepest]; decide)

end Machine

end Reckon
