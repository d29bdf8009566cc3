import Reckon.Proofs.Grammar.Derivation
import Reckon.Proofs.Parsing.Reads

/-!
What is read is derived by the grammar.

If a rule succeeds, then the tokens that it went past are a derivation, and
the value is that of its tree. A chain of operators keeps this up for the
part that it has already read, which is its invariant.

* `Found`: the tokens between two places are a derivation with a value;
* `found_chainFrom`: the invariant of a chain;
* `finds_factor`: the main statement, by induction on the number of
  parentheses that may be opened;
* `exists_derivesClause`: a clause up to the end of a text.
-/

namespace Reckon.Parsing

variable {σ : Type} [TokenSource σ] [FloatFunctions]

/-- The tokens between the two places are an expression of this kind with this value,
and no more than this number of parentheses are open in it. -/
def Found (level : Level) (depth : Nat) (s u : Reader σ) (v : Value) : Prop :=
  ∃ n ts e, Derives level n ts e ∧ n ≤ depth ∧ s.Reads ts u ∧ e.eval s.vars = .ok v

/-- What the rule reads is an expression of this kind. -/
def Finds (level : Level) (depth : Nat) (rule : Rule σ Value) : Prop :=
  ∀ ⦃s u : Reader σ⦄ ⦃v : Value⦄, rule.run s = .done v u → Found level depth s u v

/-! ### Factors and applications -/

/-- One token that stands for a value. -/
lemma found_of_accept {depth : Nat} {tok : Token} {e : Expr} {s u : Reader σ} {v w : Value}
    (hs : s.current = tok) (he : Derives .factor 0 [tok] e) (hv : e.eval s.vars = .ok v)
    (h : Rule.accept s v = .done w u) : Found .factor depth s u w := by
  obtain ⟨hsu, rfl⟩ := Rule.accept_eq_done_iff.1 h
  exact ⟨0, [tok], e, he, Nat.zero_le _, ⟨hs, u, hsu, rfl⟩, hv⟩

/-- Something in parentheses. -/
lemma found_of_enclosed {depth : Nat} {rule : Rule σ Value} (hrule : Finds .expression depth rule)
    {s u : Reader σ} {v : Value} (hs : s.current = .lparen) (h : Rule.enclosed rule s = .done v u) :
    Found .factor (depth + 1) s u v := by
  obtain ⟨_, t, hst, h⟩ := Outcome.bind_eq_done_iff.1 h
  obtain ⟨w, m, htm, h⟩ := Outcome.bind_eq_done_iff.1 h
  obtain ⟨n, ts, e, he, hn, hts, hw⟩ := hrule htm
  rw [Rule.close] at h
  split_ifs at h with hm
  obtain ⟨hmu, rfl⟩ := Rule.accept_eq_done_iff.1 h
  rw [Reader.vars_of_advance hst] at hw
  refine ⟨n + 1, _, e, .parentheses he, Nat.succ_le_succ hn, ?_, hw⟩
  exact ⟨hs, t, hst, Reader.reads_append_iff.2 ⟨m, hts, hm, u, hmu, rfl⟩⟩

/-- A factor, if what may stand in its parentheses is an expression. -/
lemma found_of_readFactor {depth : Nat} {inner : Option (Rule σ Value)}
    (hinner : ∀ rule, inner = some rule → ∃ d, depth = d + 1 ∧ Finds .expression d rule)
    {s u : Reader σ} {v : Value} (h : readFactor inner s = .done v u) :
    Found .factor depth s u v := by
  rw [readFactor.eq_def] at h
  cases hs : s.current <;> rw [hs] at h <;> dsimp only at h
  case int n => exact found_of_accept hs (.int n) rfl h
  case float x => exact found_of_accept hs (.float x) rfl h
  case ident name =>
    cases hget : s.vars.get name <;> rw [hget] at h
    case ok w => exact found_of_accept hs (.ident name) hget h
    case error e => cases h
  case lparen =>
    cases inner with
    | none => cases h
    | some rule =>
        obtain ⟨d, rfl, hrule⟩ := hinner rule rfl
        exact found_of_enclosed hrule hs h
  all_goals cases h

/-- An application, if the factor in it is one. -/
lemma finds_application {depth : Nat} {rule : Rule σ Value} (hrule : Finds .factor depth rule) :
    Finds .application depth (application rule) := by
  intro s u v h
  replace h : readApplication rule s = .done v u := h
  rw [readApplication.eq_def] at h
  cases hs : s.current <;> rw [hs] at h <;> dsimp only at h
  case function f =>
    obtain ⟨_, t, hst, h⟩ := Outcome.bind_eq_done_iff.1 h
    obtain ⟨w, m, htm, h⟩ := Outcome.bind_eq_done_iff.1 h
    obtain ⟨hv, rfl⟩ := Outcome.ofExcept_eq_done_iff.1 h
    obtain ⟨n, ts, e, he, hn, hts, hw⟩ := hrule htm
    refine ⟨n, .function f :: ts, .call f e, .call f he, hn, ⟨hs, t, hst, hts⟩, ?_⟩
    rw [Reader.vars_of_advance hst] at hw
    rw [Expr.eval_call, hw]
    exact hv
  all_goals
    obtain ⟨n, ts, e, he, hn, hts, hv⟩ := hrule h
    exact ⟨n, ts, e, .ofFactor he, hn, hts, hv⟩

/-! ### Chains -/

/-- **The invariant of a chain**: what is read so far is an expression with the value so
far. -/
lemma found_chainFrom {level : Level} {depth : Nat} {operand : Rule σ Value}
    (hoperand : Finds level.operand depth operand) {s m u : Reader σ} {left v : Value}
    (hleft : Found level depth s m left)
    (h : Rule.chainFrom level.operator? operand left m = .done v u) :
    Found level depth s u v := by
  fun_induction Rule.chainFrom level.operator? operand left m with
  | case1 left m hnone =>
      cases h
      exact hleft
  | case2 => cases h
  | case3 => cases h
  | case4 => cases h
  | case5 left m op hop _ t hmt right m' htm' w happly ih =>
      refine ih ?_ h
      obtain ⟨k, ts, l, hl, hk, hts, hleft⟩ := hleft
      obtain ⟨n, us, r, hr, hn, hus, hright⟩ := hoperand htm'
      rw [Reader.vars_after hts hmt] at hright
      refine ⟨_, _, _, .join hop hl hr, by omega, ?_, ?_⟩
      · exact Reader.reads_append_iff.2 ⟨m, hts, rfl, t, hmt, hus⟩
      · rw [Expr.eval, hleft, hright]
        exact happly

/-- A chain, if its operands are expressions. -/
lemma finds_chain {level : Level} {depth : Nat} {operand : Rule σ Value}
    (hoperand : Finds level.operand depth operand) :
    Finds level depth (Rule.chain level.operator? operand) := by
  intro s u v h
  obtain ⟨left, m, hsm, h⟩ := Outcome.bind_eq_done_iff.1 h
  obtain ⟨n, ts, e, he, hn, hts, hleft⟩ := hoperand hsm
  exact found_chainFrom hoperand ⟨n, ts, e, .of_operand he, hn, hts, hleft⟩ h

/-! ### Expressions and clauses -/

lemma finds_expressionWith {depth : Nat} {rule : Rule σ Value}
    (hrule : Finds .factor depth rule) :
    Finds .expression depth (expressionWith rule) := by
  have happlication : Finds Level.term.operand depth (application rule) :=
    finds_application hrule
  have hterm : Finds Level.expression.operand depth (term rule) := finds_chain happlication
  exact finds_chain hterm

/-- **What is read is derived**: the tokens of a factor that was read are a factor of the
grammar, with the value that was computed. -/
theorem finds_factor (depth : Nat) : Finds .factor depth (factor depth : Rule σ Value) := by
  induction depth with
  | zero =>
      intro s u v h
      replace h : readFactor none s = .done v u := h
      exact found_of_readFactor (fun rule hrule => absurd hrule (by simp)) h
  | succ depth ih =>
      intro s u v h
      replace h : readFactor (some (expressionWith (factor depth))) s = .done v u := h
      refine found_of_readFactor (fun rule hrule => ⟨depth, rfl, ?_⟩) h
      cases hrule
      exact finds_expressionWith ih

/-- The tokens of an expression that was read are an expression of the grammar. -/
lemma found_of_expression {depth : Nat} {s u : Reader σ} {v : Value}
    (h : (expression depth).run s = .done v u) : Found .expression depth s u v :=
  finds_expressionWith (finds_factor depth) h

/-- **Clauses**: what is read up to the end of a text is a clause of the grammar, with the
value that was computed. -/
theorem exists_derivesClause {s u : Reader σ} {v : Value} (h : comparison s = .done v u) :
    ∃ n ts c, DerivesClause n ts c ∧ n ≤ maxNesting ∧ s.Reads ts u ∧ u.current = .eof ∧
      c.eval s.vars = .ok v := by
  obtain ⟨left, m, hsm, h⟩ := Outcome.bind_eq_done_iff.1 h
  obtain ⟨n, ts, l, hl, hn, hts, hleft⟩ := found_of_expression hsm
  have hend : ∀ {w : Value} {x : Reader σ}, finish w x = .done v u →
      w = v ∧ x = u ∧ u.current = .eof := by
    intro w x hx
    rw [finish] at hx
    split_ifs at hx with heof
    cases hx
    exact ⟨rfl, rfl, heof⟩
  split at h
  case h_1 op hm =>
    obtain ⟨_, t, hmt, h⟩ := Outcome.bind_eq_done_iff.1 h
    obtain ⟨right, x, htx, h⟩ := Outcome.bind_eq_done_iff.1 h
    obtain ⟨w, y, hwy, h⟩ := Outcome.bind_eq_done_iff.1 h
    obtain ⟨hcompare, rfl⟩ := Outcome.ofExcept_eq_done_iff.1 hwy
    obtain ⟨rfl, rfl, heof⟩ := hend h
    obtain ⟨k, us, r, hr, hk, hus, hright⟩ := found_of_expression htx
    rw [Reader.vars_after hts hmt] at hright
    refine ⟨_, _, _, .comparison op hl hr, by omega, ?_, heof, ?_⟩
    · exact Reader.reads_append_iff.2 ⟨m, hts, hm, t, hmt, hus⟩
    · rw [Clause.eval, hleft, hright]
      exact hcompare
  case h_2 =>
    obtain ⟨rfl, rfl, heof⟩ := hend h
    exact ⟨n, ts, .value l, .value hl, hn, hts, heof, hleft⟩

end Reckon.Parsing
