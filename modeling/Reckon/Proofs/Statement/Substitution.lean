import Reckon.Proofs.Grammar.Replacement
import Reckon.Proofs.Lexer.Splitting
import Reckon.Proofs.Statement.Evaluation

/-!
A variable in the place of the expression that defines it.

A variable that holds the value of an expression may be written wherever the
expression stands in parentheses. Wherever that is in a text, the text comes
to what it came to before, and leaves the table that it left before.

* `outcomes_group` and `outcomes_name`: the tokens of a text in which a group
  stands, or a name;
* `exists_of_evaluate_some`: a text without a comparison that shows a value is
  an expression with this value;
* `evaluate_substitution`: the main statement.
-/

namespace Reckon

/-! ### The tokens -/

/-- A text in parentheses and blanks is cut off from what is around it. -/
lemma outcomes_group (pre e post : String) :
    Lexer.outcomes (pre ++ " (" ++ e ++ ") " ++ post).toList =
      Lexer.outcomes pre.toList ++ .ok .lparen ::
        (Lexer.outcomes e.toList ++ .ok .rparen :: Lexer.outcomes post.toList) := by
  have hblank : Text.isBlank ' ' = true := by decide
  have htext : (pre ++ " (" ++ e ++ ") " ++ post).toList =
      pre.toList ++ ' ' :: '(' :: (e.toList ++ ')' :: ' ' :: post.toList) := by
    simp
  rw [htext, Lexer.outcomes_append _ (Lexer.separates_cons_of_blank hblank _),
    Lexer.outcomes_cons_of_blank hblank, Lexer.outcomes_lparen_cons,
    Lexer.outcomes_append _ (Lexer.separates_rparen_cons _), Lexer.outcomes_rparen_cons,
    Lexer.outcomes_cons_of_blank hblank]

/-- A word between blanks is a name, and is cut off from what is around it. -/
lemma outcomes_name {t : String} (ht : Text.IsWord t) (pre post : String) :
    Lexer.outcomes (pre ++ " " ++ t ++ " " ++ post).toList =
      Lexer.outcomes pre.toList ++ .ok (.ident t) :: Lexer.outcomes post.toList := by
  have hblank : Text.isBlank ' ' = true := by decide
  have hends : Lexer.EndsWord (' ' :: post.toList) := by
    intro c hc
    cases hc
    decide +kernel
  have htext : (pre ++ " " ++ t ++ " " ++ post).toList =
      pre.toList ++ ' ' :: (t.toList ++ ' ' :: post.toList) := by
    simp
  rw [htext, Lexer.outcomes_append _ (Lexer.separates_cons_of_blank hblank _),
    Lexer.outcomes_cons_of_blank hblank,
    Lexer.outcomes_word_append (by simpa using ht.ne_empty) ht.letters hends,
    String.ofList_toList,
    Lexer.outcomes_cons_of_blank hblank]

/-- Where there are no faults, there are none around a group of tokens. -/
lemma exists_tokens_of_group {zs ts : List Token} {os os' : List (Except LexError Token)}
    (h : os ++ .ok .lparen :: (ts.map .ok ++ .ok .rparen :: os') = zs.map .ok) :
    ∃ ps qs, os = ps.map .ok ∧ os' = qs.map .ok ∧ zs = ps ++ .lparen :: (ts ++ .rparen :: qs) := by
  obtain ⟨ps, rest, rfl, rfl, hgroup⟩ := List.map_eq_append_iff.1 h.symm
  obtain ⟨tok, inner, rfl, htok, hinner⟩ := List.map_eq_cons_iff.1 hgroup
  obtain ⟨us, last, rfl, hus, hlast⟩ := List.map_eq_append_iff.1 hinner
  obtain ⟨tok', qs, rfl, htok', rfl⟩ := List.map_eq_cons_iff.1 hlast
  obtain rfl : us = ts := (List.map_inj_right fun _ _ h => Except.ok.inj h).1 hus
  exact ⟨ps, qs, rfl, rfl, by rw [Except.ok.inj htok, Except.ok.inj htok']⟩

/-! ### The statement -/

variable {t e pre post : String} {vars after : Variables} {v : Value} {r : Option Value}

/-- The tokens of a text that is an expression. -/
lemma Parses.exists_derives {x : Expr} (h : Parses e (.shown (.value x))) :
    ∃ n ts, Lexer.outcomes e.toList = ts.map .ok ∧ Derives .expression n ts x ∧ n ≤ 256 := by
  obtain ⟨n, ts, houtcomes, hderives, hn⟩ := h
  cases hderives with
  | shown hc =>
      cases hc with
      | value hx => exact ⟨n, ts, houtcomes, hx, hn⟩

section Substitution

variable [FloatFunctions]

/-- What shows a value and compares nothing is an expression with this value. -/
lemma exists_parses_of_evaluate_some (he : (evaluate e vars).1 = .ok (some v))
    (hcomparison : ∀ op, .ok (.comparison op) ∉ Lexer.outcomes e.toList) :
    ∃ x, Parses e (.shown (.value x)) ∧ x.eval vars = .ok v := by
  obtain ⟨tree, hparses⟩ := exists_parses_of_evaluate he
  rw [evaluate_of_parses hparses] at he
  have ⟨n, ts, houtcomes, htree, _⟩ := hparses
  cases htree with
  | assignment name hc =>
      rename_i c
      rw [StatementTree.run] at he
      cases hv : c.eval vars <;> rw [hv] at he <;> cases he
  | shown hc =>
      cases hc with
      | value hx =>
          rename_i x
          refine ⟨x, hparses, ?_⟩
          rw [StatementTree.run, Clause.eval] at he
          cases hv : x.eval vars with
          | ok w => rw [hv] at he; cases he; rfl
          | error err => rw [hv] at he; cases he
      | comparison op left right => exact absurd (by simp [houtcomes]) (hcomparison op)

lemma exists_of_evaluate_some (he : (evaluate e vars).1 = .ok (some v))
    (hcomparison : ∀ op, .ok (.comparison op) ∉ Lexer.outcomes e.toList) :
    ∃ n ts x, Lexer.outcomes e.toList = ts.map .ok ∧ Derives .expression n ts x ∧
      x.eval vars = .ok v := by
  obtain ⟨x, hparses, hvalue⟩ := exists_parses_of_evaluate_some he hcomparison
  obtain ⟨n, ts, houtcomes, hx, -⟩ := hparses.exists_derives
  exact ⟨n, ts, x, houtcomes, hx, hvalue⟩

/-- **A variable in the place of its expression**: if the variable holds the value of the
expression, then a text in which the expression stands in parentheses comes to the same, and
leaves the same table, with the variable in its place. -/
theorem evaluate_substitution (ht : Text.IsWord t)
    (hcomparison : ∀ op, .ok (.comparison op) ∉ Lexer.outcomes e.toList)
    (he : (evaluate e vars).1 = .ok (some v)) (hv : vars.get? t = some v)
    (h : evaluate (pre ++ " (" ++ e ++ ") " ++ post) vars = (.ok r, after)) :
    evaluate (pre ++ " " ++ t ++ " " ++ post) vars = (.ok r, after) := by
  obtain ⟨k, ts, x, hts, hx, hvalue⟩ := exists_of_evaluate_some he hcomparison
  obtain ⟨tree, hparses⟩ := exists_parses_of_evaluate (congrArg Prod.fst h)
  have ⟨n, zs, hzs, htree, hn⟩ := hparses
  rw [outcomes_group, hts] at hzs
  obtain ⟨ps, qs, hps, hqs, rfl⟩ := exists_tokens_of_group hzs
  have heval : (Expr.ident t).eval vars = x.eval vars := by
    rw [hvalue]
    exact Variables.get_eq_ok_iff.2 hv
  obtain ⟨n', tree', htree', hn', hrun⟩ :=
    DerivesStatement.replace hx (.ident t) (Nat.zero_le (k + 1)) heval htree
  have houtcomes : Lexer.outcomes (pre ++ " " ++ t ++ " " ++ post).toList =
      (ps ++ [Token.ident t] ++ qs).map .ok := by
    rw [outcomes_name ht, hps, hqs]
    simp
  calc evaluate (pre ++ " " ++ t ++ " " ++ post) vars
      = tree'.run vars :=
        evaluate_of_parses ⟨n', _, houtcomes, htree', Nat.le_trans hn' hn⟩ vars
    _ = tree.run vars := hrun
    _ = evaluate (pre ++ " (" ++ e ++ ") " ++ post) vars := (evaluate_of_parses hparses vars).symm
    _ = (.ok r, after) := h

end Substitution

section Machine

attribute [local instance] FloatFunctions.native

/-- A sum as the factor of a product. -/
theorem evaluate_substitution_product :
    Text.IsWord "t" ∧ (∀ op, .ok (.comparison op) ∉ Lexer.outcomes "1 + 2".toList) ∧
      (evaluate "1 + 2" (Variables.empty.set "t" (.int 3))).1 = .ok (some (.int 3)) ∧
      evaluate ("x = 2 *" ++ " (" ++ "1 + 2" ++ ") " ++ "- 1") (Variables.empty.set "t" (.int 3)) =
        (.ok none, (Variables.empty.set "t" (.int 3)).set "x" (.int 5)) ∧
      evaluate ("x = 2 *" ++ " " ++ "t" ++ " " ++ "- 1") (Variables.empty.set "t" (.int 3)) =
        (.ok none, (Variables.empty.set "t" (.int 3)).set "x" (.int 5)) := by
  have hword : Text.IsWord "t" := by
    refine ⟨by decide, fun c hc => ?_⟩
    obtain rfl : c = 't' := by simpa using hc
    exact Text.isLetter_of_isAlpha (by decide)
  have houtcomes : Lexer.outcomes "1 + 2".toList =
      [.ok (.int 1), .ok (.arith .add), .ok (.int 2)] := by with_unfolding_all rfl
  have hcomparison : ∀ op, .ok (.comparison op) ∉ Lexer.outcomes "1 + 2".toList := by
    intro op
    rw [houtcomes]
    simp
  have hvalue : (evaluate "1 + 2" (Variables.empty.set "t" (.int 3))).1 = .ok (some (.int 3)) := by
    with_unfolding_all rfl
  have hgroup : evaluate ("x = 2 *" ++ " (" ++ "1 + 2" ++ ") " ++ "- 1")
      (Variables.empty.set "t" (.int 3)) =
        (.ok none, (Variables.empty.set "t" (.int 3)).set "x" (.int 5)) := by
    with_unfolding_all rfl
  exact ⟨hword, hcomparison, hvalue, hgroup,
    evaluate_substitution hword hcomparison hvalue (Variables.get?_set_self _ _ _) hgroup⟩

end Machine

end Reckon
