import Reckon.Proofs.Grammar.Unambiguity
import Reckon.Proofs.Statement.Reading

/-!
Evaluating a text is parsing it and then evaluating its tree.

The interpreter computes while it reads and never builds a tree. Still it
comes to what the tree comes to, to the same value or the same error, and
to the same table. And whatever is no statement is refused, so it comes to
a value only where there is a tree.

* `evaluate_of_parses`: a text with a tree comes to what the tree comes to;
* `exists_parses_of_evaluate`: a text that comes to anything has a tree;
* `evaluate_eq_run`: the tree of a valid text is the only one, and decides
  everything;
* `accepts_exactly_valid`: an invalid text is refused, and a valid one is
  never refused for its form;
* `evaluate_frame`: what may change in the table, and when.
-/

namespace Reckon

open Parsing

variable {text : String} {vars : Variables}

/-! ### Clauses up to the end of a text -/

section Clause

variable {n : Nat} {ts : List Token} {c : Clause} {s u : Reader Lexer}

/-- The second token of a clause is no assignment sign. -/
lemma current_ne_assign {tok : Token} (h : DerivesClause n (tok :: ts) c) (hsu : s.Reads ts u)
    (hu : u.current = .eof) : s.current ≠ .assign := by
  cases ts with
  | nil =>
      rw [Reader.reads_nil.1 hsu, hu]
      simp
  | cons tok' ts =>
      rw [hsu.1]
      exact (h.ne_of_mem (by simp)).2

variable [FloatFunctions]

/-- A clause with a value is read up to the end. -/
lemma comparison_of_ok (h : DerivesClause n ts c) (hn : n ≤ maxNesting) (hvars : s.vars = vars)
    (hsu : s.Reads ts u) (hu : u.current = .eof) {v : Value} (hv : c.eval vars = .ok v) :
    comparison s = .done v u := by
  have hending : (comparison s).ending = _ := ending_comparison h hn hvars hsu hu
  rw [hv, ok_bind] at hending
  cases hc : comparison s with
  | done w x =>
      rw [hc] at hending
      cases hending
      rfl
  | failed e stop =>
      rw [hc] at hending
      cases hending

/-- A clause without a value fails with the error of its tree, over the same table. -/
lemma comparison_of_error (h : DerivesClause n ts c) (hn : n ≤ maxNesting)
    (hvars : s.vars = vars) (hsu : s.Reads ts u) (hu : u.current = .eof) {e : Error}
    (he : c.eval vars = .error e) :
    ∃ stop, comparison s = .failed e stop ∧ stop.vars = vars := by
  have hending : (comparison s).ending = _ := ending_comparison h hn hvars hsu hu
  have hkeeps : (comparison s).Keeps vars := keeps_comparison hvars
  rw [he, error_bind] at hending
  cases hc : comparison s with
  | done w x =>
      rw [hc] at hending
      cases hending
  | failed e' stop =>
      rw [hc] at hending hkeeps
      cases hending
      exact ⟨stop, rfl, hkeeps⟩

/-- A clause from the start of a text is the statement in it. -/
lemma statement_of_clause (hstart : Reader.start (Lexer.ofText text) vars = .ok s)
    (h : DerivesClause n ts c) (hsu : s.Reads ts u) (hu : u.current = .eof) :
    statement s = (comparison s).map some := by
  by_cases hident : ∃ name, s.current = .ident name
  · obtain ⟨name, hname⟩ := hident
    cases ts with
    | nil =>
        rw [Reader.reads_nil.1 hsu, hu] at hname
        cases hname
    | cons tok ts =>
        obtain ⟨-, t, hst, htu⟩ := hsu
        exact statement_of_ident hstart hname hst (current_ne_assign h htu hu)
  · exact statement_of_ne_ident fun name hname => hident ⟨name, hname⟩

end Clause

/-! ### Texts and trees -/

/-- What is read to the end of a text makes the text a statement. -/
lemma parses_of_reads {s u : Reader Lexer} {n : Nat} {ts : List Token} {tree : StatementTree}
    (hs : Reader.start (Lexer.ofText text) vars = .ok s) (h : DerivesStatement n ts tree)
    (hn : n ≤ maxNesting) (hsu : s.Reads ts u) (hu : u.current = .eof) : Parses text tree := by
  refine ⟨n, ts, ?_, h, hn⟩
  rw [← Reader.upcoming_of_start hs, Reader.upcoming_eq_iff h.eof_notMem]
  exact ⟨u, hsu, hu⟩

section Worth

variable [FloatFunctions]

/-- The result and the table of an evaluation are those with which the rule for statements
ends. -/
lemma evaluate_of_start {s : Reader Lexer} (h : Reader.start (Lexer.ofText text) vars = .ok s) :
    evaluate text vars = ((statement s).result, (statement s).place.vars) := by
  rw [evaluate, h]

/-- **A text with a tree comes to what the tree comes to**, in its result and in its table. -/
theorem evaluate_of_parses {tree : StatementTree} (h : Parses text tree) (vars : Variables) :
    evaluate text vars = tree.run vars := by
  obtain ⟨n, ts, houtcomes, htree, hn⟩ := h
  obtain ⟨s, hs⟩ := Reader.exists_start houtcomes vars
  have hvars : s.vars = vars := Reader.vars_of_start hs
  obtain ⟨u, hsu, hu⟩ :=
    Reader.exists_reads_of_upcoming ((Reader.upcoming_of_start hs).trans houtcomes)
  rw [evaluate_of_start hs]
  cases htree with
  | @shown _ c h =>
      have huvars : u.vars = vars := (Reader.vars_of_reads hsu).trans hvars
      rw [statement_of_clause hs h hsu hu, StatementTree.run]
      cases hc : c.eval vars with
      | ok v =>
          rw [comparison_of_ok h hn hvars hsu hu hc]
          exact Prod.ext rfl huvars
      | error e =>
          obtain ⟨stop, hstop, hstopvars⟩ := comparison_of_error h hn hvars hsu hu hc
          rw [hstop]
          exact Prod.ext rfl hstopvars
  | @assignment _ c name h =>
      -- The clause starts at the third token, over the table of the first.
      obtain ⟨hcurrent, t, hst, hassign, t', htt', ht'u⟩ := hsu
      have htvars : t.vars = vars := (Reader.vars_of_advance hst).trans hvars
      have ht'vars : t'.vars = vars := (Reader.vars_of_advance htt').trans htvars
      have huvars : u.vars = vars := (Reader.vars_of_reads ht'u).trans ht'vars
      rw [statement_of_assign hcurrent hst hassign, htt', Outcome.bind_done, StatementTree.run]
      cases hc : c.eval vars with
      | ok v =>
          rw [comparison_of_ok h hn ht'vars ht'u hu hc]
          show (Except.ok none, u.vars.set name v) = (Except.ok none, vars.set name v)
          rw [huvars]
      | error e =>
          obtain ⟨stop, hstop, hstopvars⟩ := comparison_of_error h hn ht'vars ht'u hu hc
          rw [hstop]
          exact Prod.ext rfl hstopvars

/-- **A text that comes to anything has a tree.** -/
theorem exists_parses_of_evaluate {r : Option Value} (h : (evaluate text vars).1 = .ok r) :
    ∃ tree, Parses text tree := by
  cases hs : Reader.start (Lexer.ofText text) vars with
  | error e =>
      rw [evaluate, hs] at h
      cases h
  | ok s =>
      rw [evaluate_of_start hs] at h
      cases hstatement : statement s with
      | failed e stop =>
          rw [hstatement] at h
          cases h
      | done r' u =>
          rcases eq_of_statement_done hs hstatement with
            ⟨v, hv, -⟩ | ⟨name, t, t', v, w, hname, hst, hassign, htt', hv, -, -⟩
          · obtain ⟨n, ts, c, hc, hn, hsu, hu, -⟩ := exists_derivesClause hv
            exact ⟨.shown c, parses_of_reads hs (.shown hc) hn hsu hu⟩
          · obtain ⟨n, ts, c, hc, hn, ht'w, hw, -⟩ := exists_derivesClause hv
            have hsw : s.Reads (.ident name :: .assign :: ts) w :=
              ⟨hname, t, hst, hassign, t', htt', ht'w⟩
            exact ⟨.assignment name c, parses_of_reads hs (.assignment name hc) hn hsw hw⟩

/-! ### What a text is worth -/

/-- A tree fails with nothing but faults of its computation. -/
lemma StatementTree.computes_run (tree : StatementTree) (vars : Variables) :
    Computes (tree.run vars).1 := by
  cases tree with
  | shown c => exact (c.computes_eval vars).map some
  | assignment name c =>
      intro e he
      rw [run] at he
      cases hc : c.eval vars with
      | ok v =>
          rw [hc] at he
          cases he
      | error e' =>
          rw [hc] at he
          cases he
          exact c.computes_eval vars e hc

/-- **The interpreter comes to what the tree comes to**: a valid text has one tree, and
whatever the table is, evaluating the text gives the value or the error of the tree, and
the table that the tree leaves. -/
theorem evaluate_eq_run (h : Valid text) :
    ∃ tree, (∀ other, Parses text other ↔ other = tree) ∧
      ∀ vars, evaluate text vars = tree.run vars := by
  obtain ⟨tree, htree⟩ := h
  refine ⟨tree, fun other => ⟨fun hother => hother.unique htree, ?_⟩, evaluate_of_parses htree⟩
  rintro rfl
  exact htree

end Worth

section Machine

attribute [local instance] FloatFunctions.native

theorem evaluate_eq_run_parentheses :
    Valid "x = 1 + 2 * (y - 3)" ∧
      ∃ tree, (∀ other, Parses "x = 1 + 2 * (y - 3)" other ↔ other = tree) ∧
        ∀ vars, evaluate "x = 1 + 2 * (y - 3)" vars = tree.run vars := by
  have hdifference : Derives .expression 0 [.ident "y", .arith .sub, .int 3]
      (.binary .sub (.ident "y") (.int 3)) :=
    .sum (.ofTerm (.ofApplication (.ofFactor (.ident "y")))) (.inr rfl)
      (.ofApplication (.ofFactor (.int 3)))
  have hproduct : Derives .term 1
      [.int 2, .arith .mul, .lparen, .ident "y", .arith .sub, .int 3, .rparen]
      (.binary .mul (.int 2) (.binary .sub (.ident "y") (.int 3))) :=
    .product (.ofApplication (.ofFactor (.int 2))) (.inl rfl) (.ofFactor (.parentheses hdifference))
  have hsum : Derives .expression 1
      [.int 1, .arith .add, .int 2, .arith .mul, .lparen, .ident "y", .arith .sub, .int 3, .rparen]
      (.binary .add (.int 1) (.binary .mul (.int 2) (.binary .sub (.ident "y") (.int 3)))) :=
    .sum (.ofTerm (.ofApplication (.ofFactor (.int 1)))) (.inl rfl) hproduct
  have hvalid : Valid "x = 1 + 2 * (y - 3)" :=
    ⟨_, 1, _, by with_unfolding_all rfl, .assignment "x" (.value hsum), by decide⟩
  exact ⟨hvalid, evaluate_eq_run hvalid⟩

end Machine

variable [FloatFunctions]

/-- **Exactly the grammar is accepted**: an invalid text is refused, and a valid one is
never refused for its form, only for what it computes. -/
theorem accepts_exactly_valid (text : String) (vars : Variables) :
    (¬ Valid text → ∃ e, (evaluate text vars).1 = .error e) ∧
      (Valid text → ∀ e, (evaluate text vars).1 = .error e →
        e.kind ≠ .lex ∧ e.kind ≠ .parse) := by
  constructor
  · intro hvalid
    cases hr : (evaluate text vars).1 with
    | error e => exact ⟨e, rfl⟩
    | ok r => exact absurd (exists_parses_of_evaluate hr) hvalid
  · rintro ⟨tree, htree⟩ e he
    rw [evaluate_of_parses htree] at he
    have hcomputes : ¬ e.IsTextual := tree.computes_run vars e he
    exact ⟨fun hlex => hcomputes (.inl hlex), fun hparse => hcomputes (.inr hparse)⟩

/-! ### What happens to the table -/

/-- A tree that shows a value leaves the table as it is. -/
lemma StatementTree.run_snd_of_some {tree : StatementTree} {v : Value}
    (h : (tree.run vars).1 = .ok (some v)) : (tree.run vars).2 = vars := by
  cases tree with
  | shown c => rfl
  | assignment name c =>
      rw [run] at h
      cases hc : c.eval vars with
      | ok w => rw [hc] at h; cases h
      | error e => rw [hc] at h; cases h

/-- A statement that fails leaves the table as it is. -/
lemma evaluate_snd_of_error {e : Error} (h : (evaluate text vars).1 = .error e) :
    (evaluate text vars).2 = vars := by
  cases hs : Reader.start (Lexer.ofText text) vars with
  | error e' => rw [evaluate, hs]
  | ok s =>
      rw [evaluate_of_start hs] at h ⊢
      cases hstatement : statement s with
      | done r u => rw [hstatement] at h; cases h
      | failed e' stop => exact vars_of_statement_failed hs hstatement

/-- A statement that shows a value leaves the table as it is. -/
lemma evaluate_snd_of_some {v : Value} (h : (evaluate text vars).1 = .ok (some v)) :
    (evaluate text vars).2 = vars := by
  obtain ⟨tree, htree⟩ := exists_parses_of_evaluate h
  have hrun : evaluate text vars = tree.run vars := evaluate_of_parses htree vars
  rw [hrun] at h ⊢
  exact StatementTree.run_snd_of_some h

/-- A statement that succeeds and shows nothing is an assignment, which has stored the value
of its clause in the table before it. -/
lemma exists_assignment_of_evaluate (h : (evaluate text vars).1 = .ok none) :
    ∃ x c v, Parses text (.assignment x c) ∧ c.eval vars = .ok v ∧
      (evaluate text vars).2 = vars.set x v := by
  obtain ⟨tree, htree⟩ := exists_parses_of_evaluate h
  have hrun : evaluate text vars = tree.run vars := evaluate_of_parses htree vars
  rw [hrun] at h ⊢
  cases tree with
  | shown c =>
      rw [StatementTree.run] at h
      cases hv : c.eval vars with
      | ok v => rw [hv] at h; cases h
      | error e => rw [hv] at h; cases h
  | assignment x c =>
      rw [StatementTree.run] at h ⊢
      cases hv : c.eval vars with
      | ok v => exact ⟨x, c, v, htree, hv, rfl⟩
      | error e => rw [hv] at h; cases h

omit [FloatFunctions] in
/-- An assignment starts with a name and an assignment sign. -/
lemma Parses.exists_outcomes {x : String} {c : Clause} (h : Parses text (.assignment x c)) :
    ∃ n ts, Lexer.outcomes text.toList = .ok (.ident x) :: .ok .assign :: ts.map .ok ∧
      DerivesClause n ts c := by
  obtain ⟨n, ts, houtcomes, hderives, -⟩ := h
  cases hderives with
  | assignment name hc => exact ⟨n, _, houtcomes, hc⟩

/-- An assignment that succeeds has the value of its clause in the table before it. -/
lemma exists_of_evaluate_none (h : (evaluate text vars).1 = .ok none) :
    ∃ x n ts c v, Lexer.outcomes text.toList = .ok (.ident x) :: .ok .assign :: ts.map .ok ∧
      DerivesClause n ts c ∧ c.eval vars = .ok v ∧ (evaluate text vars).2 = vars.set x v := by
  obtain ⟨x, c, v, htree, hv, htable⟩ := exists_assignment_of_evaluate h
  obtain ⟨n, ts, houtcomes, hc⟩ := htree.exists_outcomes
  exact ⟨x, n, ts, c, v, houtcomes, hc, hv, htable⟩

/-- **Frame**: a statement that fails, wherever that is, and one that shows a value leave
the table as it is. One that succeeds and shows nothing starts with a name and an assignment
sign, and changes the table at most at that name, to the value that the clause behind the
sign has in the table before. -/
theorem evaluate_frame (text : String) (vars : Variables) :
    (∀ e, (evaluate text vars).1 = .error e → (evaluate text vars).2 = vars) ∧
      (∀ v, (evaluate text vars).1 = .ok (some v) → (evaluate text vars).2 = vars) ∧
      ((evaluate text vars).1 = .ok none →
        ∃ x n ts c v, Lexer.outcomes text.toList = .ok (.ident x) :: .ok .assign :: ts.map .ok ∧
          DerivesClause n ts c ∧ c.eval vars = .ok v ∧
          (evaluate text vars).2.get? x = some v ∧
          ∀ y, y ≠ x → (evaluate text vars).2.get? y = vars.get? y) := by
  refine ⟨fun e he => evaluate_snd_of_error he, fun v hv => evaluate_snd_of_some hv, fun h => ?_⟩
  obtain ⟨x, n, ts, c, v, houtcomes, hc, hv, htable⟩ := exists_of_evaluate_none h
  refine ⟨x, n, ts, c, v, houtcomes, hc, hv, ?_, fun y hy => ?_⟩
  · rw [htable, Variables.get?_set_self]
  · rw [htable, Variables.get?_set_of_ne hy.symm]

/-- The right hand side is computed in the table before. -/
example :
    (evaluate "x = x + 1" (Variables.empty.set "x" (.int 1))).2.get? "x" = some (.int 2) := by
  with_unfolding_all rfl

end Reckon
