import Reckon.Proofs.Parsing.Strict
import Reckon.Proofs.Statement.Accounting

/-!
Functions are applied to parentheses.

The lexer makes a function of a word only in front of a parenthesis, and the
rules of expressions then find that parenthesis behind it, although they
would take any factor. Blanks in front of the parenthesis make a variable of
the word, and then the parenthesis has no place in the statement.

* `evaluateStrictly`: evaluation by a grammar in which a parenthesis must
  stand behind a function, and `evaluateStrictly_eq`: it is no other;
* `lparen_of_function_concat`: the tokens of a text around a function;
* `evaluate_of_apart`: a statement that starts with a word apart from a
  parenthesis;
* `functions_are_calls`: the main statement.
-/

namespace Reckon

open Parsing Text

variable {text word : String} {vars : Variables} {f : Elementary}

/-! ### Tokens around a function -/

/-- Behind the tokens up to a function comes a parenthesis. -/
lemma lparen_of_function_concat {cs : List Char} {ts : List Token}
    (h : (ts ++ [Token.function f]).map .ok <+: Lexer.outcomes cs) :
    (ts ++ [Token.function f] ++ [Token.lparen]).map .ok <+: Lexer.outcomes cs := by
  obtain ⟨more, hmore⟩ := h
  -- The function is what the call after those for `ts` comes to.
  have hcall : ∀ k, Lexer.call ⟨cs, cs⟩ k =
      ((ts ++ [Token.function f]).map .ok ++ more)[k]?.getD (.ok .eof) := fun k => by
    rw [hmore]
    exact Lexer.call_eq ⟨cs, cs⟩ k
  have hfunction : Lexer.call ⟨cs, cs⟩ ts.length = .ok (.function f) := by
    rw [hcall]
    simp
  have hparen : Lexer.call ⟨cs, cs⟩ (ts.length + 1) = .ok .lparen :=
    Lexer.next_of_function hfunction
  rw [hcall, List.getElem?_append_right (by simp)] at hparen
  cases more with
  | nil => simp at hparen
  | cons outcome more =>
      obtain rfl : outcome = .ok .lparen := by simpa using hparen
      exact ⟨more, by rw [← hmore]; simp⟩

/-! ### The stricter grammar -/

section Calls

variable [FloatFunctions]

/-- What the statement in a text shows, and the table after it, where anything but an opening
parenthesis behind a function is refused. -/
def evaluateStrictly (refusal : Elementary → Token → Error) (text : String) (vars : Variables) :
    Except Error (Option Value) × Variables :=
  match Reader.start (Lexer.ofText text) vars with
  | .error e => (.error (.lexical e), vars)
  | .ok s =>
      let outcome := statementWith (strictExpression refusal maxNesting) s
      (outcome.result, outcome.place.vars)

/-- By the stricter grammar, a statement comes to the same at the same place. -/
lemma related_strictStatement (refusal : Elementary → Token → Error) {s : Reader Lexer}
    (hs : s.Prepared) :
    (statement s).Related (fun t u => t = u)
      (statementWith (strictExpression refusal maxNesting) s) := by
  have hexpression : (expression maxNesting).Simulates SamePrepared
      (strictExpression refusal maxNesting) :=
    simulates_strictExpressionWith (simulates_strictFactor refusal maxNesting)
  rw [statement_eq]
  refine simulation_samePrepared.statementWith hexpression ?_ (fun t u h => h.1)
    (fun t u name v h => congrArg (·.store name v) h.1) ⟨rfl, hs⟩
  rintro t _ ⟨rfl, -⟩
  exact SamePrepared.read t _

/-- By the stricter grammar, a statement that fails leaves the table as it is. -/
lemma vars_of_strictStatement_failed {refusal : Elementary → Token → Error} {s stop : Reader Lexer}
    {e : Error} (h : statementWith (strictExpression refusal maxNesting) s = .failed e stop) :
    stop.vars = s.vars :=
  vars_of_statementWith_failed
    (ensures_strictExpression (contract_vars s.vars) (fun hs _ => hs) maxNesting) h

/-- **The stricter grammar is no other** for any text and any table, whatever the refusal is. -/
theorem evaluateStrictly_eq (refusal : Elementary → Token → Error) (text : String)
    (vars : Variables) : evaluateStrictly refusal text vars = evaluate text vars := by
  rw [evaluateStrictly, evaluate]
  cases hs : Reader.start (Lexer.ofText text) vars with
  | error e => rfl
  | ok s =>
      have hread : s.read (Lexer.ofText text) = .done () s :=
        Reader.read_eq_done_iff.2 ⟨(Reader.start_eq_ok_iff.1 hs).1, rfl⟩
      have hrelated := related_strictStatement refusal (Reader.prepared_of_read hread)
      -- Where both fail, the places may differ, but neither has another table than the start.
      exact hrelated.result_vars_eq (fun t u htu => congrArg Reader.vars htu.symm)
        (fun e stop ht => vars_of_statement_failed hs ht) fun e stop hu =>
          (vars_of_strictStatement_failed hu).trans (Reader.vars_of_start hs)

/-! ### Words apart from a parenthesis -/

/-- A statement that starts with a word apart from a parenthesis has no value: the word is a
variable, and if it has a value, then nothing can be done with the parenthesis. -/
lemma evaluate_of_apart {more : List (Except LexError Token)}
    (h : Lexer.outcomes text.toList = .ok (.ident word) :: .ok .lparen :: more)
    (vars : Variables) :
    evaluate text vars =
      (.error (if vars.contains word then .syntactic (.trailing .lparen) else .undefined word),
        vars) := by
  have hsource : TokenSource.outcomes (Lexer.ofText text) = _ :=
    (Lexer.outcomes_eq (Lexer.ofText text)).trans h
  obtain ⟨s, hs, hname, hrest⟩ := Reader.exists_start_of_outcomes hsource vars
  obtain ⟨t, ht, hparen, -⟩ := Reader.exists_start_of_outcomes hrest s.vars
  have hst : s.advance = .done () t := Reader.advance_of_start_ok ht
  -- The name is a whole expression, since no rule goes on with the parenthesis.
  have hexpression : ((expression maxNesting).run s).ending =
      vars.get word >>= fun v => .ok (v, t) :=
    ending_expression (.ofTerm (.ofApplication (.ofFactor (.ident word)))) (Nat.zero_le _)
      (Reader.vars_of_start hs) ⟨hname, t, hst, rfl⟩ (by rw [hparen]; rfl) (by rw [hparen]; rfl)
  have hcomparison : (comparison s).ending =
      vars.get word >>= fun _ => .error (.syntactic (.trailing .lparen)) := by
    rw [comparison, Outcome.ending_bind, hexpression, bind_assoc]
    refine bind_congr fun v => ?_
    simp only [ok_bind, hparen, finish]
    rfl
  have herror : (comparison s).ending =
      .error (if vars.contains word then .syntactic (.trailing .lparen) else .undefined word) := by
    rw [hcomparison, Variables.get, Variables.contains_eq_isSome]
    cases vars.get? word <;> rfl
  have hresult : (evaluate text vars).1 =
      .error (if vars.contains word then .syntactic (.trailing .lparen) else .undefined word) := by
    rw [evaluate_of_start hs, statement_of_ident hs hname hst (by simp [hparen])]
    show ((comparison s).map some).result = _
    rw [Outcome.result_map, Outcome.result_of_ending_error herror]
    rfl
  exact Prod.ext hresult (evaluate_snd_of_error hresult)

/-- **Functions are always calls**: whatever the calls on a text come to, behind a function comes
an opening parenthesis, a name is a word, and an integer is not negative. So anything else behind
a function may be refused by the grammar, with any error, and no text comes to that: it has the
same result and leaves the same table. Whenever a rule is entered right behind a function, the
current token is the parenthesis. A word that blanks keep apart from a parenthesis is a name, also
if it is spelled like a function. A statement that starts so fails, for want of a value or
because of the parenthesis. -/
theorem functions_are_calls (text : String) (vars : Variables) :
    (∀ k f, (Lexer.ofText text).call k = .ok (.function f) →
        (Lexer.ofText text).call (k + 1) = .ok .lparen) ∧
      (∀ k name, (Lexer.ofText text).call k = .ok (.ident name) → IsWord name) ∧
      (∀ k n, (Lexer.ofText text).call k = .ok (.int n) → 0 ≤ n.toInt) ∧
      (∀ refusal, evaluateStrictly refusal text vars = evaluate text vars) ∧
      (∀ extra, (tracedEvaluate (256 + extra) text vars).1 = evaluate text vars ∧
        ∀ entry ∈ (tracedEvaluate (256 + extra) text vars).2, ∀ ts f,
          entry.consumed = ts ++ [Token.function f] →
            (entry.consumed ++ [Token.lparen]).map .ok <+: Lexer.outcomes text.toList) ∧
      (∀ f : Elementary, IsWord f.name ∧ IsWord f.upperName) ∧
      ∀ word before blanks rest, IsWord word → (∀ c ∈ before ++ blanks, isBlank c = true) →
        blanks ≠ [] →
          (∀ k, ((Lexer.ofText text).after k).rest =
              before ++ (word.toList ++ (blanks ++ '(' :: rest)) →
            (Lexer.ofText text).call k = .ok (.ident word) ∧
              (Lexer.ofText text).call (k + 1) = .ok .lparen) ∧
          (text.toList = before ++ (word.toList ++ (blanks ++ '(' :: rest)) →
            evaluate text vars =
              (.error (if vars.contains word then .syntactic (.trailing .lparen)
                else .undefined word), vars)) := by
  refine ⟨fun k f => Lexer.next_of_function, fun k name => Lexer.isWord_of_next,
    fun k n => Lexer.nonneg_of_next, fun refusal => evaluateStrictly_eq refusal text vars,
    fun extra => ⟨tracedEvaluate_eq (Nat.le_add_right 256 extra) text vars, ?_⟩,
    isWord_spelling, fun word before blanks rest hword hblanks hne =>
      ⟨fun k hk => Lexer.next_word_apart hword hblanks hne hk, fun htext => ?_⟩⟩
  · intro entry hentry ts f hts
    have hconsumed := (balances_of_mem_tracedEvaluate (Nat.le_add_right 256 extra) hentry).consumed
    rw [hts] at hconsumed ⊢
    exact lparen_of_function_concat hconsumed
  · have houtcomes : Lexer.outcomes text.toList = _ :=
      htext ▸ Lexer.outcomes_word_apart hword hblanks hne rest
    exact evaluate_of_apart houtcomes vars

end Calls

section Machine

attribute [local instance] FloatFunctions.native

/-- A function, and a variable with the same spelling. -/
example : (evaluate "sqrt(4)" .empty).1 = .ok (some (.float 2)) ∧
    (evaluate "sqrt (4)" .empty).1 = .error (.undefined "sqrt") := by
  decide +kernel

end Machine

end Reckon
