import Reckon.Proofs.Lexer.Words
import Reckon.Proofs.Statement.Dependence

/-!
An assignment and its right hand side.

Behind a name and an assignment sign, a text is read as a clause, from its
first token on. As a statement of its own the same text is looked at up to
its second token first, to see whether it is an assignment. So the two come
to the same, but for the order in which two errors are found: a fault in
the place of the second token is found before the name in front of it is
looked up, and in an assignment after it.

* `evaluateClause`: what a text comes to as a clause;
* `evaluate_assignment_eq` and `evaluate_fst_eq`: an assignment and a
  statement in terms of the clause;
* `Overtaken`: the one situation in which another error is found;
* `evaluate_assignment`: the main statement.
-/

namespace Reckon

open Parsing TokenSource

/-! ### Clauses that fail at their first token -/

section FirstToken

variable {σ : Type} [TokenSource σ] [FloatFunctions] {s t : Reader σ} {name : String} {e : Error}

/-- Nothing is read behind a factor that fails. -/
lemma comparison_of_factor_failed (hs : ∀ f, s.current ≠ .function f)
    (h : (factor maxNesting).run s = .failed e t) : comparison s = .failed e t := by
  have happlication : (application (factor maxNesting)).run s = .failed e t :=
    (readApplication_of_ne_function hs).trans h
  have hterm : (term (factor maxNesting)).run s = .failed e t := by
    show Outcome.bind ((application (factor maxNesting)).run s) _ = _
    rw [happlication, Outcome.bind_failed]
  have hexpression : (expression maxNesting).run s = .failed e t := by
    show Outcome.bind ((term (factor maxNesting)).run s) _ = _
    rw [hterm, Outcome.bind_failed]
  rw [comparison, hexpression, Outcome.bind_failed]

/-- A name without value is refused. -/
lemma comparison_of_undefined (hs : s.current = .ident name) (hname : s.vars.get? name = none) :
    comparison s = .failed (.undefined name) s := by
  refine comparison_of_factor_failed (by simp [hs]) ?_
  simp only [run_factor, readFactor, hs, Variables.get, hname]

/-- Behind a name with a value the next token is read. -/
lemma comparison_of_fault {v : Value} (hs : s.current = .ident name)
    (hname : s.vars.get? name = some v) (hst : s.advance = .failed e t) :
    comparison s = .failed e t := by
  refine comparison_of_factor_failed (by simp [hs]) ?_
  simp only [run_factor, readFactor, hs, Variables.get, hname, Rule.accept, hst, Outcome.map]

end FirstToken

/-! ### The assignment and the statement -/

variable {x text : String} {vars : Variables}

/-- The tokens and faults of an assignment are the name, the sign, and those of its right
hand side. -/
lemma outcomes_assignment (hx : x ≠ "") (hletters : ∀ c ∈ x.toList, Text.isLetter c = true)
    (text : String) :
    Lexer.outcomes (x ++ " = " ++ text).toList =
      .ok (.ident x) :: .ok .assign :: Lexer.outcomes text.toList := by
  have hblank : Text.isBlank ' ' = true := by decide
  have hends : Lexer.EndsWord (' ' :: '=' :: ' ' :: text.toList) := by
    intro c hc
    cases hc
    decide +kernel
  have htext : (x ++ " = " ++ text).toList = x.toList ++ ' ' :: '=' :: ' ' :: text.toList := by
    simp
  rw [htext, Lexer.outcomes_word_append (by simpa using hx) hletters hends, String.ofList_toList,
    Lexer.outcomes_cons_of_blank hblank, Lexer.outcomes_assign_cons (by simp),
    Lexer.outcomes_cons_of_blank hblank]

section Assignment

variable [FloatFunctions]

/-- What a text comes to as a clause, whether or not it is an assignment. -/
def evaluateClause (text : String) (vars : Variables) : Except Error Value :=
  match Reader.start (Lexer.ofText text) vars with
  | .error e => .error (.lexical e)
  | .ok s => (comparison s).result

lemma evaluateClause_of_start {s : Reader Lexer}
    (h : Reader.start (Lexer.ofText text) vars = .ok s) :
    evaluateClause text vars = (comparison s).result := by
  rw [evaluateClause, h]

/-- **An assignment** stores what its right hand side comes to as a clause. -/
lemma evaluate_assignment_eq (hx : x ≠ "") (hletters : ∀ c ∈ x.toList, Text.isLetter c = true)
    (text : String) (vars : Variables) :
    evaluate (x ++ " = " ++ text) vars =
      match evaluateClause text vars with
      | .ok v => (.ok none, vars.set x v)
      | .error e => (.error e, vars) := by
  have houtcomes : outcomes (Lexer.ofText (x ++ " = " ++ text)) = _ :=
    (Lexer.outcomes_eq _).trans (outcomes_assignment hx hletters text)
  obtain ⟨s, hs, hname, hsource⟩ := Reader.exists_start_of_outcomes houtcomes vars
  obtain ⟨t, ht, hassign, hrest⟩ := Reader.exists_start_of_outcomes hsource s.vars
  have hst : s.advance = .done () t := Reader.advance_of_start_ok ht
  have htvars : t.vars = vars := (Reader.vars_of_advance hst).trans (Reader.vars_of_start hs)
  -- Behind the sign, the same tokens and faults are left as in the right hand side alone.
  have hright : outcomes t.source = outcomes (Lexer.ofText text) :=
    hrest.trans (Lexer.outcomes_eq (Lexer.ofText text)).symm
  rw [evaluate_of_start hs, statement_of_assign hname hst hassign]
  have hagree : t.vars.AgreeOn (Lexer.Mentions (outcomes t.source)) vars := by
    rw [htvars]
    exact fun _ _ => rfl
  rcases Alike.start_cases hright hagree with
    ⟨fault, hfault, hfault'⟩ | ⟨u, m, hu, hm, halike⟩
  · obtain ⟨stop, hstop⟩ := Reader.advance_of_start_error hfault
    have hvars : stop.vars = vars := (Reader.keeps_advance htvars).vars_of_failed hstop
    rw [evaluateClause, hfault', hstop]
    exact Prod.ext rfl hvars
  · rw [evaluateClause_of_start hm, Reader.advance_of_start_ok hu, Outcome.bind_done]
    rcases ((simulation_alike t.vars vars).comparison halike).eq_done_or_failed with
      ⟨v, w, w', hw, hw', hend⟩ | ⟨e, w, w', hw, hw'⟩
    · rw [hw, hw']
      show (Except.ok none, w.vars.set x v) = (Except.ok none, vars.set x v)
      rw [hend.vars_left, htvars]
    · have hvars : w.vars = vars :=
        (keeps_comparison (halike.vars_left.trans htvars)).vars_of_failed hw
      rw [hw, hw']
      exact Prod.ext rfl hvars

/-- The text starts with this name, which has no value, and this fault stands in the place
of its second token. -/
def Overtaken (text : String) (vars : Variables) (name : String) (fault : LexError) : Prop :=
  vars.get? name = none ∧
    ∃ rest, Lexer.outcomes text.toList = .ok (.ident name) :: .error fault :: rest

/-- **A statement without target** comes to what it comes to as a clause, unless a fault
overtakes its first name. -/
lemma evaluate_fst_eq (htarget : target? text = none)
    (h : ∀ name fault, ¬ Overtaken text vars name fault) :
    (evaluate text vars).1 = (evaluateClause text vars).map some := by
  rcases Reader.start_cases (Lexer.ofText text) vars with ⟨fault, -, hs, -⟩ | ⟨s, hs, -⟩
  · rw [evaluate, evaluateClause, hs]
    rfl
  rw [evaluate_of_start hs, evaluateClause_of_start hs]
  rcases statement_cases hs with
    hclause | ⟨name, e, t, hname, hst, hfault⟩ | ⟨name, t, hname, hst, hassign, -⟩
  · rw [hclause]
    cases comparison s <;> rfl
  · obtain ⟨fault, rest, rfl, hrest⟩ := Reader.exists_fault_of_advance hst
    have houtcomes : Lexer.outcomes text.toList = .ok (.ident name) :: .error fault :: rest := by
      rw [← Reader.upcoming_of_start hs, Reader.upcoming_of_ne_eof (by simp [hname]), hname, hrest]
    cases hv : vars.get? name with
    | none => exact absurd ⟨hv, rest, houtcomes⟩ (h name fault)
    | some v =>
        rw [← Reader.vars_of_start hs] at hv
        rw [hfault, comparison_of_fault hname hv hst]
        rfl
  · rw [target?_of_start hs hname hst hassign] at htarget
    cases htarget

/-- Where a fault overtakes a name, the statement finds the fault, and the clause finds that
the name has no value. -/
lemma Overtaken.eq_errors {name : String} {fault : LexError}
    (h : Overtaken text vars name fault) :
    (evaluate text vars).1 = .error (.lexical fault) ∧
      evaluateClause text vars = .error (.undefined name) := by
  obtain ⟨hname, rest, houtcomes⟩ := h
  obtain ⟨s, hs, hcurrent, hsource⟩ :=
    Reader.exists_start_of_outcomes ((Lexer.outcomes_eq (Lexer.ofText text)).trans houtcomes) vars
  rw [← Reader.vars_of_start hs] at hname
  rw [evaluate_of_start hs, evaluateClause_of_start hs, comparison_of_undefined hcurrent hname]
  obtain ⟨stop, hstop⟩ := Reader.exists_advance_of_fault hsource
  rw [statement_of_fault hcurrent hstop]
  exact ⟨rfl, rfl⟩

/-- **Assigning and evaluating agree**: the assignment of a text that is no assignment itself
stores the value that the text comes to, and it fails exactly if the text fails. Both fail
with the same error, unless the text starts with a name without value and has a fault in the
place of its second token: there the text alone fails with the fault, and the assignment
with the missing name. -/
theorem evaluate_assignment (hx : x ≠ "") (hletters : ∀ c ∈ x.toList, Text.isLetter c = true)
    (htarget : target? text = none) (vars : Variables) :
    (∀ v, evaluate (x ++ " = " ++ text) vars = (.ok none, vars.set x v) ↔
        (evaluate text vars).1 = .ok (some v)) ∧
      ((∃ e, (evaluate (x ++ " = " ++ text) vars).1 = .error e) ↔
        ∃ e, (evaluate text vars).1 = .error e) ∧
      ((∀ name fault, ¬ Overtaken text vars name fault) →
        ∀ e, (evaluate (x ++ " = " ++ text) vars).1 = .error e ↔
          (evaluate text vars).1 = .error e) ∧
      ∀ name fault, Overtaken text vars name fault →
        (evaluate text vars).1 = .error (.lexical fault) ∧
          (evaluate (x ++ " = " ++ text) vars).1 = .error (.undefined name) := by
  rw [evaluate_assignment_eq hx hletters]
  by_cases hovertaken : ∃ name fault, Overtaken text vars name fault
  · obtain ⟨name, fault, h⟩ := hovertaken
    obtain ⟨hfault, hname⟩ := h.eq_errors
    refine ⟨?_, ?_, fun hnone => absurd h (hnone name fault), fun name' fault' h' => ?_⟩
    · simp [hfault, hname]
    · simp [hfault, hname]
    · obtain ⟨hfault', hname'⟩ := h'.eq_errors
      rw [hname']
      exact ⟨hfault', rfl⟩
  · have hnone : ∀ name fault, ¬ Overtaken text vars name fault := fun name fault h =>
      hovertaken ⟨name, fault, h⟩
    rw [evaluate_fst_eq htarget hnone]
    cases evaluateClause text vars with
    | ok v => simp [Except.map, Variables.set_inj, hnone]
    | error e => simp [Except.map, hnone]

end Assignment

section Machine

attribute [local instance] FloatFunctions.native

theorem evaluate_assignment_overtaken :
    "x" ≠ "" ∧ (∀ c ∈ "x".toList, Text.isLetter c = true) ∧ target? "y $" = none ∧
      (evaluate "y $" .empty).1 = .error (.lexical (.unexpectedCharacter '$')) ∧
      (evaluate ("x" ++ " = " ++ "y $") .empty).1 = .error (.undefined "y") := by
  have hletters : ∀ c ∈ "x".toList, Text.isLetter c = true := by
    intro c hc
    obtain rfl : c = 'x' := by simpa using hc
    exact Text.isLetter_of_isAlpha (by decide)
  have htarget : target? "y $" = none := by with_unfolding_all rfl
  have hovertaken : Overtaken "y $" .empty "y" (.unexpectedCharacter '$') :=
    ⟨Variables.get?_empty "y", [], by with_unfolding_all rfl⟩
  obtain ⟨-, -, -, herrors⟩ := evaluate_assignment (by decide) hletters htarget .empty
  exact ⟨by decide, hletters, htarget, herrors "y" _ hovertaken⟩

end Machine

end Reckon
