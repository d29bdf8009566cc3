import Reckon.Proofs.Lexer.Splitting
import Reckon.Proofs.Statement.Evaluation
import Reckon.Session

/-!
The table at the end of a session.

A session is a sequence of statements and of values that are set from
outside. Each step writes at most one name. So the table at the end is told
by the history alone: a name has the value that was written last under it,
or the one that it had at the start, or none.

* `Step`, `Step.perform` and `runSteps`: the steps of a session and what they
  do to the table;
* `Step.Writes` and `Step.Idle`: which name a step writes, and with what
  value, and which steps write nothing;
* `Step.perform_cases`: a step that writes does nothing else, and one that
  does not write does nothing;
* `LastWrite` and `Untouched`: what the steps do to a name, and `Deletes`:
  a history without some of its idle steps;
* `Recalls` and `runSteps_recalls`: the main statement.
-/

namespace Reckon

/-! ### Steps -/

/-- A step of a session. -/
inductive Step where
  /-- The statement in a text is evaluated. -/
  | statement (text : String)
  /-- A variable gets a value from outside. -/
  | set (name : String) (v : Value)

variable [FloatFunctions]

/-- What a step does to the table. -/
def Step.perform : Step → Variables → Variables
  | statement text, vars => (evaluate text vars).2
  | set name v, vars => vars.set name v

/-- The table after the steps. -/
def runSteps : List Step → Variables → Variables
  | [], vars => vars
  | step :: rest, vars => runSteps rest (step.perform vars)

/-- Over this table the step writes the value under the name. An assignment that succeeds
writes the value that its clause has in the table before it. -/
inductive Step.Writes (vars : Variables) : Step → String → Value → Prop
  | set (name : String) (v : Value) : Writes vars (.set name v) name v
  | assignment {text name : String} {c : Clause} {v : Value}
      (succeeds : (evaluate text vars).1 = .ok none)
      (target : Parses text (.assignment name c)) (value : c.eval vars = .ok v) :
      Writes vars (.statement text) name v

/-- Over this table the step is a statement that fails or shows a value. -/
inductive Step.Idle (vars : Variables) : Step → Prop
  | failed {text : String} {e : Error} (h : (evaluate text vars).1 = .error e) :
      Idle vars (.statement text)
  | shown {text : String} {v : Value} (h : (evaluate text vars).1 = .ok (some v)) :
      Idle vars (.statement text)

/-- No step writes the name. -/
inductive Untouched (name : String) : Variables → List Step → Prop
  | nil (vars : Variables) : Untouched name vars []
  | cons {vars : Variables} {step : Step} {rest : List Step}
      (notWritten : ∀ v, ¬ step.Writes vars name v)
      (others : Untouched name (step.perform vars) rest) : Untouched name vars (step :: rest)

/-- The last step that writes the name writes this value. -/
inductive LastWrite (name : String) (v : Value) : Variables → List Step → Prop
  | here {vars : Variables} {step : Step} {rest : List Step} (writes : step.Writes vars name v)
      (others : Untouched name (step.perform vars) rest) : LastWrite name v vars (step :: rest)
  | later {vars : Variables} {step : Step} {rest : List Step}
      (others : LastWrite name v (step.perform vars) rest) : LastWrite name v vars (step :: rest)

/-- The second history is the first one without some of the steps that are idle there. -/
inductive Deletes : Variables → List Step → List Step → Prop
  | nil (vars : Variables) : Deletes vars [] []
  | keep {vars : Variables} {step : Step} {rest kept : List Step}
      (others : Deletes (step.perform vars) rest kept) : Deletes vars (step :: rest) (step :: kept)
  | drop {vars : Variables} {step : Step} {rest kept : List Step} (idle : step.Idle vars)
      (others : Deletes (step.perform vars) rest kept) : Deletes vars (step :: rest) kept

/-! ### What one step does -/

variable {vars : Variables} {step : Step} {steps before after kept : List Step} {name : String}
  {v : Value}

/-- A statement writes nothing unless it is an assignment that succeeds. -/
lemma Step.Writes.succeeds {text : String} (h : Writes vars (.statement text) name v) :
    (evaluate text vars).1 = .ok none := by
  cases h with
  | assignment succeeds target value => exact succeeds

/-- **A step** writes nothing and does nothing, or it writes one value under one name and does
nothing else. -/
lemma Step.perform_cases (step : Step) (vars : Variables) :
    ((∀ name v, ¬ step.Writes vars name v) ∧ step.perform vars = vars) ∨
      ∃ name v, (∀ other w, step.Writes vars other w ↔ other = name ∧ w = v) ∧
        step.perform vars = vars.set name v := by
  cases step with
  | set name v =>
      refine .inr ⟨name, v, fun other w => ⟨?_, ?_⟩, rfl⟩
      · rintro ⟨⟩
        exact ⟨rfl, rfl⟩
      · rintro ⟨rfl, rfl⟩
        exact .set other w
  | statement text =>
      cases hr : (evaluate text vars).1 with
      | error e =>
          refine .inl ⟨fun name v hw => ?_, evaluate_snd_of_error hr⟩
          cases hr.symm.trans hw.succeeds
      | ok r =>
          cases r with
          | some shown =>
              refine .inl ⟨fun name v hw => ?_, evaluate_snd_of_some hr⟩
              cases hr.symm.trans hw.succeeds
          | none =>
              obtain ⟨name, c, v, htree, hv, htable⟩ := exists_assignment_of_evaluate hr
              refine .inr ⟨name, v, fun other w => ⟨fun hw => ?_, ?_⟩, htable⟩
              · -- The text has one tree, so there is one target and one value.
                cases hw with
                | assignment succeeds target value =>
                    obtain ⟨rfl, rfl⟩ := StatementTree.assignment.inj (target.unique htree)
                    exact ⟨rfl, Except.ok.inj (value.symm.trans hv)⟩
              · rintro ⟨rfl, rfl⟩
                exact .assignment hr htree hv

/-- What is written is in the table. -/
lemma Step.Writes.perform_eq (h : step.Writes vars name v) :
    step.perform vars = vars.set name v := by
  rcases step.perform_cases vars with ⟨hnone, -⟩ | ⟨other, w, hwrites, hset⟩
  · exact absurd h (hnone name v)
  · obtain ⟨rfl, rfl⟩ := (hwrites name v).1 h
    exact hset

/-- What is not written stays as it is. -/
lemma Step.get?_perform_of_not_writes (h : ∀ v, ¬ step.Writes vars name v) :
    (step.perform vars).get? name = vars.get? name := by
  rcases step.perform_cases vars with ⟨-, hsame⟩ | ⟨other, w, hwrites, hset⟩
  · rw [hsame]
  · have hne : other ≠ name := fun heq => h w ((hwrites name w).2 ⟨heq.symm, rfl⟩)
    rw [hset, Variables.get?_set_of_ne hne]

/-- A step that is idle does nothing. -/
lemma Step.Idle.perform_eq (h : step.Idle vars) : step.perform vars = vars := by
  cases h with
  | failed h => exact evaluate_snd_of_error h
  | shown h => exact evaluate_snd_of_some h

/-- A step adds at most one name. -/
lemma Step.size_perform_le (step : Step) (vars : Variables) :
    (step.perform vars).size ≤ vars.size + 1 := by
  rcases step.perform_cases vars with ⟨-, hsame⟩ | ⟨other, w, -, hset⟩
  · rw [hsame]
    exact Nat.le_succ _
  · rw [hset, Variables.size_set]
    split
    · exact Nat.le_succ _
    · exact Nat.le_refl _

/-- A step leaves all names but one as they are. -/
lemma Step.exists_contains_perform (step : Step) (vars : Variables) :
    ∃ name, ∀ other, other ≠ name →
      (step.perform vars).contains other = vars.contains other := by
  rcases step.perform_cases vars with ⟨-, hsame⟩ | ⟨name, w, -, hset⟩
  · exact ⟨"", fun other _ => by rw [hsame]⟩
  · refine ⟨name, fun other hne => ?_⟩
    rw [hset, Variables.contains_eq_isSome, Variables.contains_eq_isSome,
      Variables.get?_set_of_ne hne.symm]

/-! ### Histories of a name -/

lemma runSteps_append (before after : List Step) (vars : Variables) :
    runSteps (before ++ after) vars = runSteps after (runSteps before vars) := by
  induction before generalizing vars with
  | nil => rfl
  | cons step rest ih => exact ih (step.perform vars)

/-- A name that no step writes has the value that it had at the start. -/
lemma Untouched.get?_runSteps (h : Untouched name vars steps) :
    (runSteps steps vars).get? name = vars.get? name := by
  induction h with
  | nil vars => rfl
  | cons notWritten others ih => exact ih.trans (Step.get?_perform_of_not_writes notWritten)

/-- A name has the value that was written last. -/
lemma LastWrite.get?_runSteps (h : LastWrite name v vars steps) :
    (runSteps steps vars).get? name = some v := by
  induction h with
  | @here vars step rest writes others =>
      calc (runSteps rest (step.perform vars)).get? name
          = (step.perform vars).get? name := others.get?_runSteps
        _ = some v := by rw [writes.perform_eq, Variables.get?_set_self]
  | later others ih => exact ih

/-- Either no step writes the name, or one of them is the last to do so. -/
lemma untouched_or_exists_lastWrite (name : String) (vars : Variables) (steps : List Step) :
    Untouched name vars steps ∨ ∃ v, LastWrite name v vars steps := by
  induction steps generalizing vars with
  | nil => exact .inl (.nil vars)
  | cons step rest ih =>
      rcases ih (step.perform vars) with hothers | ⟨v, hothers⟩
      · by_cases hwrites : ∃ v, step.Writes vars name v
        · obtain ⟨v, hv⟩ := hwrites
          exact .inr ⟨v, .here hv hothers⟩
        · exact .inl (.cons (fun v hv => hwrites ⟨v, hv⟩) hothers)
      · exact .inr ⟨v, .later hothers⟩

/-- A name that no step writes has no last write. -/
lemma LastWrite.not_untouched (h : LastWrite name v vars steps) :
    ¬ Untouched name vars steps := by
  induction h with
  | here writes _ =>
      intro huntouched
      cases huntouched with
      | cons notWritten _ => exact notWritten v writes
  | later _ ih =>
      intro huntouched
      cases huntouched with
      | cons _ others => exact ih others

/-- The names at the end are those at the start and those that were written. -/
lemma contains_runSteps_iff : (runSteps steps vars).contains name = true ↔
    vars.contains name = true ∨ ∃ v, LastWrite name v vars steps := by
  rw [Variables.contains_eq_isSome, Variables.contains_eq_isSome]
  rcases untouched_or_exists_lastWrite name vars steps with huntouched | ⟨v, hv⟩
  · rw [huntouched.get?_runSteps]
    exact (or_iff_left fun ⟨v, hv⟩ => hv.not_untouched huntouched).symm
  · rw [hv.get?_runSteps]
    exact iff_of_true rfl (.inr ⟨v, hv⟩)

/-- No name is removed. -/
lemma contains_runSteps (h : vars.contains name = true) :
    (runSteps steps vars).contains name = true :=
  contains_runSteps_iff.2 (.inl h)

/-- Idle steps can be left out of a history. -/
lemma Deletes.runSteps_eq (h : Deletes vars steps kept) :
    runSteps kept vars = runSteps steps vars := by
  induction h with
  | nil vars => rfl
  | keep others ih => exact ih
  | drop idle others ih =>
      -- The steps after an idle one start from the table that it started from.
      rw [idle.perform_eq] at ih
      rw [runSteps, idle.perform_eq]
      exact ih

/-- The name that a statement writes is a word. -/
lemma Step.Writes.isWord {text : String} (h : Writes vars (.statement text) name v) :
    Text.IsWord name := by
  cases h with
  | assignment succeeds target value =>
      obtain ⟨n, ts, houtcomes, -⟩ := target.exists_outcomes
      exact Lexer.isWord_of_mem_outcomes (houtcomes ▸ List.mem_cons_self)

/-- The names that statements write are words. -/
lemma LastWrite.isWord (h : LastWrite name v vars steps)
    (hsteps : ∀ step ∈ steps, ∃ text, step = .statement text) : Text.IsWord name := by
  induction h with
  | here writes others =>
      obtain ⟨text, rfl⟩ := hsteps _ List.mem_cons_self
      exact writes.isWord
  | later others ih => exact ih fun step hstep => hsteps step (List.mem_cons_of_mem _ hstep)

/-! ### The table at the end -/

omit [FloatFunctions] in
/-- The number of variables is that of the names with a value. -/
lemma Variables.exists_names (vars : Variables) :
    ∃ names : List String, names.Nodup ∧ names.length = vars.size ∧
      ∀ name, name ∈ names ↔ vars.contains name = true :=
  ⟨vars.entries.keys, Std.ExtTreeMap.nodup_keys, Std.ExtTreeMap.length_keys, fun _ =>
    Std.ExtTreeMap.mem_keys.trans Std.ExtTreeMap.contains_iff_mem.symm⟩

omit [FloatFunctions] in
lemma Variables.contains_iff_get {vars : Variables} {name : String} :
    vars.contains name = true ↔ ∃ v, vars.get name = .ok v := by
  rw [contains_eq_isSome, Option.isSome_iff_exists]
  exact exists_congr fun v => get_eq_ok_iff.symm

/-- What a table tells of the session that led to it. -/
structure Recalls (vars : Variables) (steps : List Step) (final : Variables) : Prop where
  /-- Each name has a last write unless no step writes it. -/
  history : ∀ name, (∃ v, LastWrite name v vars steps) ↔ ¬ Untouched name vars steps
  last : ∀ name v, LastWrite name v vars steps → final.get name = .ok v
  first : ∀ name v, Untouched name vars steps → vars.get name = .ok v → final.get name = .ok v
  never : ∀ name, Untouched name vars steps → vars.get? name = none →
    final.get name = .error (.undefined name)
  contains : ∀ name, final.contains name = true ↔ ∃ v, final.get name = .ok v
  /-- The variables are counted by the names that have a first or a last value. -/
  size : ∃ names : List String, names.Nodup ∧ names.length = final.size ∧
    ∀ name, name ∈ names ↔
      (∃ v, vars.get name = .ok v) ∨ ∃ v, LastWrite name v vars steps
  /-- A name that is there at some time is there at the end. -/
  keeps : ∀ before after, steps = before ++ after → ∀ name,
    (runSteps before vars).contains name = true → final.contains name = true
  /-- A step adds no names but one. -/
  grows : ∀ before step after, steps = before ++ step :: after →
    (runSteps (before ++ [step]) vars).size ≤ (runSteps before vars).size + 1 ∧
      ∃ name, ∀ other, other ≠ name →
        (runSteps (before ++ [step]) vars).contains other = (runSteps before vars).contains other
  /-- Statements that fail and those that show a value can be left out. -/
  deletes : ∀ kept, Deletes vars steps kept → runSteps kept vars = final
  /-- Statements alone give values to nothing but words. -/
  words : vars = .empty → (∀ step ∈ steps, ∃ text, step = .statement text) →
    ∀ name, final.contains name = true → Text.IsWord name

/-- **The table at the end of a session is told by its history**: under each name stands what
was written last, and what was there at the start if nothing was written. -/
theorem runSteps_recalls (vars : Variables) (steps : List Step) :
    Recalls vars steps (runSteps steps vars) where
  history := fun name => ⟨fun ⟨v, hv⟩ => hv.not_untouched, fun h =>
    (untouched_or_exists_lastWrite name vars steps).resolve_left h⟩
  last := fun name v hv => Variables.get_eq_ok_iff.2 hv.get?_runSteps
  first := by
    intro name v huntouched hv
    rw [Variables.get_eq_ok_iff] at hv ⊢
    rw [huntouched.get?_runSteps, hv]
  never := by
    intro name huntouched hnone
    rw [Variables.get, huntouched.get?_runSteps, hnone]
  contains := fun name => Variables.contains_iff_get
  size := by
    obtain ⟨names, hnodup, hlength, hmem⟩ := (runSteps steps vars).exists_names
    refine ⟨names, hnodup, hlength, fun name => ?_⟩
    rw [hmem, contains_runSteps_iff, Variables.contains_iff_get]
  keeps := by
    rintro before after rfl name hname
    rw [runSteps_append]
    exact contains_runSteps hname
  grows := by
    rintro before step after rfl
    rw [runSteps_append]
    exact ⟨step.size_perform_le (runSteps before vars),
      step.exists_contains_perform (runSteps before vars)⟩
  deletes := fun kept h => h.runSteps_eq
  words := by
    rintro rfl hsteps name hname
    rcases contains_runSteps_iff.1 hname with hempty | ⟨v, hv⟩
    · rw [Variables.contains_eq_isSome, Variables.get?_empty] at hempty
      cases hempty
    · exact hv.isWord hsteps

/-- Later statements read what earlier ones wrote, and one that fails writes nothing. -/
example :
    (runSteps [.statement "x = 1", .set "y" (.int 2), .statement "x = x + y", .statement "x = z"]
      .empty).get "x" = .ok (.int 3) := by
  with_unfolding_all rfl

/-- A session of statements leaves the table that its steps lead to. -/
theorem runStatements_snd (texts : List String) (vars : Variables) :
    (runStatements texts vars).2 = runSteps (texts.map .statement) vars := by
  induction texts generalizing vars with
  | nil => rfl
  | cons text rest ih => exact ih (evaluate text vars).2

end Reckon
