import Reckon.Proofs.Session.Conversation
import Reckon.Proofs.Session.History
import Reckon.Proofs.Statement.Unbroken

/-!
What the program writes for the statements on its command line.

Every statement is evaluated, also behind one that failed, and writes at most
one line: its value to the output, or its error to the errors. Values and
messages have no line breaks of their own, so the lines that are written can
be told apart again, and counted.

* `resultsOf`: what the statements come to, with `getElem?_resultsOf` for the
  table on which each of them is evaluated;
* `displaysOf` and `reportsOf`: the lines that they write, and
  `fst_runStatements` and its companions, which say that nothing else is
  written;
* `lines_join`: lines without breaks of their own are the lines of the text
  that they make;
* `ofArguments_eval`: statements are passed to the program as they are;
* `run_evaluate`: the main statement.
-/

namespace Reckon

open Text

/-! ### The results of the statements -/

/-- What the statements come to, each of them on the table that the ones before it left, whether
or not those failed. -/
def resultsOf [FloatFunctions] : List String → Variables → List (Except Error (Option Value))
  | [], _ => []
  | text :: rest, vars => (evaluate text vars).1 :: resultsOf rest (evaluate text vars).2

/-- The values that are shown, as they are written. -/
def displaysOf (results : List (Except Error (Option Value))) : List String :=
  results.filterMap fun
    | .ok (some v) => some v.render
    | _ => none

/-- The errors that are reported, as they are written. -/
def reportsOf (results : List (Except Error (Option Value))) : List String :=
  results.filterMap fun
    | .error e => some (e.kind.label ++ ": " ++ e.message)
    | _ => none

variable {texts : List String} {vars : Variables} {results : List (Except Error (Option Value))}

/-- A statement is evaluated on the table that the statements in front of it lead to. -/
lemma getElem?_resultsOf [FloatFunctions] (texts : List String) (vars : Variables) (i : Nat) :
    (resultsOf texts vars)[i]? =
      texts[i]?.map fun text =>
        (evaluate text (runSteps ((texts.take i).map .statement) vars)).1 := by
  induction texts generalizing vars i with
  | nil => rfl
  | cons text rest ih =>
      cases i with
      | zero => rfl
      | succ i => exact ih (evaluate text vars).2 i

/-- What is written are the lines of the results, in order. -/
lemma fst_runStatements [FloatFunctions] (texts : List String) (vars : Variables) :
    (runStatements texts vars).1 = (resultsOf texts vars).filterMap Line.ofResult := by
  induction texts generalizing vars with
  | nil => rfl
  | cons text rest ih =>
      show (Line.ofResult (evaluate text vars).1).toList ++
        (runStatements rest (evaluate text vars).2).1 = _
      rw [resultsOf, List.filterMap_cons, ih]
      cases Line.ofResult (evaluate text vars).1 <;> rfl

/-- The values make the output. -/
lemma output_filterMap (results : List (Except Error (Option Value))) :
    Line.output (results.filterMap Line.ofResult) =
      String.join ((displaysOf results).map (· ++ "\n")) := by
  induction results with
  | nil => rfl
  | cons r rest ih =>
      match r with
      | .ok none => exact ih
      | .ok (some v) =>
          show String.join ((v.render ++ "\n") :: _) = String.join ((v.render ++ "\n") :: _)
          rw [String.join_cons, String.join_cons]
          exact congrArg _ ih
      | .error e =>
          show String.join ("" :: _) = _
          rw [String.join_cons, String.empty_append]
          exact ih

/-- The errors make what is written beside the output. -/
lemma errors_filterMap (results : List (Except Error (Option Value))) :
    Line.errors (results.filterMap Line.ofResult) =
      String.join ((reportsOf results).map (· ++ "\n")) := by
  induction results with
  | nil => rfl
  | cons r rest ih =>
      match r with
      | .ok none => exact ih
      | .ok (some v) =>
          show String.join ("" :: _) = _
          rw [String.join_cons, String.empty_append]
          exact ih
      | .error e =>
          show String.join ((e.report.render ++ "\n") :: _) =
            String.join ((e.kind.label ++ ": " ++ e.message ++ "\n") :: _)
          rw [String.join_cons, String.join_cons]
          exact congrArg _ ih

/-- Some line reports an error exactly if some statement fails. -/
lemma any_isFailure_filterMap (results : List (Except Error (Option Value))) :
    (results.filterMap Line.ofResult).any Line.isFailure = true ↔ ∃ e, .error e ∈ results := by
  rw [List.any_eq_true]
  constructor
  · rintro ⟨line, hline, hfailure⟩
    obtain ⟨r, hr, hshown⟩ := List.mem_filterMap.1 hline
    match r with
    | .ok none => cases hshown
    | .ok (some v) =>
        cases hshown
        cases hfailure
    | .error e => exact ⟨e, hr⟩
  · rintro ⟨e, he⟩
    exact ⟨_, List.mem_filterMap.2 ⟨_, he, rfl⟩, rfl⟩

lemma length_displaysOf (results : List (Except Error (Option Value))) :
    (displaysOf results).length = results.countP (· matches .ok (some _)) := by
  rw [displaysOf, List.length_filterMap_eq_countP]
  refine List.countP_congr fun r _ => ?_
  match r with
  | .ok none | .ok (some v) | .error e => exact Iff.rfl

lemma length_reportsOf (results : List (Except Error (Option Value))) :
    (reportsOf results).length = results.countP (· matches .error _) := by
  rw [reportsOf, List.length_filterMap_eq_countP]
  refine List.countP_congr fun r _ => ?_
  match r with
  | .ok none | .ok (some v) | .error e => exact Iff.rfl

/-! ### Lines without breaks of their own -/

/-- A text on one line, with a line break behind it, is one line. -/
lemma lines_of_unbroken {l : List Char} (h : Unbroken l) : lines (l ++ ['\n']) = [l] := by
  induction l with
  | nil => rfl
  | cons c l ih =>
      obtain ⟨hc, hl⟩ := List.forall_mem_cons.1 h
      rw [List.cons_append, lines_cons (fun _ hcr _ => hc.2 hcr) hc.1, ih hl]
      rfl

/-- **Texts on one line each, with a line break behind each of them**, are the lines of what
they make together. -/
lemma lines_join {ls : List String} (h : ∀ l ∈ ls, Unbroken l.toList) :
    lines (String.join (ls.map (· ++ "\n"))).toList = ls.map String.toList := by
  induction ls with
  | nil => rfl
  | cons l rest ih =>
      obtain ⟨hl, hrest⟩ := List.forall_mem_cons.1 h
      have htext : (String.join ((l :: rest).map (· ++ "\n"))).toList =
          l.toList ++ '\n' :: (String.join (rest.map (· ++ "\n"))).toList := by
        simp [String.join_cons]
      rw [htext, lines_append_newline, lines_of_unbroken hl, ih hrest]
      rfl

/-! ### The command line -/

/-- A statement behind the name of its option and an equals sign is passed on, whatever is in
it. -/
lemma ofText_eval (text : String) :
    Argument.ofText ("--eval=" ++ text) = .valued .statement (some text) := by
  have htext : ("--eval=" ++ text).toList =
      '-' :: '-' :: 'e' :: 'v' :: 'a' :: 'l' :: '=' :: text.toList := by
    simp
  have htake : ('e' :: 'v' :: 'a' :: 'l' :: '=' :: text.toList).takeWhile (· ≠ '=') =
      "eval".toList := rfl
  have hdrop : ('e' :: 'v' :: 'a' :: 'l' :: '=' :: text.toList).dropWhile (· ≠ '=') =
      '=' :: text.toList := rfl
  simp only [Argument.ofText, htext, Argument.ofLong, htake, hdrop, String.ofList_toList]

lemma ofArgumentsFrom_eval (texts : List String) (s : Settings) :
    Command.ofArgumentsFrom s (texts.map ("--eval=" ++ ·)) =
      .ok { s with statements := s.statements ++ texts }.command := by
  induction texts generalizing s with
  | nil => simp [Command.ofArgumentsFrom]
  | cons text rest ih =>
      rw [List.map_cons, Command.ofArgumentsFrom.eq_def]
      simp only [ofText_eval]
      show Command.ofArgumentsFrom { s with statements := s.statements ++ [text] } _ = _
      rw [ih, List.append_assoc]
      rfl

/-- Statements on the command line are evaluated, in order. -/
lemma ofArguments_eval (hne : texts ≠ []) :
    Command.ofArguments (texts.map ("--eval=" ++ ·)) = .ok (.evaluate texts) := by
  rw [Command.ofArguments, ofArgumentsFrom_eval, Settings.command, List.nil_append,
    if_neg (by simpa using hne)]

/-! ### The program -/

lemma unbroken_of_mem_displaysOf {text : String} (h : text ∈ displaysOf results) :
    Unbroken text.toList := by
  obtain ⟨r, -, hr⟩ := List.mem_filterMap.1 h
  match r with
  | .ok none | .error e => cases hr
  | .ok (some v) =>
      cases hr
      exact v.unbroken_render

lemma unbroken_of_mem_reportsOf [FloatFunctions] {report : String}
    (h : report ∈ reportsOf (resultsOf texts vars)) : Unbroken report.toList := by
  obtain ⟨r, hmem, hr⟩ := List.mem_filterMap.1 h
  match r with
  | .ok none | .ok (some v) => cases hr
  | .error e =>
      cases hr
      obtain ⟨i, hi⟩ := List.getElem?_of_mem hmem
      rw [getElem?_resultsOf] at hi
      obtain ⟨text, -, herror⟩ := Option.map_eq_some_iff.1 hi
      exact Report.unbroken_render (r := e.report) (unbroken_message_of_evaluate herror)

/-- **One line for each value and one for each error**: whatever the statements are, the program
evaluates all of them in order, each on the table that the ones before it lead to, whether or not
those failed. It writes one line for each value that is shown, and beside the output one line for
each statement that fails. No value and no message has a line break of its own, so these are the
lines of what is written, and there are as many as values and as failures. The exit code says
whether a statement failed. -/
theorem run_evaluate [FloatFunctions] (hne : texts ≠ []) (input : String) :
    Command.ofArguments (texts.map ("--eval=" ++ ·)) = .ok (.evaluate texts) ∧
      (∃ results : List (Except Error (Option Value)),
        (∀ i, results[i]? = texts[i]?.map fun text =>
          (evaluate text (runSteps ((texts.take i).map .statement) .empty)).1) ∧
        (let run := Command.run input (.evaluate texts)
        run.output = String.join ((displaysOf results).map (· ++ "\n")) ∧
          lines run.output.toList = (displaysOf results).map String.toList ∧
          (lines run.output.toList).length = results.countP (· matches .ok (some _)) ∧
          run.errors = String.join ((reportsOf results).map (· ++ "\n")) ∧
          lines run.errors.toList = (reportsOf results).map String.toList ∧
          (lines run.errors.toList).length = results.countP (· matches .error _) ∧
          (run.exit = 1 ↔ ∃ e, .error e ∈ results) ∧
          (run.exit = 0 ↔ ∀ e, .error e ∉ results))) ∧
      ∀ text vars,
        (∀ v, (evaluate text vars).1 = .ok (some v) → Unbroken v.render.toList) ∧
          ∀ e, (evaluate text vars).1 = .error e → Unbroken e.message.toList := by
  have hdisplays : ∀ display ∈ displaysOf (resultsOf texts .empty), Unbroken display.toList :=
    fun _ => unbroken_of_mem_displaysOf
  have hreports : ∀ report ∈ reportsOf (resultsOf texts .empty), Unbroken report.toList :=
    fun _ => unbroken_of_mem_reportsOf
  refine ⟨ofArguments_eval hne, ⟨resultsOf texts .empty, getElem?_resultsOf texts .empty, ?_⟩,
    fun text vars => ⟨fun v _ => v.unbroken_render, fun e he => unbroken_message_of_evaluate he⟩⟩
  have hshown := fst_runStatements texts .empty
  have hexit := any_isFailure_filterMap (resultsOf texts .empty)
  simp only [Command.run, Run.ofLines, hshown, output_filterMap, errors_filterMap,
    lines_join hdisplays, lines_join hreports, List.length_map, length_displaysOf,
    length_reportsOf, true_and]
  constructor
  · split <;> simp_all
  · split <;> simp_all

/-- A value between two errors, and line breaks among the characters of the statements. -/
theorem run_evaluate_line_breaks :
    ["x = 2", "x\r\n/ 0", "x *\n3", "\n$"] ≠ [] ∧
      Command.ofArguments ["--eval=x = 2", "--eval=x\r\n/ 0", "--eval=x *\n3", "--eval=\n$"] =
        .ok (.evaluate ["x = 2", "x\r\n/ 0", "x *\n3", "\n$"]) ∧
      Command.run "" (.evaluate ["x = 2", "x\r\n/ 0", "x *\n3", "\n$"]) =
        ⟨1, "6\n", "ZeroDivisionError: integer division by zero\n" ++
          "LexError: unexpected character in input: $\n"⟩ := by
  have hne : ["x = 2", "x\r\n/ 0", "x *\n3", "\n$"] ≠ [] := List.cons_ne_nil _ _
  exact ⟨hne, (run_evaluate hne "").1, by with_unfolding_all rfl⟩

end Reckon
