import Reckon.CommandLine
import Reckon.Proofs.Statement.Blanks

/-!
Sessions and lists of statements.

A session trims its lines, passes over the blank ones and stops at an exit
word; a list of statements is evaluated as it is. Trimming a statement does
not change what it comes to, so the session writes what its lines write as
statements: those in front of the first exit word, without the blank ones.

* `isExit`, `isBlankLine` and `statementsOf`: the lines of a session that
  are statements;
* `react_of_isExit`, `react_of_isBlankLine` and `react_of_statement`: what a
  line of each kind does;
* `converse_eq_runStatements`: the session is the list of its statements,
  by induction on the lines;
* `lines_append_newline`: what comes after a line break are lines of its own;
* `run_converse`: the main statement.
-/

namespace Reckon

open Text

/-! ### The lines of a session -/

/-- Without the blanks at its ends the line is an exit word. -/
def isExit (line : List Char) : Bool := String.ofList (trim line) ∈ exitWords

/-- The line has nothing but blanks. -/
def isBlankLine (line : List Char) : Bool := line.all isBlank

/-- The lines that are evaluated, as they stand: those in front of the first exit word, without
the blank ones. -/
def statementsOf (ls : List (List Char)) : List String :=
  ((ls.takeWhile (!isExit ·)).filter (!isBlankLine ·)).map String.ofList

variable {line : List Char} {vars : Variables}

/-- Nothing is left of a text without the blanks at its ends if it is all blank. -/
lemma trim_eq_nil_iff : trim line = [] ↔ isBlankLine line = true := by
  rw [isBlankLine, List.all_eq_true]
  constructor
  · intro hnil
    obtain ⟨front, back, hline, hfront, hback⟩ := exists_blanks_of_trim line
    rw [hnil, List.nil_append] at hline
    intro c hc
    rw [hline] at hc
    exact (List.mem_append.1 hc).elim (hfront c) (hback c)
  · intro hall
    rw [trim, List.dropWhile_eq_nil_iff.2 hall]
    rfl

/-- An exit word is not blank. -/
lemma isBlankLine_of_isExit (h : isExit line = true) : isBlankLine line = false := by
  rw [Bool.eq_false_iff]
  intro hblank
  rw [isExit, trim_eq_nil_iff.2 hblank] at h
  exact absurd h (by decide)

lemma isEmpty_trim : (String.ofList (trim line)).isEmpty = isBlankLine line := by
  rw [Bool.eq_iff_iff, String.isEmpty_iff, ← trim_eq_nil_iff, String.ofList_eq_empty_iff]

lemma statementsOf_cons_of_isExit (h : isExit line = true) (rest : List (List Char)) :
    statementsOf (line :: rest) = [] := by
  rw [statementsOf, List.takeWhile_cons_of_neg (by simp [h])]
  rfl

lemma statementsOf_cons_of_isBlankLine (h : isBlankLine line = true) (rest : List (List Char)) :
    statementsOf (line :: rest) = statementsOf rest := by
  have hexit : isExit line = false :=
    Bool.eq_false_iff.2 fun hexit => by cases h.symm.trans (isBlankLine_of_isExit hexit)
  rw [statementsOf, List.takeWhile_cons_of_pos (by simp [hexit]),
    List.filter_cons_of_neg (by simp [h]), statementsOf]

lemma statementsOf_cons_of_statement (hexit : isExit line = false)
    (hblank : isBlankLine line = false) (rest : List (List Char)) :
    statementsOf (line :: rest) = String.ofList line :: statementsOf rest := by
  rw [statementsOf, List.takeWhile_cons_of_pos (by simp [hexit]),
    List.filter_cons_of_pos (by simp [hblank]), statementsOf, List.map_cons]

/-- The lines behind an exit word are no statements. -/
lemma statementsOf_append {ls : List (List Char)} (h : ∃ line ∈ ls, isExit line = true)
    (rest : List (List Char)) : statementsOf (ls ++ rest) = statementsOf ls := by
  obtain ⟨line, hline, hexit⟩ := h
  have hends : (ls.takeWhile (!isExit ·)).length ≠ ls.length := by
    intro hlength
    have hself := (List.takeWhile_prefix (l := ls) (!isExit ·)).eq_of_length hlength
    have hnot := List.takeWhile_eq_self_iff.1 hself line hline
    rw [hexit] at hnot
    cases hnot
  rw [statementsOf, List.takeWhile_append, if_neg hends, statementsOf]

/-! ### The statements of a session -/

section Sessions

variable [FloatFunctions]

lemma react_of_isBlankLine (h : isBlankLine line = true) (vars : Variables) :
    react line vars = .goesOn none vars := by
  rw [react, isEmpty_trim, h]
  rfl

lemma react_of_isExit (h : isExit line = true) (vars : Variables) : react line vars = .ends := by
  have hmem : String.ofList (trim line) ∈ exitWords := of_decide_eq_true h
  rw [react, isEmpty_trim, isBlankLine_of_isExit h, if_neg Bool.false_ne_true, if_pos hmem]

/-- A line that is neither blank nor an exit word is evaluated. The blanks at its ends, which the
session takes off, do not matter to what it comes to. -/
lemma react_of_statement (hexit : isExit line = false) (hblank : isBlankLine line = false)
    (vars : Variables) :
    react line vars = .goesOn (Line.ofResult (evaluate (String.ofList line) vars).1)
      (evaluate (String.ofList line) vars).2 := by
  have hmem : String.ofList (trim line) ∉ exitWords := of_decide_eq_false hexit
  have htrim := evaluate_trim (String.ofList line) vars
  rw [String.toList_ofList] at htrim
  rw [react, isEmpty_trim, hblank, if_neg Bool.false_ne_true, if_neg hmem, htrim]

/-- **A session is the list of its statements**, whatever values the variables have when it
starts. -/
lemma converse_eq_runStatements (ls : List (List Char)) (vars : Variables) :
    converse ls vars = runStatements (statementsOf ls) vars := by
  induction ls generalizing vars with
  | nil => rfl
  | cons line rest ih =>
      cases hexit : isExit line with
      | true =>
          rw [converse, react_of_isExit hexit, statementsOf_cons_of_isExit hexit]
          rfl
      | false =>
          cases hblank : isBlankLine line with
          | true =>
              rw [converse, react_of_isBlankLine hblank, statementsOf_cons_of_isBlankLine hblank,
                ← ih vars]
              rfl
          | false =>
              rw [converse, react_of_statement hexit hblank,
                statementsOf_cons_of_statement hexit hblank, runStatements]
              simp only [ih]

end Sessions

/-! ### The lines of a text -/

variable {c : Char} {more : List Char}

/-- A character that is not part of a line break belongs to the first line. -/
lemma lines_cons (hcr : ∀ after, c = '\r' → more = '\n' :: after → False)
    (hlf : c = '\n' → False) :
    lines (c :: more) = (c :: (lines more).headD []) :: (lines more).tail := by
  rw [lines.eq_4 c more hcr hlf]
  cases lines more <;> rfl

/-- What has a character has a line. -/
lemma lines_ne_nil : lines (c :: more) ≠ [] := by
  rw [lines.eq_def]
  split
  case h_1 heq => cases heq
  case h_2 | h_3 => exact List.cons_ne_nil _ _
  case h_4 =>
    split
    all_goals exact List.cons_ne_nil _ _

/-- A character in front of a text with a line break in it changes the first line only. -/
lemma lines_cons_append_newline (hcr : ∀ after, c = '\r' → more = '\n' :: after → False)
    (hlf : c = '\n' → False) (rest : List Char)
    (hmore : lines (more ++ '\n' :: rest) = lines (more ++ ['\n']) ++ lines rest) :
    lines (c :: (more ++ '\n' :: rest)) = lines (c :: (more ++ ['\n'])) ++ lines rest := by
  cases more with
  | nil =>
      by_cases hc : c = '\r'
      · rw [hc]
        rfl
      · have hcr' : ∀ text after, c = '\r' → text = '\n' :: after → False :=
          fun _ _ h _ => hc h
        rw [List.nil_append, List.nil_append, lines_cons (hcr' _) hlf, lines_cons (hcr' _) hlf]
        rfl
  | cons d after =>
      have hcr' : ∀ text rest', c = '\r' → d :: (after ++ text) = '\n' :: rest' → False :=
        fun _ _ h heq => hcr after h (by rw [(List.cons.inj heq).1])
      rw [List.cons_append, List.cons_append] at hmore ⊢
      rw [lines_cons (hcr' _) hlf, lines_cons (hcr' _) hlf, hmore]
      have hne : lines (d :: (after ++ ['\n'])) ≠ [] := lines_ne_nil
      obtain ⟨l, others, hlines⟩ := List.exists_cons_of_ne_nil hne
      rw [hlines]
      rfl

/-- What comes after a line break are lines of its own. -/
lemma lines_append_newline (before rest : List Char) :
    lines (before ++ '\n' :: rest) = lines (before ++ ['\n']) ++ lines rest := by
  induction before using lines.induct with
  | case1 => rfl
  | case2 more ih => simp only [List.cons_append, lines, ih]
  | case3 more ih => simp only [List.cons_append, lines, ih]
  | case4 c more hcr hlf _ ih => exact lines_cons_append_newline hcr hlf rest ih
  | case5 c more hcr hlf _ _ _ ih => exact lines_cons_append_newline hcr hlf rest ih

/-! ### Piped sessions -/

/-- **A session on a text** writes what its statements write when they are evaluated one after
another, and leaves the same table. It never fails, and what comes after the line break of a line
with an exit word has no effect. -/
theorem run_converse [FloatFunctions] :
    (∀ input : String,
        Command.run input .converse =
            { Command.run "" (.evaluate (statementsOf (lines input.toList))) with exit := 0 } ∧
          ∀ vars, converse (lines input.toList) vars =
            runStatements (statementsOf (lines input.toList)) vars) ∧
      ∀ input rest : String, (∃ line ∈ lines (input ++ "\n").toList, isExit line = true) →
        Command.run (input ++ "\n" ++ rest) .converse = Command.run (input ++ "\n") .converse ∧
          ∀ vars, converse (lines (input ++ "\n" ++ rest).toList) vars =
            converse (lines (input ++ "\n").toList) vars := by
  refine ⟨fun input => ⟨?_, converse_eq_runStatements (lines input.toList)⟩,
    fun input rest hexit => ?_⟩
  · simp only [Command.run, Run.ofLines, converse_eq_runStatements]
  · have hends : ∀ vars, converse (lines (input ++ "\n" ++ rest).toList) vars =
        converse (lines (input ++ "\n").toList) vars := by
      intro vars
      have hlines : lines (input ++ "\n" ++ rest).toList =
          lines (input ++ "\n").toList ++ lines rest.toList := by
        simpa using lines_append_newline input.toList rest.toList
      rw [converse_eq_runStatements, converse_eq_runStatements, hlines, statementsOf_append hexit]
    exact ⟨by simp only [Command.run, hends], hends⟩

/-- Behind the exit word stands a statement that would fail. -/
example : Command.run "x = 2\r\n\n $\n x * 3\n q \n)" .converse =
    ⟨0, "6\n", "LexError: unexpected character in input: $\n"⟩ := by
  with_unfolding_all rfl

end Reckon
