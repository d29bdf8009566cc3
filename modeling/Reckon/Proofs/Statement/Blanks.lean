import Mathlib.Data.List.Basic
import Reckon.Proofs.Lexer.Calls
import Reckon.Proofs.Statement.Dependence

/-!
Blanks in a statement.

Blanks end a token and mean nothing else. So where a token ends anyway, and
where there are blanks already, more of them can be put in, and the
statement comes to what it came to before. There is one exception: a word
right in front of a parenthesis names a function, and with a blank in
between it is a variable.

* `Cut`: the places in a text where blanks can be put in, and `CutsCall`,
  the exception;
* `Lexeme.insert`: a lexeme in front of such a place stays a lexeme;
* `Cut.outcomes_insert`: the tokens and faults stay what they are;
* `evaluate_congr`: they decide what a statement comes to;
* `evaluate_insert_blanks`: the main statement.
-/

namespace Reckon

open Text

/-! ### Places in a text -/

/-- The last of these characters is a letter. -/
def EndsInLetter (cs : List Char) : Prop := ∃ c ∈ cs.getLast?, isLetter c = true

/-- A text is cut into these two parts at its start, at the place where a call of the lexer
ended, or behind or in front of a blank. -/
inductive Cut (before rest : List Char) : Prop
  | start (empty : before = [])
  | call (k : Nat) (place : (Lexer.after ⟨before ++ rest, before ++ rest⟩ k).rest = rest)
  | behindBlank (blank : ∃ c ∈ before.getLast?, isBlank c = true)
  | beforeBlank (blank : ∃ c ∈ rest.head?, isBlank c = true)

/-- The text is cut between a word and a parenthesis. -/
def CutsCall (before rest : List Char) : Prop := EndsInLetter before ∧ rest.head? = some '('

namespace Lexer

variable {lexeme mid before rest rest' blanks : List Char} {outcome : Except LexError Token}

/-- Of what follows it, only the first character matters to a lexeme. -/
lemma Lexeme.congr (h : Lexeme lexeme rest outcome) (hhead : rest'.head? = rest.head?) :
    Lexeme lexeme rest' outcome := by
  cases h with
  | number run reading => exact .number ⟨run.ne_nil, run.all, hhead ▸ run.stop⟩ reading
  | word run reading =>
      refine .word ⟨run.ne_nil, run.all, hhead ▸ run.stop⟩ ?_
      cases reading with
      | name apart => exact .name (hhead ▸ apart)
      | function call spelling => exact .function (hhead ▸ call) spelling
      | unknown call spelling => exact .unknown (hhead ▸ call) spelling
  | symbol mem alone => exact .symbol mem (hhead ▸ alone)
  | unexpected notBlank notNumber notLetter notSymbol =>
      exact .unexpected notBlank notNumber notLetter notSymbol

/-- A run of letters ends in a letter. -/
lemma LongestRun.endsInLetter (h : LongestRun isLetter lexeme rest) : EndsInLetter lexeme :=
  ⟨lexeme.getLast h.ne_nil, List.getLast?_eq_some_getLast h.ne_nil,
    h.all _ (List.getLast_mem h.ne_nil)⟩

/-- What separates can come right behind a lexeme, unless it is a word in front of a
parenthesis. -/
lemma Lexeme.separate (h : Lexeme lexeme rest outcome) (hcall : ¬ CutsCall lexeme rest)
    (hseparates : Separates rest') : Lexeme lexeme rest' outcome := by
  cases h with
  | number run reading =>
      exact .number ⟨run.ne_nil, run.all, fun c hc => (hseparates c hc).1⟩ reading
  | word run reading =>
      refine .word ⟨run.ne_nil, run.all, fun c hc => (hseparates c hc).2.1⟩ ?_
      cases reading with
      | name apart => exact .name fun hhead => (hseparates '(' hhead).2.2.1 rfl
      | function call spelling => exact absurd ⟨run.endsInLetter, call⟩ hcall
      | unknown call spelling => exact absurd ⟨run.endsInLetter, call⟩ hcall
  | symbol mem alone => exact .symbol mem fun _ hhead => (hseparates '=' hhead).2.2.2 rfl
  | unexpected notBlank notNumber notLetter notSymbol =>
      exact .unexpected notBlank notNumber notLetter notSymbol

/-- A lexeme stays a lexeme if blanks are put in right behind it or further on. -/
lemma Lexeme.insert (h : Lexeme lexeme (mid ++ rest) outcome)
    (hcall : ¬ CutsCall (lexeme ++ mid) rest) (hblanks : ∀ c ∈ blanks, isBlank c = true) :
    Lexeme lexeme (mid ++ (blanks ++ rest)) outcome := by
  cases mid with
  | cons c more => exact h.congr rfl
  | nil =>
      rw [List.append_nil] at hcall
      by_cases hne : blanks = []
      · rw [hne]
        exact h
      · exact h.separate hcall (separates_blanks_append hne hblanks rest)

/-- **Blanks where a call ended** are put in without a change to the tokens and faults. The
induction is on the calls: the first one takes blanks and a lexeme, and the others are calls
on what is left. -/
lemma outcomes_insert_after (hblanks : ∀ c ∈ blanks, isBlank c = true) (k : Nat) (l : Lexer)
    (hl : l.rest = before ++ rest) (hk : (l.after k).rest = rest)
    (hcall : ¬ CutsCall before rest) :
    outcomes (before ++ (blanks ++ rest)) = outcomes (before ++ rest) := by
  induction k generalizing l before with
  | zero =>
      have hnil : before = [] := List.append_left_eq_self.1 (hl.symm.trans hk)
      rw [hnil, List.nil_append, List.nil_append, outcomes_blanks_append hblanks]
  | succ k ih =>
      rw [after_succ] at hk
      have hsuffix : rest <:+ l.next.2.rest := hk ▸ after_rest_suffix l.next.2 k
      rcases scan_eq_iff.1 (Prod.eta (scan l.rest)).symm with
        ⟨-, hend, hall⟩ | ⟨skipped, lexeme, htext, hskipped, hread⟩
      · have hnil : rest = [] := by
          rw [next_snd, hend] at hsuffix
          exact List.suffix_nil.1 hsuffix
        rw [hl, hnil, List.append_nil] at hall
        rw [hnil, List.append_nil, List.append_nil, outcomes_of_blanks hall,
          outcomes_of_blanks fun c hc => (List.mem_append.1 hc).elim (hall c) (hblanks c)]
      · obtain ⟨mid, hmid⟩ := hsuffix
        have hmid' : (scan l.rest).2 = mid ++ rest := hmid.symm
        have hbefore : before = skipped ++ lexeme ++ mid := by
          rw [hmid', hl, ← List.append_assoc] at htext
          exact List.append_cancel_right htext
        have hcall' : ¬ CutsCall (lexeme ++ mid) rest := by
          rintro ⟨⟨c, hc, hletter⟩, hparen⟩
          refine hcall ⟨⟨c, ?_, hletter⟩, hparen⟩
          rw [hbefore, List.append_assoc]
          exact List.mem_getLast?_append_of_mem_getLast? hc
        -- Behind the lexeme the place is one where a call ended, too, and no other exception.
        have hmidcall : ¬ CutsCall mid rest := by
          rintro ⟨⟨c, hc, hletter⟩, hparen⟩
          exact hcall' ⟨⟨c, List.mem_getLast?_append_of_mem_getLast? hc, hletter⟩, hparen⟩
        rw [hmid'] at hread
        have hrest := ih l.next.2 hmid.symm hk hmidcall
        rw [hbefore]
        simp only [List.append_assoc]
        rw [outcomes_blanks_append hskipped, outcomes_blanks_append hskipped,
          outcomes_lexeme_append (hread.insert hcall' hblanks), outcomes_lexeme_append hread, hrest]

end Lexer

/-! ### Tokens and faults -/

variable {before rest blanks : List Char}

/-- **Blanks put in at a cut** leave the tokens and faults what they are, unless the cut takes
a word from the parenthesis behind it. -/
lemma Cut.outcomes_insert (h : Cut before rest) (hcall : ¬ CutsCall before rest)
    (hblanks : ∀ c ∈ blanks, isBlank c = true) :
    Lexer.outcomes (before ++ (blanks ++ rest)) = Lexer.outcomes (before ++ rest) := by
  cases h with
  | start empty =>
      rw [empty, List.nil_append, List.nil_append, Lexer.outcomes_blanks_append hblanks]
  | call k place => exact Lexer.outcomes_insert_after hblanks k _ rfl place hcall
  | behindBlank blank =>
      obtain ⟨c, hc, hblank⟩ := blank
      obtain ⟨more, rfl⟩ := List.getLast?_eq_some_iff.1 hc
      have hsingle : ∀ d ∈ [c], isBlank d = true := by simpa using hblank
      rw [List.append_assoc, List.append_assoc,
        Lexer.outcomes_append_of_blanks more _ (List.cons_ne_nil c []) hsingle,
        Lexer.outcomes_append_of_blanks more _ (List.cons_ne_nil c []) hsingle,
        Lexer.outcomes_blanks_append hblanks]
  | beforeBlank blank =>
      obtain ⟨c, hc, hblank⟩ := blank
      obtain ⟨more, rfl⟩ := List.head?_eq_some_iff.1 hc
      by_cases hne : blanks = []
      · rw [hne, List.nil_append]
      · rw [Lexer.outcomes_append_of_blanks before _ hne hblanks,
          Lexer.outcomes_append before (Lexer.separates_cons_of_blank hblank more)]

/-- A text is what is left of it without the blanks at its ends, between these blanks. -/
lemma exists_blanks_of_trim (cs : List Char) :
    ∃ front back, cs = front ++ (trim cs ++ back) ∧ (∀ c ∈ front, isBlank c = true) ∧
      ∀ c ∈ back, isBlank c = true := by
  refine ⟨cs.takeWhile isBlank, ((cs.dropWhile isBlank).reverse.takeWhile isBlank).reverse,
    ?_, fun c hc => List.mem_takeWhile_imp hc, fun c hc => ?_⟩
  · rw [trim, ← List.reverse_append, List.takeWhile_append_dropWhile, List.reverse_reverse,
      List.takeWhile_append_dropWhile]
  · exact List.mem_takeWhile_imp (List.mem_reverse.1 hc)

lemma outcomes_trim (cs : List Char) : Lexer.outcomes (trim cs) = Lexer.outcomes cs := by
  obtain ⟨front, back, hcs, hfront, hback⟩ := exists_blanks_of_trim cs
  conv_rhs => rw [hcs]
  rw [Lexer.outcomes_blanks_append hfront, Lexer.outcomes_append_blanks _ hback]

/-! ### Statements -/

/-- The tokens and faults of a text decide what it comes to. -/
lemma evaluate_congr [FloatFunctions] {text text' : String}
    (h : Lexer.outcomes text.toList = Lexer.outcomes text'.toList) (vars : Variables) :
    evaluate text vars = evaluate text' vars := by
  have hagree := @evaluate_agree text text' vars vars _ h fun _ _ => rfl
  obtain ⟨hresult, change, hafter, hafter', -⟩ := hagree
  exact Prod.ext hresult (hafter.trans hafter'.symm)

/-- A text comes to the same without the blanks at its ends. -/
lemma evaluate_trim [FloatFunctions] (text : String) (vars : Variables) :
    evaluate (String.ofList (trim text.toList)) vars = evaluate text vars :=
  evaluate_congr (by rw [String.toList_ofList, outcomes_trim]) vars

/-- **Blanks are insignificant between tokens**: put in at the start of a text, where a call of
the lexer ended, or inside or beside blanks, they change neither what the text comes to nor
the table, unless they take a word from the parenthesis behind it. So a text without the
blanks at its ends comes to the same. -/
theorem evaluate_insert_blanks [FloatFunctions] :
    (∀ before rest blanks : String, Cut before.toList rest.toList →
        ¬ CutsCall before.toList rest.toList → (∀ c ∈ blanks.toList, isBlank c = true) →
        ∀ vars, evaluate (before ++ blanks ++ rest) vars = evaluate (before ++ rest) vars) ∧
      ∀ text vars, evaluate (String.ofList (trim text.toList)) vars = evaluate text vars := by
  refine ⟨fun before rest blanks hcut hcall hblanks vars => evaluate_congr ?_ vars, evaluate_trim⟩
  have hinsert := hcut.outcomes_insert hcall hblanks
  simpa only [String.toList_append, List.append_assoc] using hinsert

section Machine

attribute [local instance] FloatFunctions.native

/-- The assignment is cut behind its equals sign, where the second call of the lexer ends. -/
theorem evaluate_insert_blanks_assignment :
    Cut "x=".toList "2+1".toList ∧ ¬ CutsCall "x=".toList "2+1".toList ∧
      evaluate ("x=" ++ " \t" ++ "2+1") .empty = (.ok none, Variables.empty.set "x" (.int 3)) := by
  have hcut : Cut "x=".toList "2+1".toList := .call 2 (by with_unfolding_all rfl)
  have hcall : ¬ CutsCall "x=".toList "2+1".toList := fun h => absurd h.2 (by decide)
  have hblanks : ∀ c ∈ " \t".toList, isBlank c = true := by
    have hall : " \t".toList.all isBlank = true := by decide
    exact List.all_eq_true.1 hall
  have hinsert := evaluate_insert_blanks.1 "x=" "2+1" " \t" hcut hcall hblanks .empty
  exact ⟨hcut, hcall, hinsert.trans (by with_unfolding_all rfl)⟩

/-- Between a word and a parenthesis a blank makes a variable of a function. -/
example : (evaluate "sqrt(0)" .empty).1 = .ok (some (.float 0.0)) ∧
    (evaluate "sqrt (0)" .empty).1 = .error (.undefined "sqrt") := by
  constructor
  · with_unfolding_all rfl
  · with_unfolding_all rfl

end Machine

end Reckon
