import Reckon.Proofs.Parsing.Simulation
import Reckon.Proofs.Statement.Evaluation

/-!
What a statement reads and what it writes.

A statement comes to its result through its tokens and faults alone, and
through the values of the names among them. It writes at most one variable,
the one in front of its assignment sign, and the value that it writes is
part of what it comes to. This holds of every text, also of one that is no
statement and fails somewhere.

* `Mentions`: the names that a text may ask the table for;
* `target?`: the name that a text may assign to;
* `Variables.write`: the table after at most one change;
* `evaluate_agree`: the main statement, for two tables that agree in the
  names of the text.
-/

namespace Reckon

open Parsing

/-! ### Names in a text -/

/-- The name stands in the text, in front of the first fault. -/
def Mentions (text name : String) : Prop := Token.ident name ∈ (Lexer.tokenize text).1

/-- The name at the start of the text, if an assignment sign follows it. -/
def target? (text : String) : Option String :=
  match Lexer.outcomes text.toList with
  | .ok (.ident name) :: .ok .assign :: _ => some name
  | _ => none

lemma target?_eq_some_iff {text name : String} :
    target? text = some name ↔
      ∃ rest, Lexer.outcomes text.toList = .ok (.ident name) :: .ok .assign :: rest := by
  rw [target?]
  split
  case h_1 rest h => simp [h]
  case h_2 h => simpa using fun rest heq => h name rest heq

/-- What is assigned to is mentioned. -/
lemma mentions_of_target? {text name : String} (h : target? text = some name) :
    Mentions text name := by
  obtain ⟨rest, hrest⟩ := target?_eq_some_iff.1 h
  rw [Mentions, Lexer.tokenize, hrest]
  exact List.mem_cons_self

/-! ### Changes of a table -/

namespace Variables

/-- The table after a change of one variable, or after none. -/
def write (vars : Variables) : Option (String × Value) → Variables
  | none => vars
  | some (name, v) => vars.set name v

variable {vars vars' : Variables} {change : Option (String × Value)} {name : String}

/-- Tables that agree in a name still do so after the same change. -/
lemma get?_write_congr (h : vars.get? name = vars'.get? name) :
    (vars.write change).get? name = (vars'.write change).get? name := by
  cases change with
  | none => exact h
  | some p => rw [write, write, get?_set, get?_set, h]

/-- A change of another name does not matter. -/
lemma get?_write_of_ne (h : ∀ p ∈ change, p.1 ≠ name) :
    (vars.write change).get? name = vars.get? name := by
  cases change with
  | none => rfl
  | some p => exact get?_set_of_ne (h p rfl) vars p.2

/-- Changes of different variables may be exchanged. -/
lemma write_write_comm {change' : Option (String × Value)}
    (h : ∀ p ∈ change, ∀ q ∈ change', p.1 ≠ q.1) :
    (vars.write change).write change' = (vars.write change').write change := by
  cases change with
  | none => rfl
  | some p =>
      cases change' with
      | none => rfl
      | some q =>
          have hne : p.1 ≠ q.1 := h p rfl q rfl
          refine ext fun name => ?_
          simp only [write, get?_set]
          split_ifs with hq hp
          · exact absurd (hp.trans hq.symm) hne
          all_goals rfl

end Variables

/-! ### Statements over tables that agree -/

variable {text text' : String} {vars vars' : Variables}

/-- The two tables went through the same change, at most of the variable that the text
assigns to. -/
def SameChange (text : String) (vars vars' after after' : Variables) : Prop :=
  ∃ change, after = vars.write change ∧ after' = vars'.write change ∧
    ∀ p ∈ change, target? text = some p.1

lemma SameChange.refl (text : String) (vars vars' : Variables) :
    SameChange text vars vars' vars vars' :=
  ⟨none, rfl, rfl, fun p hp => by cases hp⟩

/-- Where a text starts with a name and an assignment sign, the name is its target. -/
lemma target?_of_start {s t : Reader Lexer} {name : String}
    (hstart : Reader.start (Lexer.ofText text) vars = .ok s) (hs : s.current = .ident name)
    (hst : s.advance = .done () t) (ht : t.current = .assign) : target? text = some name := by
  have hname : s.Reads [.ident name] t := ⟨hs, t, hst, rfl⟩
  have hupcoming := Reader.upcoming_of_reads hname (by simp)
  rw [Reader.upcoming_of_start hstart, Reader.upcoming_of_ne_eof (by simp [ht]), ht] at hupcoming
  exact target?_eq_some_iff.2 ⟨_, hupcoming⟩

variable [FloatFunctions]

/-- From places that are alike, the statements come to the same, and change the two tables
in the same way. -/
lemma Alike.statement {s t : Reader Lexer} (h : Alike vars vars' s t)
    (hs : Reader.start (Lexer.ofText text) vars = .ok s)
    (ht : Reader.start (Lexer.ofText text') vars' = .ok t) :
    (statement s).Related (fun u u' => SameChange text vars vars' u.vars u'.vars)
      (statement t) := by
  have hclause : ((comparison s).map some).Related
      (fun u u' => SameChange text vars vars' u.vars u'.vars) ((comparison t).map some) := by
    refine h.clause.mono fun u u' hu => ?_
    rw [hu.1, hu.2]
    exact .refl text vars vars'
  have hcurrent : s.current = t.current := h.current_eq
  by_cases hident : ∃ name, s.current = .ident name
  · obtain ⟨name, hname⟩ := hident
    have hname' : t.current = .ident name := hcurrent.symm.trans hname
    rcases (h.advance (by simp [hname])).eq_done_or_failed with
      ⟨_, m, m', hm, hm', halike⟩ | ⟨e, m, m', hm, hm'⟩
    · by_cases hassign : m.current = .assign
      · have hassign' : m'.current = .assign := halike.current_eq.symm.trans hassign
        rw [statement_of_assign hname hm hassign, statement_of_assign hname' hm' hassign']
        refine (halike.assignment hassign name).mono fun u u' hu => ?_
        obtain ⟨v, hv, hv'⟩ := hu
        refine ⟨some (name, v), hv, hv', fun p hp => ?_⟩
        cases hp
        exact target?_of_start hs hname hm hassign
      · have hassign' : m'.current ≠ .assign := halike.current_eq ▸ hassign
        rw [statement_of_ident hs hname hm hassign, statement_of_ident ht hname' hm' hassign']
        exact hclause
    · rw [statement_of_fault hname hm, statement_of_fault hname' hm']
      exact .failed e m m'
  · have hident' : ∀ name, s.current ≠ .ident name := fun name hname => hident ⟨name, hname⟩
    rw [statement_of_ne_ident hident', statement_of_ne_ident (hcurrent ▸ hident')]
    exact hclause

/-- **What a statement reads and writes**: texts with the same tokens and faults, over tables
that agree in the names among them, come to the same value or the same error, and the tables
go through the same change. -/
theorem evaluate_agree (h : Lexer.outcomes text.toList = Lexer.outcomes text'.toList)
    (hagree : vars.AgreeOn (Mentions text) vars') :
    (evaluate text vars).1 = (evaluate text' vars').1 ∧
      SameChange text vars vars' (evaluate text vars).2 (evaluate text' vars').2 := by
  have houtcomes : TokenSource.outcomes (Lexer.ofText text) =
      TokenSource.outcomes (Lexer.ofText text') := by
    rw [Lexer.outcomes_eq, Lexer.outcomes_eq]
    exact h
  have hnames : vars.AgreeOn (Lexer.Mentions (TokenSource.outcomes (Lexer.ofText text))) vars' := by
    rw [Lexer.outcomes_eq]
    exact hagree
  rcases Alike.start_cases houtcomes hnames with ⟨e, hs, ht⟩ | ⟨s, t, hs, ht, halike⟩
  · rw [evaluate, evaluate, hs, ht]
    exact ⟨rfl, .refl text vars vars'⟩
  · have hstatement := halike.statement hs ht
    rw [evaluate_of_start hs, evaluate_of_start ht]
    refine ⟨hstatement.result_eq, ?_⟩
    rcases hstatement.eq_done_or_failed with ⟨r, u, u', hu, hu', hchange⟩ | ⟨e, u, u', hu, hu'⟩
    · rw [hu, hu']
      exact hchange
    · have hvars := vars_of_statement_failed hs hu
      have hvars' := vars_of_statement_failed ht hu'
      rw [hu, hu']
      show SameChange text vars vars' u.vars u'.vars
      rw [hvars, hvars']
      exact .refl text vars vars'

/-- A statement changes at most the variable that it assigns to. -/
lemma exists_change (text : String) (vars : Variables) :
    ∃ change, (evaluate text vars).2 = vars.write change ∧
      ∀ p ∈ change, target? text = some p.1 := by
  have hchange : SameChange text vars vars (evaluate text vars).2 (evaluate text vars).2 :=
    (evaluate_agree rfl fun _ _ => rfl).2
  obtain ⟨change, hvars, -, htarget⟩ := hchange
  exact ⟨change, hvars, htarget⟩

/-- The variables that a statement does not assign to stay what they are. -/
lemma get?_evaluate_of_ne {name : String} (h : target? text ≠ some name) (vars : Variables) :
    (evaluate text vars).2.get? name = vars.get? name := by
  obtain ⟨change, hvars, htarget⟩ := exists_change text vars
  rw [hvars]
  refine Variables.get?_write_of_ne fun p hp hname => h ?_
  rw [htarget p hp, hname]

end Reckon
