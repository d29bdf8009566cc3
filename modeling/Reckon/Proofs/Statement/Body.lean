import Reckon.Proofs.Statement.Dependence

/-!
The body of a statement.

What an assignment computes stands behind its sign, and any other statement
computes all of its text. This part of a text is read as a clause, unless a
fault comes first.

* `bodyOutcomes` and `body`: the tokens and faults of a text but for the two
  tokens of an assignment, and the tokens among them in front of the first
  fault;
* `readNames`: the names in the body, in order;
* `leadingFault?`: the fault that is met before any clause is read;
* `conclude`: what a statement comes to if its clause comes to this;
* `evaluate_of_leadingFault` and `exists_place_of_body`: an evaluation is
  nothing but the reading of the clause.
-/

namespace Reckon

open Parsing

/-! ### The tokens of the body -/

/-- The name of an identifier. -/
def Token.name? : Token → Option String
  | ident name => some name
  | _ => none

lemma Token.name?_eq_some_iff {tok : Token} {name : String} :
    tok.name? = some name ↔ tok = .ident name := by
  cases tok <;> simp [name?]

/-- The tokens and faults of a text, without the name that is assigned to and the assignment
sign. -/
def bodyOutcomes (text : String) : List (Except LexError Token) :=
  match Lexer.outcomes text.toList with
  | .ok (.ident _) :: .ok .assign :: rest => rest
  | all => all

/-- The tokens of a text in front of its first fault, or all of them and the end, without
those of an assignment. -/
def body (text : String) : List Token := (Lexer.untilFault (bodyOutcomes text)).1

/-- The names that a statement reads, in the order in which they stand in its text. The name
that is assigned to is not among them, unless it also stands behind the sign. -/
def readNames (text : String) : List String := (body text).filterMap Token.name?

variable {text name : String}

lemma outcomes_of_target? (h : target? text = some name) :
    Lexer.outcomes text.toList = .ok (.ident name) :: .ok .assign :: bodyOutcomes text := by
  obtain ⟨rest, hrest⟩ := target?_eq_some_iff.1 h
  rw [bodyOutcomes, hrest]

lemma bodyOutcomes_of_target?_eq_none (h : target? text = none) :
    bodyOutcomes text = Lexer.outcomes text.toList := by
  rw [bodyOutcomes]
  split
  case h_1 name rest hrest => simp [target?_eq_some_iff.2 ⟨rest, hrest⟩] at h
  case h_2 => rfl

lemma mem_readNames_iff : name ∈ readNames text ↔ .ident name ∈ body text := by
  simp [readNames, Token.name?_eq_some_iff]

/-- Tokens in front of others are in front of the first fault. -/
lemma Lexer.untilFault_append (ts : List Token) (os : List (Except LexError Token)) :
    untilFault (ts.map .ok ++ os) = (ts ++ (untilFault os).1, (untilFault os).2) := by
  induction ts with
  | nil => rfl
  | cons tok ts ih =>
      rw [List.map_cons, List.cons_append, untilFault, ih]
      rfl

/-! ### Evaluating a text is reading its body -/

/-- The fault that is met before any clause is read: in the place of the first token, of the
second token behind a name, or of the first token behind an assignment sign. -/
def leadingFault? (text : String) : Option LexError :=
  match Lexer.outcomes text.toList with
  | .error fault :: _ => some fault
  | .ok (.ident _) :: .error fault :: _ => some fault
  | .ok (.ident _) :: .ok .assign :: .error fault :: _ => some fault
  | _ => none

/-- What a statement comes to if its clause comes to this: the value is shown, or stored. -/
def conclude (text : String) (vars : Variables) :
    Except Error Value → Except Error (Option Value) × Variables
  | .error e => (.error e, vars)
  | .ok v =>
      match target? text with
      | none => (.ok (some v), vars)
      | some name => (.ok none, vars.set name v)

variable {vars : Variables} {fault : LexError}

/-- The result of a statement is an error exactly if its clause comes to this error. -/
lemma conclude_fst_eq_error_iff {r : Except Error Value} {e : Error} :
    (conclude text vars r).1 = .error e ↔ r = .error e := by
  cases r with
  | error e' => simp [conclude]
  | ok v => cases htarget : target? text <;> simp [conclude, htarget]

variable [FloatFunctions]

/-- A fault in front of the clause is what the statement fails with. -/
lemma evaluate_of_leadingFault (h : leadingFault? text = some fault) (vars : Variables) :
    evaluate text vars = (.error (.lexical fault), vars) := by
  have hresult : (evaluate text vars).1 = .error (.lexical fault) := by
    have hsource : TokenSource.outcomes (Lexer.ofText text) = Lexer.outcomes text.toList :=
      Lexer.outcomes_eq (Lexer.ofText text)
    rw [leadingFault?] at h
    split at h <;> cases h
    case h_1 rest houtcomes =>
      rcases Reader.start_cases (Lexer.ofText text) vars with
        ⟨fault', rest', hs, hfault⟩ | ⟨s, -, hs⟩
      · rw [hsource, houtcomes] at hfault
        cases hfault
        rw [evaluate, hs]
      · exact absurd (hs.symm.trans (hsource.trans houtcomes)) (s.upcoming_ne_fault fault rest)
    case h_2 name rest houtcomes =>
      obtain ⟨s, hs, hname, hrest⟩ :=
        Reader.exists_start_of_outcomes (hsource.trans houtcomes) vars
      obtain ⟨stop, hstop⟩ := Reader.exists_advance_of_fault hrest
      rw [evaluate_of_start hs, statement_of_fault hname hstop]
      rfl
    case h_3 name rest houtcomes =>
      obtain ⟨s, hs, hname, hrest⟩ :=
        Reader.exists_start_of_outcomes (hsource.trans houtcomes) vars
      obtain ⟨t, ht, hassign, hrest'⟩ := Reader.exists_start_of_outcomes hrest s.vars
      obtain ⟨stop, hstop⟩ := Reader.exists_advance_of_fault hrest'
      rw [evaluate_of_start hs,
        statement_of_assign hname (Reader.advance_of_start_ok ht) hassign, hstop]
      rfl
  exact Prod.ext hresult (evaluate_snd_of_error hresult)

/-- A clause that is shown. -/
lemma conclude_of_shown {u : Reader Lexer} (htarget : target? text = none) (hu : u.vars = vars) :
    conclude text vars (comparison u).result =
      (((comparison u).map some).result, ((comparison u).map some).place.vars) := by
  have hkeeps : (comparison u).Keeps vars := keeps_comparison hu
  cases hc : comparison u with
  | done v w =>
      simp only [Outcome.result, conclude, htarget]
      exact Prod.ext rfl (hkeeps.vars_of_done hc).symm
  | failed e stop => exact Prod.ext rfl (hkeeps.vars_of_failed hc).symm

/-- A clause whose value is stored. -/
lemma conclude_of_assigned {u : Reader Lexer} (htarget : target? text = some name)
    (hu : u.vars = vars) :
    conclude text vars (comparison u).result =
      let o := (comparison u).bind fun v w => .done (none : Option Value) (w.store name v)
      (o.result, o.place.vars) := by
  have hkeeps : (comparison u).Keeps vars := keeps_comparison hu
  cases hc : comparison u with
  | done v w =>
      simp only [Outcome.result, conclude, htarget]
      exact Prod.ext rfl (congrArg (·.set name v) (hkeeps.vars_of_done hc).symm)
  | failed e stop => exact Prod.ext rfl (hkeeps.vars_of_failed hc).symm

/-- **An evaluation is the reading of a clause**: without a fault in front of it, the clause
is read from the place where the body starts, and decides everything. -/
theorem exists_place_of_body (h : leadingFault? text = none) (vars : Variables) :
    ∃ u : Reader Lexer, u.vars = vars ∧ u.upcoming = bodyOutcomes text ∧
      evaluate text vars = conclude text vars (comparison u).result := by
  have hsource : TokenSource.outcomes (Lexer.ofText text) = Lexer.outcomes text.toList :=
    Lexer.outcomes_eq (Lexer.ofText text)
  cases htarget : target? text with
  | some name =>
      have houtcomes := outcomes_of_target? htarget
      obtain ⟨s, hs, hname, hrest⟩ :=
        Reader.exists_start_of_outcomes (hsource.trans houtcomes) vars
      obtain ⟨t, ht, hassign, hbody⟩ := Reader.exists_start_of_outcomes hrest s.vars
      rcases Reader.start_cases t.source t.vars with ⟨fault, rest, -, hfault⟩ | ⟨u, hu, hupcoming⟩
      · rw [leadingFault?, houtcomes, ← hbody, hfault] at h
        cases h
      · have huvars : u.vars = vars := by
          rw [Reader.vars_of_start hu, Reader.vars_of_start ht, Reader.vars_of_start hs]
        refine ⟨u, huvars, hupcoming.symm.trans hbody, ?_⟩
        rw [conclude_of_assigned htarget huvars, evaluate_of_start hs,
          statement_of_assign hname (Reader.advance_of_start_ok ht) hassign,
          Reader.advance_of_start_ok hu]
        rfl
  | none =>
      have hbody := bodyOutcomes_of_target?_eq_none htarget
      rcases Reader.start_cases (Lexer.ofText text) vars with
        ⟨fault, rest, -, hfault⟩ | ⟨s, hs, hupcoming⟩
      · rw [leadingFault?, ← hsource, hfault] at h
        cases h
      · have hsvars : s.vars = vars := Reader.vars_of_start hs
        refine ⟨s, hsvars, hupcoming.symm.trans (hsource.trans hbody.symm), ?_⟩
        rw [conclude_of_shown htarget hsvars, evaluate_of_start hs]
        rcases statement_cases hs with
          hclause | ⟨name, e, t, hname, hst, -⟩ | ⟨name, t, hname, hst, hassign, -⟩
        · rw [hclause]
        · obtain ⟨fault, rest, -, hrest⟩ := Reader.exists_fault_of_advance hst
          rw [leadingFault?, ← hsource, hupcoming,
            Reader.upcoming_of_ne_eof (by simp [hname]), hname, hrest] at h
          cases h
        · rw [target?_of_start hs hname hst hassign] at htarget
          cases htarget

end Reckon
