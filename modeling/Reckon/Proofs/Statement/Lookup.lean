import Reckon.Proofs.Parsing.Trail
import Reckon.Proofs.Statement.Body

/-!
Which variables a statement looks up.

A statement looks up the names of its body, from the left to the right, and
no others. What stands in front of an assignment sign is only written, so
its old value does not matter, unless the name also stands behind the sign.

* `evaluate_noninterference`: tables that agree in the names of the body
  cannot be told apart by the statement;
* `leftmost_of_reads`: the first name without value, where all tokens before
  it could be passed;
* `evaluate_reads_defined`: a statement succeeds only if all names of its
  body have values, and the name that it misses is the leftmost one without.
-/

namespace Reckon

open Parsing

variable {text : String} {vars vars' : Variables}

/-! ### Two tables -/

/-- What the same clause comes to, over two tables. -/
lemma conclude_congr (text : String) (vars vars' : Variables) (r : Except Error Value) :
    (conclude text vars r).1 = (conclude text vars' r).1 ∧
      ((conclude text vars r).2 = vars ∧ (conclude text vars' r).2 = vars' ∨
        ∃ name v, target? text = some name ∧
          (conclude text vars r).2 = vars.set name v ∧
          (conclude text vars' r).2 = vars'.set name v) := by
  cases r with
  | error e => exact ⟨rfl, .inl ⟨rfl, rfl⟩⟩
  | ok v =>
      cases htarget : target? text with
      | none =>
          simp only [conclude, htarget]
          exact ⟨trivial, .inl ⟨trivial, trivial⟩⟩
      | some name =>
          simp only [conclude, htarget]
          exact ⟨trivial, .inr ⟨name, v, rfl, rfl, rfl⟩⟩

/-- Over tables that agree in the names of the body, the same clause is read. -/
lemma exists_conclude [FloatFunctions] (h : vars.AgreeOn (· ∈ readNames text) vars')
    (hfault : leadingFault? text = none) :
    ∃ r, evaluate text vars = conclude text vars r ∧
      evaluate text vars' = conclude text vars' r := by
  obtain ⟨s, hs, hupcoming, heval⟩ := exists_place_of_body hfault vars
  obtain ⟨t, ht, hupcoming', heval'⟩ := exists_place_of_body hfault vars'
  have halike : Alike vars vars' s t := {
    upcoming_eq := hupcoming.trans hupcoming'.symm
    vars_left := hs
    vars_right := ht
    agree := by
      rw [hupcoming]
      exact fun name hname => h name (mem_readNames_iff.2 hname) }
  have hresult : (comparison s).result = (comparison t).result :=
    ((simulation_alike vars vars').comparison halike).result_eq
  exact ⟨(comparison s).result, heval, hresult ▸ heval'⟩

/-- **Only the names that are read matter**: over two tables with the same values for the
names of the body, a statement comes to the same value or to the same error, and both tables
stay what they are, or the same variable is given the same value in both. -/
theorem evaluate_noninterference [FloatFunctions] (h : vars.AgreeOn (· ∈ readNames text) vars') :
    (evaluate text vars).1 = (evaluate text vars').1 ∧
      ((evaluate text vars).2 = vars ∧ (evaluate text vars').2 = vars' ∨
        ∃ name v, target? text = some name ∧
          (evaluate text vars).2 = vars.set name v ∧
          (evaluate text vars').2 = vars'.set name v) := by
  cases hfault : leadingFault? text with
  | some fault =>
      rw [evaluate_of_leadingFault hfault, evaluate_of_leadingFault hfault]
      exact ⟨rfl, .inl ⟨rfl, rfl⟩⟩
  | none =>
      obtain ⟨r, hr, hr'⟩ := exists_conclude h hfault
      rw [hr, hr']
      exact conclude_congr text vars vars' r

section Machine

attribute [local instance] FloatFunctions.native

/-- The old value of what is assigned to does not matter. -/
theorem evaluate_noninterference_target :
    (∀ name ∈ readNames "x = y + 1",
        ((Variables.empty.set "y" (.int 2)).set "x" (.bool true)).get? name =
          (Variables.empty.set "y" (.int 2)).get? name) ∧
      (evaluate "x = y + 1" ((Variables.empty.set "y" (.int 2)).set "x" (.bool true))).1 =
        (evaluate "x = y + 1" (Variables.empty.set "y" (.int 2))).1 := by
  have hnames : readNames "x = y + 1" = ["y"] := by with_unfolding_all rfl
  have hagree : ∀ name ∈ readNames "x = y + 1",
      ((Variables.empty.set "y" (.int 2)).set "x" (.bool true)).get? name =
        (Variables.empty.set "y" (.int 2)).get? name := by
    intro name hname
    obtain rfl : name = "y" := by simpa [hnames] using hname
    exact Variables.get?_set_of_ne (by decide) _ _
  exact ⟨hagree, (evaluate_noninterference hagree).1⟩

end Machine

/-! ### Names without value -/

/-- A token that can be passed is no name without value. -/
lemma Token.Passable.contains {tok : Token} {name : String} (h : tok.Passable vars)
    (hname : tok.name? = some name) : vars.contains name = true := by
  obtain rfl := Token.name?_eq_some_iff.1 hname
  rw [Variables.contains_eq_isSome]
  exact Option.isSome_iff_ne_none.2 h

lemma contains_of_passable {ts : List Token} (h : ∀ tok ∈ ts, tok.Passable vars) :
    ∀ name ∈ ts.filterMap Token.name?, vars.contains name = true := by
  intro name hname
  obtain ⟨tok, htok, hname⟩ := List.mem_filterMap.1 hname
  exact (h tok htok).contains hname

lemma eof_notMem_of_passable {ts : List Token} (h : ∀ tok ∈ ts, tok.Passable vars) :
    Token.eof ∉ ts :=
  fun hmem => h .eof hmem

section Reads

variable {σ : Type} [TokenSource σ] {s u : Reader σ} {ts : List Token}

/-- All names have values, where all tokens up to the end could be passed. -/
lemma contains_of_reads (hsu : s.Reads ts u) (hts : ∀ tok ∈ ts, tok.Passable vars)
    (hu : u.current = .eof) :
    ∀ name ∈ (Lexer.untilFault s.upcoming).1.filterMap Token.name?, vars.contains name = true := by
  have hupcoming : s.upcoming = ts.map .ok ++ [] := by
    rw [Reader.upcoming_of_reads hsu (eof_notMem_of_passable hts), Reader.upcoming_of_eof hu]
  have hnames : (Lexer.untilFault s.upcoming).1.filterMap Token.name? =
      ts.filterMap Token.name? := by
    rw [hupcoming, Lexer.untilFault_append, List.filterMap_append]
    simp [Lexer.untilFault, Token.name?]
  rw [hnames]
  exact contains_of_passable hts

/-- **The leftmost name without value**, where all tokens in front of it could be passed. -/
lemma leftmost_of_reads {name : String} (hsu : s.Reads ts u)
    (hts : ∀ tok ∈ ts, tok.Passable vars) (hu : u.current = .ident name)
    (hname : vars.get? name = none) :
    ((Lexer.untilFault s.upcoming).1.filterMap Token.name?).find? (fun x => !vars.contains x) =
      some name := by
  have hpassed : (ts.filterMap Token.name?).find? (fun x => !vars.contains x) = none :=
    List.find?_eq_none.2 fun x hx => by simp [contains_of_passable hts x hx]
  have hcurrent : u.upcoming = .ok (.ident name) :: TokenSource.outcomes u.source := by
    rw [Reader.upcoming_of_ne_eof (by simp [hu]), hu]
  have hmissing : vars.contains name = false := by
    rw [Variables.contains_eq_isSome, hname]
    rfl
  rw [Reader.upcoming_of_reads hsu (eof_notMem_of_passable hts), Lexer.untilFault_append,
    List.filterMap_append, List.find?_append, hpassed, hcurrent]
  simp [Lexer.untilFault, Token.name?, hmissing]

end Reads

/-- An error about a name is that the name has no value. -/
lemma Error.eq_undefined_of_kind {e : Error} (h : e.kind = .name) :
    ∃ name, e = .undefined name := by
  cases e with
  | undefined name => exact ⟨name, rfl⟩
  | _ => cases h

variable [FloatFunctions]

/-- What a statement that gets to its clause has looked up. -/
lemma comparison_reads_defined (s : Reader Lexer) :
    (∀ v u, comparison s = .done v u →
        ∀ name ∈ (Lexer.untilFault s.upcoming).1.filterMap Token.name?,
          s.vars.contains name = true) ∧
      ∀ name u, comparison s = .failed (.undefined name) u →
        ((Lexer.untilFault s.upcoming).1.filterMap Token.name?).find?
          (fun x => !s.vars.contains x) = some name := by
  obtain ⟨ts, last, hsees, hpass, hlast, -⟩ := retraced_comparison (τ := Lexer) s
  constructor
  · intro v u hc
    rw [hc] at hsees hlast
    obtain ⟨tok, rfl⟩ := hlast
    obtain ⟨-, -, -, -, -, -, hend, -⟩ := exists_derivesClause hc
    exact contains_of_reads (Reader.sees_ok_iff.1 hsees).1 hpass hend
  · intro name u hc
    rw [hc] at hsees hlast
    obtain ⟨rfl, hname⟩ := hlast
    obtain ⟨hsu, hu⟩ := Reader.sees_ok_iff.1 hsees
    exact leftmost_of_reads hsu hpass hu hname

/-- **Names have values before they are read**: a statement succeeds only if it has no fault
and all names that it reads are in the table, and if it misses a name, then it is the leftmost
one of them that is not in the table. -/
theorem evaluate_reads_defined (text : String) (vars : Variables) :
    (∀ r, (evaluate text vars).1 = .ok r →
        (Lexer.tokenize text).2 = none ∧
          ∀ name ∈ readNames text, vars.contains name = true) ∧
      ∀ e, (evaluate text vars).1 = .error e → e.kind = .name →
        ∃ x, (readNames text).find? (fun name => !vars.contains name) = some x ∧
          e.message = s!"name '{x}' is not defined" := by
  cases hfault : leadingFault? text with
  | some fault =>
      rw [evaluate_of_leadingFault hfault]
      constructor
      · intro r hr
        cases hr
      · intro e he hkind
        cases he
        cases hkind
  | none =>
      obtain ⟨s, rfl, hupcoming, heval⟩ := exists_place_of_body hfault vars
      obtain ⟨hdone, hfailed⟩ := comparison_reads_defined s
      rw [hupcoming] at hdone hfailed
      constructor
      · intro r hr
        obtain ⟨tree, n, ts, houtcomes, -⟩ := exists_parses_of_evaluate hr
        refine ⟨?_, ?_⟩
        · rw [Lexer.tokenize, houtcomes, ← List.append_nil (ts.map _), Lexer.untilFault_append]
          rfl
        · cases hc : comparison s with
          | done v u => exact hdone v u hc
          | failed e u =>
              rw [heval, hc] at hr
              cases hr
      · intro e he hkind
        obtain ⟨name, rfl⟩ := Error.eq_undefined_of_kind hkind
        rw [heval, conclude_fst_eq_error_iff] at he
        refine ⟨name, ?_, rfl⟩
        cases hc : comparison s with
        | done v u =>
            rw [hc] at he
            cases he
        | failed e' u =>
            rw [hc] at he
            cases he
            exact hfailed name u hc

/-- The target of an assignment is looked up where it stands behind the sign. -/
example : (evaluate "x = x + 1" .empty).1 = .error (.undefined "x") := by with_unfolding_all rfl

/-- The name of a function is a name like any other, unless a parenthesis follows it at
once. -/
example : readNames "sin + sin(log (1))" = ["sin", "log"] := by with_unfolding_all rfl

end Reckon
