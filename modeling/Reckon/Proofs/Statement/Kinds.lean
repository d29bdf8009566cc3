import Reckon.Proofs.Grammar.Kinding
import Reckon.Proofs.Statement.Body

/-!
The kinds of what statements come to.

The kind of what a statement shows or stores is seen from its text and from
the kinds of the variables in it. So tables with the same kinds lead to the
same kind, and where a truth value stands in a wrong place over one of them,
it does so over the other one too, unless something else fails before.

* `produced?`: what a statement shows, or what it stores;
* `exists_clause_of_ok`: a statement that succeeds is a clause up to the end
  of the text, over every table;
* `HasTruth` and `HasFraction`: what makes truth values and doubles;
* `evaluate_kinds`: the kinds of statements.
-/

namespace Reckon

variable {text : String} {vars vars' : Variables}

/-- What a statement shows, or the value of what it assigns to. -/
def produced? [FloatFunctions] (text : String) (vars : Variables) : Option Value :=
  match (evaluate text vars).1, target? text with
  | .ok (some v), _ => some v
  | .ok none, some name => (evaluate text vars).2.get? name
  | _, _ => none

/-- The text compares, or all that stands in its body is the name of a truth value, possibly
in parentheses. -/
def HasTruth (text : String) (vars : Variables) : Prop :=
  (∃ op, .comparison op ∈ body text) ∨
    ∃ m name, body text = parenthesized m name ++ [.eof] ∧ vars.kind? name = some .bool

/-- A function, a literal with a point or the name of a double stands in the body. -/
def HasFraction (text : String) (vars : Variables) : Prop :=
  ∃ tok ∈ body text, tok.Fractional vars.kind?

/-! ### Successful statements -/

/-- The body of a text without faults. -/
lemma body_of_bodyOutcomes {ts : List Token} (h : bodyOutcomes text = ts.map .ok) :
    body text = ts ++ [.eof] := by
  rw [body, h, ← List.append_nil (ts.map _), Lexer.untilFault_append]
  rfl

/-- A clause is no assignment. -/
lemma target?_eq_none_of_derives {n : Nat} {ts : List Token} {c : Clause}
    (houtcomes : Lexer.outcomes text.toList = ts.map .ok) (h : DerivesClause n ts c) :
    target? text = none := by
  cases htarget : target? text with
  | none => rfl
  | some name =>
      obtain ⟨rest, hrest⟩ := target?_eq_some_iff.1 htarget
      have hassign : .ok .assign ∈ ts.map (Except.ok : Token → Except LexError Token) := by
        rw [← houtcomes, hrest]
        simp
      obtain ⟨tok, htok, heq⟩ := List.mem_map.1 hassign
      cases heq
      exact absurd rfl (h.ne_of_mem htok).2

/-- A statement succeeds exactly if its clause has a value, and then it is known from the text
whether the value is shown. -/
lemma conclude_fst_eq_ok_iff {r : Except Error Value} {s : Option Value} :
    (conclude text vars r).1 = .ok s ↔
      ∃ v, r = .ok v ∧ s = if target? text = none then some v else none := by
  cases r with
  | error e => simp [conclude]
  | ok v => cases htarget : target? text <;> simp [conclude, htarget, eq_comm]

section Success

variable [FloatFunctions]

/-- **Success**: the body is a clause up to the end of the text, and over every table the
statement comes to what the clause comes to. -/
theorem exists_clause_of_ok {r : Option Value} (h : (evaluate text vars).1 = .ok r) :
    ∃ n ts c, DerivesClause n ts c ∧ body text = ts ++ [.eof] ∧
      ∀ vars, evaluate text vars = conclude text vars (c.eval vars) := by
  obtain ⟨tree, hparses⟩ := exists_parses_of_evaluate h
  have heval := evaluate_of_parses hparses
  obtain ⟨n, ts, houtcomes, htree, -⟩ := hparses
  cases htree with
  | @shown _ c hc =>
      have htarget := target?_eq_none_of_derives houtcomes hc
      refine ⟨n, ts, c, hc, ?_, fun vars => ?_⟩
      · exact body_of_bodyOutcomes ((bodyOutcomes_of_target?_eq_none htarget).trans houtcomes)
      · rw [heval, StatementTree.run]
        cases c.eval vars with
        | ok v =>
            simp only [conclude, htarget]
            rfl
        | error e => rfl
  | @assignment ts c name hc =>
      have htarget : target? text = some name := target?_eq_some_iff.2 ⟨_, houtcomes⟩
      have hbody := (outcomes_of_target? htarget).symm.trans houtcomes
      refine ⟨n, ts, c, hc, body_of_bodyOutcomes (by simpa using hbody), fun vars => ?_⟩
      rw [heval, StatementTree.run]
      cases c.eval vars with
      | ok v => simp only [conclude, htarget]
      | error e => rfl

/-- The value of the clause is what is shown or stored. -/
lemma produced?_of_conclude {v : Value} (h : evaluate text vars = conclude text vars (.ok v)) :
    produced? text vars = some v := by
  rw [produced?, h]
  cases htarget : target? text <;> simp [conclude, htarget]

end Success

/-! ### Kinds -/

/-- Names with the same kinds in two tables give the clause the same kind. -/
lemma kind?_clause_congr {n : Nat} {ts : List Token} {c : Clause} (hc : DerivesClause n ts c)
    (hbody : body text = ts ++ [.eof])
    (h : ∀ name ∈ readNames text, vars.kind? name = vars'.kind? name) :
    c.kind? vars.kind? = c.kind? vars'.kind? := by
  refine hc.kind?_congr fun name hname => h name ?_
  rw [mem_readNames_iff, hbody]
  exact List.mem_append_left _ hname

/-- What makes truth values stands in the clause. -/
lemma hasTruth_iff {ts : List Token} (hbody : body text = ts ++ [.eof]) :
    HasTruth text vars ↔ (∃ op, .comparison op ∈ ts) ∨
      ∃ m name, ts = parenthesized m name ∧ vars.kind? name = some .bool := by
  simp [HasTruth, hbody]

/-- What makes doubles stands in the clause. -/
lemma hasFraction_iff {ts : List Token} (hbody : body text = ts ++ [.eof]) :
    HasFraction text vars ↔ ∃ tok ∈ ts, tok.Fractional vars.kind? := by
  simp [HasFraction, hbody, or_and_right, exists_or]

variable [FloatFunctions]

/-- Two runs over tables with the same kinds: the values are both shown or both stored, and
they are of the same kind. -/
lemma kind_eq_of_ok {r r' : Option Value}
    (h : ∀ name ∈ readNames text, vars.kind? name = vars'.kind? name)
    (hr : (evaluate text vars).1 = .ok r) (hr' : (evaluate text vars').1 = .ok r') :
    r.isSome = r'.isSome ∧
      ∃ v v', produced? text vars = some v ∧ produced? text vars' = some v' ∧
        v.kind = v'.kind := by
  obtain ⟨n, ts, c, hc, hbody, heval⟩ := exists_clause_of_ok hr
  rw [heval] at hr hr'
  obtain ⟨v, hv, rfl⟩ := conclude_fst_eq_ok_iff.1 hr
  obtain ⟨v', hv', rfl⟩ := conclude_fst_eq_ok_iff.1 hr'
  have hkind : some v.kind = some v'.kind :=
    calc some v.kind = c.kind? vars.kind? := ((c.hasKind_eval vars).of_ok v hv).symm
      _ = c.kind? vars'.kind? := kind?_clause_congr hc hbody h
      _ = some v'.kind := (c.hasKind_eval vars').of_ok v' hv'
  refine ⟨?_, v, v', ?_, ?_, Option.some.inj hkind⟩
  · split_ifs <;> rfl
  · exact produced?_of_conclude (by rw [heval, hv])
  · exact produced?_of_conclude (by rw [heval, hv'])

/-- Where a truth value stands in a wrong place over one table, there is no value over the
other one. -/
lemma ne_ok_of_type_error {e : Error} {r' : Option Value}
    (h : ∀ name ∈ readNames text, vars.kind? name = vars'.kind? name)
    (he : (evaluate text vars).1 = .error e) (htype : e.kind = .type) :
    (evaluate text vars').1 ≠ .ok r' := by
  intro hr'
  obtain ⟨n, ts, c, hc, hbody, heval⟩ := exists_clause_of_ok hr'
  rw [heval] at he hr'
  obtain ⟨v', hv', -⟩ := conclude_fst_eq_ok_iff.1 hr'
  have hnone : none = some v'.kind :=
    calc none = c.kind? vars.kind? :=
          ((c.hasKind_eval vars).of_error e (conclude_fst_eq_error_iff.1 he) htype).symm
      _ = c.kind? vars'.kind? := kind?_clause_congr hc hbody h
      _ = some v'.kind := (c.hasKind_eval vars').of_ok v' hv'
  cases hnone

/-- The kind of what a successful statement produces, seen from its tokens. -/
lemma exists_kind_of_ok {r : Option Value} (hr : (evaluate text vars).1 = .ok r) :
    ∃ v, produced? text vars = some v ∧
      (v.kind = .bool ↔ HasTruth text vars) ∧
      (v.kind = .int ↔ ¬ HasTruth text vars ∧ ¬ HasFraction text vars) ∧
      (v.kind = .float ↔ ¬ HasTruth text vars ∧ HasFraction text vars) := by
  obtain ⟨n, ts, c, hc, hbody, heval⟩ := exists_clause_of_ok hr
  rw [heval] at hr
  obtain ⟨v, hv, -⟩ := conclude_fst_eq_ok_iff.1 hr
  have hkind := (c.hasKind_eval vars).of_ok v hv
  have hbool : v.kind = .bool ↔ HasTruth text vars :=
    (hc.kind?_eq_bool_iff hkind).trans (hasTruth_iff hbody).symm
  have hfloat : v.kind ≠ .bool → (v.kind = .float ↔ HasFraction text vars) := fun hne =>
    (hc.kind?_eq_float_iff hkind hne).trans (hasFraction_iff hbody).symm
  refine ⟨v, produced?_of_conclude (by rw [heval, hv]), hbool, ?_, ?_⟩
  · calc v.kind = .int ↔ v.kind ≠ .bool ∧ v.kind ≠ .float := by cases v.kind <;> simp
      _ ↔ v.kind ≠ .bool ∧ ¬ HasFraction text vars :=
        and_congr_right fun hne => not_congr (hfloat hne)
      _ ↔ ¬ HasTruth text vars ∧ ¬ HasFraction text vars := and_congr_left' (not_congr hbool)
  · calc v.kind = .float ↔ v.kind ≠ .bool ∧ v.kind = .float := by cases v.kind <;> simp
      _ ↔ v.kind ≠ .bool ∧ HasFraction text vars := and_congr_right hfloat
      _ ↔ ¬ HasTruth text vars ∧ HasFraction text vars := and_congr_left' (not_congr hbool)

/-- **Kinds are static**: over tables in which the names that are read have the same kinds, a
statement that succeeds twice comes to values of the same kind, shown or stored, and if a
truth value stands in a wrong place over one table, then the statement does not succeed over
the other one. The value is a truth value exactly if the statement compares, or names a truth
value and nothing else; any other value is a double if a function, a literal with a point or
the name of a double stands in the body, and an integer if not. -/
theorem evaluate_kinds (text : String) :
    (∀ vars vars', (∀ name ∈ readNames text, vars.kind? name = vars'.kind? name) →
        (∀ r r', (evaluate text vars).1 = .ok r → (evaluate text vars').1 = .ok r' →
          r.isSome = r'.isSome ∧
            ∃ v v', produced? text vars = some v ∧ produced? text vars' = some v' ∧
              v.kind = v'.kind) ∧
          ∀ e, (evaluate text vars).1 = .error e → e.kind = .type →
            ∀ r', (evaluate text vars').1 ≠ .ok r') ∧
      ∀ vars r, (evaluate text vars).1 = .ok r →
        ∃ v, produced? text vars = some v ∧
          (v.kind = .bool ↔ HasTruth text vars) ∧
          (v.kind = .int ↔ ¬ HasTruth text vars ∧ ¬ HasFraction text vars) ∧
          (v.kind = .float ↔ ¬ HasTruth text vars ∧ HasFraction text vars) := by
  refine ⟨fun vars vars' h => ⟨fun r r' => kind_eq_of_ok h, ?_⟩, fun vars r => exists_kind_of_ok⟩
  intro e he htype r'
  exact ne_ok_of_type_error h he htype

/-- What is stored counts, and not what the name had before. -/
example : produced? "x = 1 + 2" (.set .empty "x" (.bool true)) = some (.int 3) := by
  with_unfolding_all rfl

end Reckon
