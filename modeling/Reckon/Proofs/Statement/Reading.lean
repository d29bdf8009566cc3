import Reckon.Proofs.Parsing.Completeness
import Reckon.Proofs.Parsing.Frame
import Reckon.Proofs.Parsing.Soundness

/-!
The rule for statements, from the start of a text to its end.

Only the second token tells an assignment from anything else. If it is no
assignment sign, then the text is read again, so the clause is read from the
place where the statement starts, as if the second token had not been
looked at.

* `Reader.rescan_of_start`: reading again leads to where the text starts;
* `statement_of_assign`, `statement_of_rescan`, `statement_of_ne_ident` and
  `statement_of_fault`: what the rule for statements does at any source;
* `statement_of_ident`: what the second of them means for a text, and
  `statement_cases`, that nothing else happens;
* `eq_of_statement_done`: how it succeeds, as a clause or as an assignment;
* `vars_of_statement_failed`: where it fails, the table is what it was.
-/

namespace Reckon

open Parsing

/-! ### Places in a text -/

namespace Reader

variable {text : String} {vars : Variables} {s t : Reader Lexer}

/-- Going to the next token stays in the text. -/
lemma text_of_advance (h : s.advance = .done () t) : t.source.text = s.source.text := by
  have hnext : Lexer.next s.source = (.ok t.current, t.source) := (read_eq_done_iff.1 h).1
  have hsnd : (Lexer.next s.source).2 = t.source := by rw [hnext]
  rw [← hsnd, Lexer.next_snd]

lemma text_of_start (h : start (Lexer.ofText text) vars = .ok s) :
    s.source.text = text.toList := by
  have hnext : Lexer.next (Lexer.ofText text) = (.ok s.current, s.source) :=
    (start_eq_ok_iff.1 h).1
  have hsnd : (Lexer.next (Lexer.ofText text)).2 = s.source := by rw [hnext]
  rw [← hsnd, Lexer.next_snd]
  rfl

/-- Reading a text again leads to the place where it starts. -/
lemma rescan_of_start (hs : start (Lexer.ofText text) vars = .ok s)
    (hst : s.advance = .done () t) : t.rescan = .done () s := by
  have hreset : RereadableSource.reset t.source = Lexer.ofText text := by
    show Lexer.reset t.source = _
    rw [Lexer.reset, text_of_advance hst, text_of_start hs]
    rfl
  rw [rescan, hreset]
  exact read_eq_done_iff.2 ⟨(start_eq_ok_iff.1 hs).1, (vars_of_advance hst).symm⟩

/-- What is upcoming where a text starts are its tokens and faults. -/
lemma upcoming_of_start (h : start (Lexer.ofText text) vars = .ok s) :
    s.upcoming = Lexer.outcomes text.toList := by
  rw [← outcomes_of_start h, Lexer.outcomes_eq]
  rfl

/-- A text without faults has a place where it starts. -/
lemma exists_start {ts : List Token} (h : Lexer.outcomes text.toList = ts.map .ok)
    (vars : Variables) : ∃ s, start (Lexer.ofText text) vars = .ok s := by
  rcases start_cases (Lexer.ofText text) vars with ⟨fault, rest, -, hfault⟩ | ⟨s, hs, -⟩
  · have hfault' : ts.map .ok = .error fault :: rest :=
      h.symm.trans ((Lexer.outcomes_eq (Lexer.ofText text)).symm.trans hfault)
    cases ts <;> cases hfault'
  · exact ⟨s, hs⟩

end Reader

/-! ### The rule for statements -/

section Source

variable {σ : Type} [RereadableSource σ] {s t : Reader σ} {name : String}

omit [RereadableSource σ] in
/-- What is stored is not shown. -/
lemma result_bind_store (o : Outcome σ Value) (name : String) :
    (o.bind fun v w => .done (none : Option Value) (w.store name v)).result =
      o.result.map fun _ => none := by
  cases o <;> rfl

omit [RereadableSource σ] in
/-- Storing reads nothing. -/
lemma source_bind_store (o : Outcome σ Value) (name : String) :
    (o.bind fun v w => .done (none : Option Value) (w.store name v)).place.source =
      o.place.source := by
  cases o <;> rfl

variable [FloatFunctions]

/-- A name and an assignment sign: the value of the clause after them is stored. -/
lemma statement_of_assign (hs : s.current = .ident name) (hst : s.advance = .done () t)
    (ht : t.current = .assign) :
    statement s = t.advance.bind fun _ u =>
      (comparison u).bind fun v w => .done none (w.store name v) := by
  simp only [statement, hs, hst, Outcome.bind_done, ht, if_true]

/-- The clause behind an assignment sign, and storing its value. -/
lemma statement_of_assign_eq_bind (hs : s.current = .ident name) (hst : s.advance = .done () t)
    (ht : t.current = .assign) :
    statement s = (t.advance.bind fun _ u => comparison u).bind
      fun v w => .done none (w.store name v) := by
  rw [statement_of_assign hs hst ht]
  cases t.advance <;> rfl

/-- A name without an assignment sign: the clause is read from where the source starts. -/
lemma statement_of_rescan {u : Reader σ} (hs : s.current = .ident name)
    (hst : s.advance = .done () t) (ht : t.current ≠ .assign) (htu : t.rescan = .done () u) :
    statement s = (comparison u).map some := by
  simp only [statement, hs, hst, Outcome.bind_done, if_neg ht, htu]

/-- Without a name at the start there is no assignment. -/
lemma statement_of_ne_ident (hs : ∀ name, s.current ≠ .ident name) :
    statement s = (comparison s).map some := by
  rw [statement.eq_def]
  cases hc : s.current with
  | ident name => exact absurd hc (hs name)
  | _ => rfl

/-- A fault in the place of the second token is found before the name is looked up. -/
lemma statement_of_fault {e : Error} (hs : s.current = .ident name)
    (hst : s.advance = .failed e t) : statement s = .failed e t := by
  simp only [statement, hs, hst, Outcome.bind_failed]

end Source

variable [FloatFunctions] {text : String} {vars : Variables} {s t u : Reader Lexer} {name : String}

/-- A name without an assignment sign: the clause is read from the start. -/
lemma statement_of_ident (hstart : Reader.start (Lexer.ofText text) vars = .ok s)
    (hs : s.current = .ident name) (hst : s.advance = .done () t) (ht : t.current ≠ .assign) :
    statement s = (comparison s).map some :=
  statement_of_rescan hs hst ht (Reader.rescan_of_start hstart hst)

/-- What starts where the text starts is an assignment, or a clause, or there is a fault in
the place of the second token. -/
lemma statement_cases (hstart : Reader.start (Lexer.ofText text) vars = .ok s) :
    statement s = (comparison s).map some ∨
      (∃ name e t, s.current = .ident name ∧ s.advance = .failed e t ∧
        statement s = .failed e t) ∨
      ∃ name t, s.current = .ident name ∧ s.advance = .done () t ∧ t.current = .assign ∧
        statement s = t.advance.bind fun _ u =>
          (comparison u).bind fun v w => .done none (w.store name v) := by
  by_cases hident : ∃ name, s.current = .ident name
  · obtain ⟨name, hname⟩ := hident
    cases hst : s.advance with
    | failed e t =>
        exact .inr (.inl ⟨name, e, t, hname, rfl, statement_of_fault hname hst⟩)
    | done _ t =>
        by_cases hassign : t.current = .assign
        · have hstatement : statement s = _ := statement_of_assign hname hst hassign
          exact .inr (.inr ⟨name, t, hname, rfl, hassign, hstatement⟩)
        · exact .inl (statement_of_ident hstart hname hst hassign)
  · exact .inl (statement_of_ne_ident fun name hname => hident ⟨name, hname⟩)

/-- **Success**: a statement succeeds as a clause that is shown, or as an assignment, which
stores the value of its clause. -/
theorem eq_of_statement_done (hstart : Reader.start (Lexer.ofText text) vars = .ok s)
    {r : Option Value} (h : statement s = .done r u) :
    (∃ v, comparison s = .done v u ∧ r = some v) ∨
      ∃ name t t' v w, s.current = .ident name ∧ s.advance = .done () t ∧
        t.current = .assign ∧ t.advance = .done () t' ∧ comparison t' = .done v w ∧
        r = none ∧ u = w.store name v := by
  rcases statement_cases hstart with
    hs | ⟨name, e, t, -, -, hs⟩ | ⟨name, t, hname, hst, hassign, hs⟩
  · rw [hs] at h
    cases hc : comparison s with
    | failed e stop => rw [hc] at h; cases h
    | done v w =>
        rw [hc] at h
        cases h
        exact .inl ⟨v, rfl, rfl⟩
  · rw [hs] at h
    cases h
  · rw [hs] at h
    obtain ⟨_, t', htt', h⟩ := Outcome.bind_eq_done_iff.1 h
    obtain ⟨v, w, ht'w, h⟩ := Outcome.bind_eq_done_iff.1 h
    cases h
    exact .inr ⟨name, t, t', v, w, hname, hst, hassign, htt', ht'w, rfl, rfl⟩

/-- **Failure**: a statement that fails leaves the table as it is, also if it was read from
another source. -/
theorem vars_of_statement_failed {σ : Type} [RereadableSource σ] {src : σ} {s u : Reader σ}
    (hstart : Reader.start src vars = .ok s) {e : Error} (h : statement s = .failed e u) :
    u.vars = vars := by
  have hkeeps : u.vars = s.vars :=
    vars_of_statementWith_failed ((contract_vars s.vars).expression maxNesting)
      ((statement_eq s).symm.trans h)
  exact hkeeps.trans (Reader.vars_of_start hstart)

end Reckon
