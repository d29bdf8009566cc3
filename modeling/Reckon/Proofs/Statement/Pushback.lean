import Reckon.Proofs.Parsing.Simulation
import Reckon.Proofs.Statement.Evaluation

/-!
One token handed back instead of a second reading.

Only the second token tells an assignment from anything else. Where it is
no assignment sign, the rule for statements reads the text again from its
start. With a source that takes one token back it need not do so: the first
token is made the current one again, and the second one is handed back, to
come next. The rule over such a source goes through the text only once, and
has no way to start again.

* `Pushback`: a source to which one token can be handed back, with its
  outcomes `Pushback.outcomes_of` and `Pushback.outcomes_returned`;
* `Parsing.statementOnce` and `evaluateOnce`: the rule for statements and
  the evaluation of a text that hand the second token back;
* `evaluateOnce_eq_evaluate`: the main statement, that nobody notices.
-/

namespace Reckon

/-! ### Sources that take a token back -/

/-- A source to which one token can be handed back. -/
structure Pushback (σ : Type) where
  /-- The token that was handed back and is not read again yet. -/
  returned : Option Token
  source : σ

namespace Pushback

variable {σ : Type} [TokenSource σ]

/-- A source to which nothing was handed back. -/
def of (src : σ) : Pushback σ := ⟨none, src⟩

/-- A token that was handed back comes next, and only then the source goes on. The end is
never used up, also if it was handed back. -/
def next (p : Pushback σ) : Except LexError Token × Pushback σ :=
  match p.returned with
  | none => ((TokenSource.next p.source).1, of (TokenSource.next p.source).2)
  | some tok => if tok = .eof then (.ok tok, p) else (.ok tok, of p.source)

/-- The number of tokens and faults before the end. -/
def left (p : Pushback σ) : Nat :=
  match p.returned with
  | none => TokenSource.left p.source
  | some tok => if tok = .eof then 0 else TokenSource.left p.source + 1

/-- With a token that was handed back, a source is a source of tokens. -/
instance : TokenSource (Pushback σ) where
  next := next
  left := left
  left_of_end p h := by
    obtain ⟨_ | tok, src⟩ := p
    · exact TokenSource.left_of_end src h
    · by_cases htok : tok = .eof <;> simp_all [next, left]
  left_of_not_end p h := by
    obtain ⟨_ | tok, src⟩ := p
    · exact TokenSource.left_of_not_end src h
    · by_cases htok : tok = .eof <;> simp_all [next, left, of]

/-- A source to which nothing was handed back has the tokens and faults that it had. -/
lemma outcomes_of (src : σ) : TokenSource.outcomes (of src) = TokenSource.outcomes src :=
  TokenSource.outcomes_map (f := of) (fun _ => rfl) src

/-- A token that was handed back comes first, and if it is the end, nothing comes. -/
lemma outcomes_returned (tok : Token) (src : σ) :
    TokenSource.outcomes (⟨some tok, src⟩ : Pushback σ) =
      if tok = .eof then [] else .ok tok :: TokenSource.outcomes src := by
  by_cases htok : tok = .eof
  · have hend : (TokenSource.next (⟨some tok, src⟩ : Pushback σ)).1 = .ok .eof := by
      simp [TokenSource.next, next, htok]
    rw [TokenSource.outcomes_of_end hend, if_pos htok]
  · have hnext : TokenSource.next (⟨some tok, src⟩ : Pushback σ) = (.ok tok, of src) := if_neg htok
    have hend : (TokenSource.next (⟨some tok, src⟩ : Pushback σ)).1 ≠ .ok .eof := by
      simp [hnext, htok]
    rw [TokenSource.outcomes_of_not_end hend, if_neg htok, hnext, outcomes_of]

end Pushback

/-- Makes `tok` the current token again, and hands the token after it back. -/
def Reader.handBack {σ : Type} (s : Reader (Pushback σ)) (tok : Token) : Reader (Pushback σ) :=
  { s with current := tok, source := ⟨some s.current, s.source.source⟩ }

namespace Parsing

/-- An assignment, or a comparison, to which the second token is handed back after it was
looked at. -/
def statementOnce {σ : Type} [TokenSource σ] [FloatFunctions] (s : Reader (Pushback σ)) :
    Outcome (Pushback σ) (Option Value) :=
  match s.current with
  | .ident name =>
      s.advance.bind fun _ t =>
        if t.current = .assign then
          t.advance.bind fun _ u => (comparison u).bind fun v w => .done none (w.store name v)
        else
          (comparison (t.handBack (.ident name))).map some
  | _ => (comparison s).map some

end Parsing

/-- What the statement in a text shows, and the table after it, if the text is read only
once. -/
def evaluateOnce [FloatFunctions] (text : String) (vars : Variables) :
    Except Error (Option Value) × Variables :=
  match Reader.start (Pushback.of (Lexer.ofText text)) vars with
  | .error e => (.error (.lexical e), vars)
  | .ok s =>
      let outcome := Parsing.statementOnce s
      (outcome.result, outcome.place.vars)

open Parsing

variable {text : String} {vars : Variables}

/-! ### The rule that goes through the text once -/

section Once

variable {s t u : Reader (Pushback Lexer)} {name : String}

/-- As long as nothing is handed back, nothing waits to be read again. -/
lemma returned_of_advance (hs : s.source.returned = none) (hst : s.advance = .done () t) :
    t.source.returned = none := by
  have hnext : TokenSource.next s.source = (.ok t.current, t.source) :=
    (Reader.read_eq_done_iff.1 hst).1
  have hsource : (TokenSource.next s.source).2 = t.source := by rw [hnext]
  rw [← hsource]
  show (Pushback.next s.source).2.returned = none
  rw [Pushback.next, hs]
  rfl

lemma returned_of_start
    (hs : Reader.start (Pushback.of (Lexer.ofText text)) vars = .ok s) :
    s.source.returned = none := by
  have hnext : TokenSource.next (Pushback.of (Lexer.ofText text)) = (.ok s.current, s.source) :=
    (Reader.start_eq_ok_iff.1 hs).1
  have hsource : (TokenSource.next (Pushback.of (Lexer.ofText text))).2 = s.source := by rw [hnext]
  rw [← hsource]
  rfl

/-- Where the second token was handed back, the same is upcoming as from the first token. -/
lemma upcoming_handBack (hs : s.current = .ident name) (hst : s.advance = .done () t)
    (ht : t.source.returned = none) : (t.handBack (.ident name)).upcoming = s.upcoming := by
  have hname : s.Reads [.ident name] t := ⟨hs, t, hst, rfl⟩
  have hsource : Pushback.of t.source.source = t.source := by rw [Pushback.of, ← ht]
  have hreturned : TokenSource.outcomes (t.handBack (.ident name)).source = t.upcoming := by
    show TokenSource.outcomes (⟨some t.current, t.source.source⟩ : Pushback Lexer) = _
    rw [Pushback.outcomes_returned, ← Pushback.outcomes_of, hsource, Reader.upcoming]
  rw [Reader.upcoming_of_ne_eof (by simp [Reader.handBack]), hreturned,
    Reader.upcoming_of_reads hname (by simp)]
  rfl

variable [FloatFunctions]

/-- A statement that fails leaves the table as it is, also if the second token was handed
back. -/
lemma vars_of_statementOnce_failed (hvars : s.vars = vars) {e : Error}
    (h : statementOnce s = .failed e u) : u.vars = vars := by
  have hclause : ∀ {m : Reader (Pushback Lexer)}, m.vars = vars →
      (comparison m).map some = .failed e u → u.vars = vars := fun hm hu =>
    ((keeps_comparison hm).map some).vars_of_failed hu
  rw [statementOnce.eq_def] at h
  split at h
  case h_1 name hs =>
    rcases Outcome.bind_eq_failed h with hfailed | ⟨_, t, hst, h⟩
    · exact (Reader.keeps_advance hvars).vars_of_failed hfailed
    · have ht : t.vars = vars := (Reader.keeps_advance hvars).vars_of_done hst
      split_ifs at h with hassign
      · rcases Outcome.bind_eq_failed h with hfailed | ⟨_, m, htm, h⟩
        · exact (Reader.keeps_advance ht).vars_of_failed hfailed
        · have hm : m.vars = vars := (Reader.keeps_advance ht).vars_of_done htm
          rcases Outcome.bind_eq_failed h with hfailed | ⟨v, w, -, hdone⟩
          · exact (keeps_comparison hm).vars_of_failed hfailed
          · cases hdone
      · have hback : (t.handBack (.ident name)).vars = vars := ht
        exact hclause hback h
  case h_2 => exact hclause hvars h

/-- From the start of a text, it makes no difference whether the second token is handed back
or the text is read again. -/
lemma related_statementOnce {m : Reader Lexer} (h : Alike vars vars s m)
    (hs : Reader.start (Pushback.of (Lexer.ofText text)) vars = .ok s)
    (hm : Reader.start (Lexer.ofText text) vars = .ok m) :
    (statementOnce s).Related (fun u u' => u.vars = u'.vars) (statement m) := by
  have hcurrent : s.current = m.current := h.current_eq
  have hclause : ∀ {t : Reader (Pushback Lexer)}, Alike vars vars t m →
      ((comparison t).map some).Related (fun u u' => u.vars = u'.vars)
        ((comparison m).map some) := fun ht =>
    ht.clause.mono fun u u' hu => hu.1.trans hu.2.symm
  by_cases hident : ∃ name, s.current = .ident name
  · obtain ⟨name, hname⟩ := hident
    have hname' : m.current = .ident name := hcurrent.symm.trans hname
    rw [statementOnce, hname]
    dsimp only
    rcases (h.advance (by simp [hname])).eq_done_or_failed with
      ⟨_, t, n, hst, hmn, halike⟩ | ⟨e, t, n, hst, hmn⟩
    · rw [hst, Outcome.bind_done]
      by_cases hassign : t.current = .assign
      · have hassign' : n.current = .assign := halike.current_eq.symm.trans hassign
        rw [if_pos hassign, statement_of_assign hname' hmn hassign']
        refine (halike.assignment hassign name).mono fun u u' hu => ?_
        obtain ⟨v, hv, hv'⟩ := hu
        exact hv.trans hv'.symm
      · have hassign' : n.current ≠ .assign := halike.current_eq ▸ hassign
        have hreturned : t.source.returned = none := returned_of_advance (returned_of_start hs) hst
        have hupcoming : (t.handBack (.ident name)).upcoming = m.upcoming :=
          (upcoming_handBack hname hst hreturned).trans h.upcoming_eq
        rw [if_neg hassign, statement_of_ident hm hname' hmn hassign']
        exact hclause ⟨hupcoming, halike.vars_left, h.vars_right, fun _ _ => rfl⟩
    · rw [hst, statement_of_fault hname' hmn]
      exact .failed e t n
  · have hident' : ∀ name, m.current ≠ .ident name := fun name hname =>
      hident ⟨name, hcurrent.trans hname⟩
    have honce : statementOnce s = (comparison s).map some := by
      rw [statementOnce.eq_def]
      split
      case h_1 name hname => exact absurd ⟨name, hname⟩ hident
      case h_2 => rfl
    rw [honce, statement_of_ne_ident hident']
    exact hclause h

end Once

/-- **Handing a token back is as good as reading again**: whatever the text and the table,
the statement in the text comes to the same value or the same error, and leaves the same
table, whether its second token is handed back or its text is read again. -/
theorem evaluateOnce_eq_evaluate [FloatFunctions] (text : String) (vars : Variables) :
    evaluateOnce text vars = evaluate text vars := by
  have houtcomes : TokenSource.outcomes (Pushback.of (Lexer.ofText text)) =
      TokenSource.outcomes (Lexer.ofText text) := Pushback.outcomes_of _
  rcases Alike.start_cases houtcomes fun _ _ => rfl with ⟨e, hs, hm⟩ | ⟨s, m, hs, hm, halike⟩
  · rw [evaluateOnce, evaluate, hs, hm]
  · have hrelated := related_statementOnce halike hs hm
    rw [evaluateOnce, evaluate_of_start hm, hs]
    refine Prod.ext hrelated.result_eq ?_
    show (statementOnce s).place.vars = (statement m).place.vars
    rcases hrelated.eq_done_or_failed with ⟨r, u, u', hu, hu', hvars⟩ | ⟨e, u, u', hu, hu'⟩
    · rw [hu, hu']
      exact hvars
    · rw [hu, hu']
      exact (vars_of_statementOnce_failed halike.vars_left hu).trans
        (vars_of_statement_failed hm hu').symm

end Reckon
