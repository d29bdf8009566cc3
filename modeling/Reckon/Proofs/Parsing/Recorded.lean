import Reckon.Proofs.Lexer.Runs
import Reckon.Proofs.Parsing.Simulation
import Reckon.Proofs.Parsing.Trail

/-!
What rules ask the lexer for, and what they use up.

A lexer is known by the operations that it was asked for, since they lead to
it from the start of the text. So a source may consist of the text and of these
operations, and a rule that is run on it leaves behind a record of all that it
asked for. The record shows that no rule asks for anything behind the end of a
text, and that it asks once for each token that it goes past.

* `Recorded`: a text with the operations that its lexer was asked for;
* `simulation_recorded`: on such a source, rules read as on the lexer itself;
* `Reader.Sees.requests_eq`: what is asked for on the way past some tokens;
* `Reader.LeadsTo` and `Reader.StopsAt`: one place is behind another, or
  reading stops behind it, and the end was not gone past;
* `Outcome.Progresses`: going past tokens other than the end, one call for
  each, and past at least one if a value is read;
* `progresses_ruleOf` and `progresses_turn`: the main statements, for the
  rules of expressions and for the turns of their loops. The invariant is
  `contract_leadsTo`.
-/

namespace Reckon

/-! ### Lexers that are known by their record -/

/-- A text, and what its lexer was asked for. -/
structure Recorded where
  text : String
  /-- The operations since the start, in order. -/
  requests : List Lexer.Operation

namespace Recorded

/-- The record of a text of which nothing was read yet. -/
def ofText (text : String) : Recorded := ⟨text, []⟩

/-- The lexer that the operations lead to. -/
def lexer (r : Recorded) : Lexer := (Lexer.ofText r.text).run r.requests

/-- The record with one more operation. -/
def ask (r : Recorded) (op : Lexer.Operation) : Recorded :=
  { r with requests := r.requests ++ [op] }

lemma lexer_ask (r : Recorded) (op : Lexer.Operation) : (r.ask op).lexer = r.lexer.perform op :=
  Lexer.run_append (Lexer.ofText r.text) r.requests [op]

instance : RereadableSource Recorded where
  next r := (r.lexer.next.1, r.ask .next)
  left r := TokenSource.left r.lexer
  left_of_end r h := by
    rw [lexer_ask]
    exact TokenSource.left_of_end r.lexer h
  left_of_not_end r h := by
    rw [lexer_ask]
    exact TokenSource.left_of_not_end r.lexer h
  reset r := r.ask .reset

/-- The tokens and faults of a record are those that its lexer did not hand out yet. -/
lemma outcomes_eq (r : Recorded) : TokenSource.outcomes r = Lexer.outcomes r.lexer.rest := by
  have hnext : ∀ src : Recorded, TokenSource.next src.lexer =
      ((TokenSource.next src).1, (TokenSource.next src).2.lexer) := fun src =>
    Prod.ext rfl (lexer_ask src .next).symm
  rw [← TokenSource.outcomes_map hnext, Lexer.outcomes_eq]

lemma outcomes_ofText (text : String) :
    TokenSource.outcomes (ofText text) = Lexer.outcomes text.toList := outcomes_eq (ofText text)

/-- Read again, a text has all of its tokens and faults. -/
lemma outcomes_reset (r : Recorded) :
    TokenSource.outcomes (RereadableSource.reset r) = Lexer.outcomes r.text.toList := by
  have htext : r.lexer.text = r.text.toList := Lexer.text_run (Lexer.ofText r.text) r.requests
  have hreset : (r.ask .reset).lexer.rest = r.text.toList := by
    rw [lexer_ask]
    exact htext
  rw [← hreset]
  exact outcomes_eq (r.ask .reset)

end Recorded

/-! ### Places in a record -/

/-- The same place in the text itself. -/
def Reader.unrecorded (s : Reader Recorded) : Reader Lexer :=
  ⟨⟨s.current, s.source.lexer⟩, s.vars⟩

/-- The lexer hands out the same, and one more operation is recorded. -/
lemma Reader.related_read_recorded (s : Reader Recorded) (r : Recorded) :
    (s.unrecorded.read r.lexer).Related (fun m t => t.unrecorded = m) (s.read r) := by
  have hrecord : (r.ask .next).lexer = (TokenSource.next r.lexer).2 := r.lexer_ask .next
  have hnext : TokenSource.next r = ((TokenSource.next r.lexer).1, r.ask .next) := rfl
  rw [read, read, hnext]
  rcases hlexer : TokenSource.next r.lexer with ⟨fault | tok, rest⟩
  · exact .failed _ _ _
  · rw [hlexer] at hrecord
    exact .done () (congrArg (fun src => (⟨⟨tok, src⟩, s.vars⟩ : Reader Lexer)) hrecord)

/-- A record starts where its lexer does. -/
lemma Reader.start_lexer (r : Recorded) (vars : Variables) :
    start r.lexer vars = (start r vars).map unrecorded := by
  have hrecord : (r.ask .next).lexer = (TokenSource.next r.lexer).2 := r.lexer_ask .next
  have hnext : TokenSource.next r = ((TokenSource.next r.lexer).1, r.ask .next) := rfl
  rw [start, start, Cursor.start, Cursor.start, hnext]
  rcases hlexer : TokenSource.next r.lexer with ⟨fault | tok, rest⟩
  · rfl
  · rw [hlexer] at hrecord
    exact congrArg (fun src => Except.ok (⟨⟨tok, src⟩, vars⟩ : Reader Lexer)) hrecord.symm

/-- **The record changes nothing** of what rules read. -/
lemma simulation_recorded :
    Simulation fun (s : Reader Lexer) (t : Reader Recorded) => t.unrecorded = s where
  current h := by
    subst h
    rfl
  get h _ := by
    subst h
    rfl
  advance {s t} h _ := by
    subst h
    exact t.related_read_recorded t.source

namespace Reader

variable {s t stop : Reader Recorded} {r : Recorded} {vars : Variables} {ts : List Token}
  {last : Except LexError Token}

lemma source_of_start (h : start r vars = .ok s) : s.source = r.ask .next := by
  have hnext : (_, r.ask .next) = (Except.ok s.current, s.source) := (start_eq_ok_iff.1 h).1
  exact (congrArg Prod.snd hnext).symm

lemma source_of_advance (h : s.advance = .done () t) : t.source = s.source.ask .next :=
  source_of_start (start_of_advance h)

lemma source_of_advance_failed {e : Error} (h : s.advance = .failed e stop) :
    stop.source = s.source.ask .next := by
  obtain ⟨fault, -, rfl, -⟩ := exists_fault_of_advance h
  have hnext : (_, s.source.ask .next) = (Except.error fault, stop.source) :=
    next_of_advance_failed h
  exact (congrArg Prod.snd hnext).symm

/-- **The way past some tokens** takes one call for each of them. -/
lemma Sees.requests_eq (h : s.Sees ts last stop) :
    stop.source.requests = s.source.requests ++ List.replicate ts.length .next := by
  induction h with
  | token s => exact (List.append_nil _).symm
  | fault h =>
      rw [source_of_advance_failed h]
      rfl
  | pass hst rest ih =>
      rw [ih, source_of_advance hst, List.length_cons, List.replicate_succ, Recorded.ask,
        List.append_assoc]
      rfl

end Reader

/-! ### What is gone past -/

namespace Reader

section Source

variable {σ : Type} [TokenSource σ]

/-- Past tokens other than the end, the first place leads to the second. -/
def LeadsTo (s t : Reader σ) : Prop := ∃ ts, s.Reads ts t ∧ Token.eof ∉ ts

/-- Past tokens other than the end, the first place leads to where reading stops, in front of a
token or behind a fault. -/
def StopsAt (s stop : Reader σ) : Prop := ∃ ts last, s.Sees ts last stop ∧ Token.eof ∉ ts

variable {s t : Reader σ}

@[refl] lemma LeadsTo.refl (s : Reader σ) : s.LeadsTo s := ⟨[], rfl, List.not_mem_nil⟩

lemma LeadsTo.stopsAt (h : s.LeadsTo t) : s.StopsAt t := by
  obtain ⟨ts, hst, heof⟩ := h
  exact ⟨ts, _, sees_ok_iff.2 ⟨hst, rfl⟩, heof⟩

/-- One more token that is not the end. -/
lemma LeadsTo.advance (h : s.LeadsTo t) (ht : t.current ≠ .eof) :
    t.advance.Ends s.LeadsTo fun _ => s.StopsAt := by
  obtain ⟨ts, hst, heof⟩ := h
  have hmore : Token.eof ∉ ts ++ [t.current] := by simp [heof, ht.symm]
  cases hadvance : t.advance with
  | done _ u => exact ⟨ts ++ [t.current], reads_append_iff.2 ⟨t, hst, rfl, u, hadvance, rfl⟩, hmore⟩
  | failed e stop =>
      obtain ⟨fault, -, rfl, -⟩ := exists_fault_of_advance hadvance
      exact ⟨ts ++ [t.current], .error fault, hst.sees (.fault hadvance), hmore⟩

/-- What is gone past comes first in what is upcoming. -/
lemma Sees.prefix_upcoming {stop : Reader σ} {ts : List Token} {last : Except LexError Token}
    (h : s.Sees ts last stop) (heof : Token.eof ∉ ts) : ts.map .ok <+: s.upcoming := by
  induction h with
  | token s => exact List.nil_prefix
  | @fault s stop fault h =>
      have hs : s.current ≠ .eof := fun hs => heof (by simp [hs])
      rw [upcoming_of_ne_eof hs]
      exact List.prefix_append [Except.ok s.current] _
  | @pass s t stop ts last hst rest ih =>
      have hs : s.current ≠ .eof := fun hs => heof (by simp [hs])
      rw [upcoming_of_advance hs hst, List.map_cons, List.cons_prefix_cons]
      exact ⟨rfl, ih fun hmem => heof (List.mem_cons_of_mem _ hmem)⟩

end Source

end Reader

open Reader

/-- **Every token is gone past in turn**, and never the end. -/
lemma contract_leadsTo {σ : Type} [TokenSource σ] (s : Reader σ) :
    Contract s.LeadsTo fun _ => s.StopsAt where
  advance hs heof _ _ := hs.advance heof
  undefined hs _ := hs.stopsAt
  misplaced hs _ := hs.stopsAt
  computed hs _ := hs.stopsAt
  parenthesis hs hc := hs.advance (by rcases hc with hc | hc <;> simp [hc])
  nested hs _ := hs.stopsAt

/-! ### Progress -/

variable {α : Type}

/-- The place is where reading from `s` ends: only tokens other than the end were gone past, and
for each of them the lexer was asked once. If a value was read, then less is upcoming. -/
structure Outcome.Progresses (s : Reader Recorded) (o : Outcome Recorded α) : Prop where
  passes : ∃ ts last, s.Sees ts last o.place ∧ Token.eof ∉ ts ∧
    o.place.source.requests = s.source.requests ++ List.replicate ts.length .next
  shortens : ∀ v t, o = .done v t → t.upcoming.length < s.upcoming.length

/-- Of the tokens between two places none is upcoming any more, and there are some if the rest is
shorter. -/
lemma Reader.LeadsTo.length_upcoming_lt {σ : Type} [TokenSource σ] {s t : Reader σ}
    (h : s.LeadsTo t) (hshort : t.remaining < s.remaining) :
    t.upcoming.length < s.upcoming.length := by
  obtain ⟨ts, hst, heof⟩ := h
  -- Past no tokens, the rest would be as long as before.
  have hne : ts ≠ [] := by
    rintro rfl
    rw [reads_nil.1 hst] at hshort
    exact Nat.lt_irrefl _ hshort
  have hpos : 0 < ts.length := List.length_pos_iff.2 hne
  rw [upcoming_of_reads hst heof, List.length_append, List.length_map]
  omega

/-- Wherever a value or an error is found, reading stops there. -/
lemma Outcome.Ends.stopsAt {σ : Type} [TokenSource σ] {s : Reader σ} {o : Outcome σ α}
    (h : o.Ends s.LeadsTo fun _ => s.StopsAt) : s.StopsAt o.place :=
  h.place (fun _ ht => ht.stopsAt) fun _ _ hstop => hstop

/-- Whatever ends behind tokens other than the end, and shortens the rest, makes progress. -/
lemma Outcome.Ends.progresses {s : Reader Recorded} {o : Outcome Recorded α}
    (h : o.Ends s.LeadsTo fun _ => s.StopsAt)
    (hshort : ∀ v t, o = .done v t → t.remaining < s.remaining) : o.Progresses s where
  passes := by
    obtain ⟨ts, last, hsees, heof⟩ := h.stopsAt
    exact ⟨ts, last, hsees, heof, hsees.requests_eq⟩
  shortens v t ho := by
    rw [ho] at h
    have ht : s.LeadsTo t := h
    exact ht.length_upcoming_lt (hshort v t ho)

lemma Contract.ruleOf {σ : Type} [TokenSource σ] [FloatFunctions] {P : Reader σ → Prop}
    {E : Error → Reader σ → Prop} (h : Contract P E) (depth : Nat) (level : Level) :
    (Parsing.ruleOf depth level : Rule σ Value).Ensures P E := by
  cases level with
  | factor => exact h.factor depth
  | application => exact h.application (h.factor depth)
  | term =>
      exact h.chain Token.exists_arith_of_multiplicative? (h.application (h.factor depth))
  | expression => exact h.expression depth

lemma Simulation.ruleOf {σ τ : Type} [TokenSource σ] [TokenSource τ] [FloatFunctions]
    {R : Reader σ → Reader τ → Prop} (hR : Simulation R) (depth : Nat) (level : Level) :
    (Parsing.ruleOf depth level : Rule σ Value).Simulates R (Parsing.ruleOf depth level) := by
  cases level with
  | factor => exact hR.factor depth
  | application => exact hR.application (hR.factor depth)
  | term => exact hR.chain rfl (hR.application (hR.factor depth))
  | expression => exact hR.expression depth

namespace Parsing

variable {level : Level} {left : Value} {s : Reader Recorded} {o : Outcome Recorded Value}

lemma exists_arith_of_operator? {tok : Token} {op : ArithOp} (h : level.operator? tok = some op) :
    ∃ op', tok = .arith op' := by
  cases level with
  | factor | application => cases h
  | term => exact Token.exists_arith_of_multiplicative? h
  | expression => exact Token.exists_arith_of_additive? h

variable [FloatFunctions]

/-- **Every rule makes progress**, wherever it is run, and however it ends. -/
theorem progresses_ruleOf (depth : Nat) (level : Level) (s : Reader Recorded) :
    ((ruleOf depth level).run s).Progresses s := by
  have hends : ((ruleOf depth level).run s).Ends s.LeadsTo fun _ => s.StopsAt :=
    (contract_leadsTo s).ruleOf depth level (.refl s)
  exact hends.progresses fun v t hrun => (ruleOf depth level).shortens hrun

/-- **Every turn of a loop makes progress**, so none goes on for ever. -/
theorem progresses_turn (depth : Nat)
    (h : Rule.turn level.operator? (ruleOf depth level.operand) left s = some o) :
    o.Progresses s := by
  have hends : o.Ends s.LeadsTo fun _ => s.StopsAt :=
    (contract_leadsTo s).turn exists_arith_of_operator?
      ((contract_leadsTo s).ruleOf depth level.operand) (.refl s) h
  exact hends.progresses fun v t ho => Rule.remaining_lt_of_turn (ho ▸ h)

end Parsing

end Reckon
