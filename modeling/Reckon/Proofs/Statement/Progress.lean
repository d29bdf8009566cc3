import Reckon.Proofs.Parsing.Recorded
import Reckon.Proofs.Statement.Evaluation

/-!
Evaluation comes to an end.

Every rule and every turn of a loop goes past at least one token or fails,
and none asks for anything behind the end. So the tokens and faults of a text
bound what its lexer is asked for: once for each of them, once for the end,
and twice more if the text is read again behind a name.

* `evaluateRecorded`: evaluation with a record of what the lexer was asked
  for, and `evaluateRecorded_fst`, that the record changes nothing;
* `Requests`: the records that there are, and `requests_evaluateRecorded`,
  that there are no others;
* `Requests.count_next_le`: how many calls there are in them;
* `evaluate_progresses`: the main statement.
-/

namespace Reckon

open Parsing TokenSource

variable {text : String} {vars : Variables}

/-- What the statement in a text shows, the table after it, and what the lexer was asked for. -/
def evaluateRecorded [FloatFunctions] (text : String) (vars : Variables) :
    (Except Error (Option Value) × Variables) × List Lexer.Operation :=
  let recorded := Recorded.ofText text
  match Reader.start recorded vars with
  | .error e => ((.error (.lexical e), vars), (next recorded).2.requests)
  | .ok s =>
      let outcome := statement s
      ((outcome.result, outcome.place.vars), outcome.place.source.requests)

/-- The records of a text: some tokens from its start on are gone past, with one call for each of
them, and one more call was made for what comes behind them. A text that starts with a name may
have been read up to its second token before. -/
inductive Requests (text : String) : List Lexer.Operation → Prop
  | once {ts : List Token} (h : ts.map .ok <+: Lexer.outcomes text.toList) :
      Requests text (List.replicate (ts.length + 1) .next)
  | again {name : String} {more : List (Except LexError Token)} {ts : List Token}
      (hname : Lexer.outcomes text.toList = .ok (.ident name) :: more)
      (h : ts.map .ok <+: Lexer.outcomes text.toList) :
      Requests text ([.next, .next, .reset] ++ List.replicate (ts.length + 1) .next)

/-- **How often the lexer is called**: once for each character at most, and three times more. -/
lemma Requests.count_next_le {ops : List Lexer.Operation} (h : Requests text ops) :
    ops.count .next ≤ text.length + 3 := by
  have hle : ∀ {ts : List Token}, ts.map .ok <+: Lexer.outcomes text.toList →
      ts.length ≤ text.length := by
    intro ts hts
    calc ts.length = (ts.map (Except.ok : Token → Except LexError Token)).length :=
          (List.length_map _).symm
      _ ≤ (Lexer.outcomes text.toList).length := hts.length_le
      _ ≤ text.toList.length := Lexer.length_outcomes_le text.toList
      _ = text.length := String.length_toList
  cases h with
  | once h =>
      have hlength := hle h
      rw [List.count_replicate_self]
      omega
  | again hname h =>
      have hlength := hle h
      rw [List.count_append, List.count_replicate_self]
      show 2 + _ ≤ _
      omega

/-! ### What rules ask for -/

/-- Up to where reading stops, the lexer is asked once for each token that is gone past. -/
lemma Reader.StopsAt.exists_requests {s stop : Reader Recorded} (h : s.StopsAt stop) :
    ∃ ts : List Token, ts.map .ok <+: s.upcoming ∧
      stop.source.requests = s.source.requests ++ List.replicate ts.length .next := by
  obtain ⟨ts, last, hsees, heof⟩ := h
  exact ⟨ts, hsees.prefix_upcoming heof, hsees.requests_eq⟩

variable [FloatFunctions]

/-- A clause goes past tokens other than the end. -/
lemma ends_comparison {σ : Type} [TokenSource σ] {s t : Reader σ} (h : s.LeadsTo t) :
    (comparison t).Ends s.LeadsTo fun _ => s.StopsAt := by
  rw [comparison_eq]
  exact (contract_leadsTo s).comparisonWith ((contract_leadsTo s).expression maxNesting) h

section Start

variable {s t : Reader Recorded} {name : String}
  (hs : Reader.start (Recorded.ofText text) vars = .ok s)

include hs

omit [FloatFunctions] in
/-- A statement that reads nothing twice. -/
lemma requests_of_stopsAt {stop : Reader Recorded} (h : s.StopsAt stop) :
    Requests text stop.source.requests := by
  obtain ⟨ts, hts, hrequests⟩ := h.exists_requests
  rw [← Reader.outcomes_of_start hs, Recorded.outcomes_ofText] at hts
  rw [hrequests, Reader.source_of_start hs]
  exact .once hts

/-- A name without an assignment sign: all is read again. -/
lemma requests_of_rescan (hname : s.current = .ident name) (hst : s.advance = .done () t)
    (ht : t.current ≠ .assign) : Requests text (statement s).place.source.requests := by
  have htext : Lexer.outcomes text.toList = .ok (.ident name) :: outcomes s.source := by
    rw [← Recorded.outcomes_ofText, Reader.outcomes_of_start hs,
      Reader.upcoming_of_ne_eof (by simp [hname]), hname]
  have hsource : t.source = ((Recorded.ofText text).ask .next).ask .next := by
    rw [Reader.source_of_advance hst, Reader.source_of_start hs]
  have hreset : outcomes (RereadableSource.reset t.source) = Lexer.outcomes text.toList := by
    rw [Recorded.outcomes_reset, hsource]
    rfl
  -- Behind the reset the text starts once more, with a name, so reading it again succeeds.
  obtain ⟨u, hu, -, -⟩ := Reader.exists_start_of_outcomes (hreset.trans htext) t.vars
  have htu : t.rescan = .done () u := Reader.read_eq_done_iff.2 (Reader.start_eq_ok_iff.1 hu)
  obtain ⟨ts, hts, hrequests⟩ := (ends_comparison (.refl u)).stopsAt.exists_requests
  rw [← Reader.outcomes_of_start hu, hreset] at hts
  have hagain : u.source.requests = [.next, .next, .reset, .next] := by
    rw [Reader.source_of_start hu, hsource]
    rfl
  rw [statement_of_rescan hname hst ht htu, Outcome.place_map, hrequests, hagain]
  exact .again htext hts

lemma requests_statement : Requests text (statement s).place.source.requests := by
  by_cases hident : ∃ name, s.current = .ident name
  · obtain ⟨name, hname⟩ := hident
    have hadvance : s.advance.Ends s.LeadsTo fun _ => s.StopsAt :=
      (Reader.LeadsTo.refl s).advance (by simp [hname])
    cases hst : s.advance with
    | failed e t =>
        rw [hst] at hadvance
        rw [statement_of_fault hname hst]
        exact requests_of_stopsAt hs hadvance
    | done _ t =>
        rw [hst] at hadvance
        by_cases hassign : t.current = .assign
        · have hbehind : (t.advance.bind fun _ u => comparison u).Ends s.LeadsTo
              fun _ => s.StopsAt := by
            have hnext := Reader.LeadsTo.advance (s := s) hadvance (by simp [hassign])
            exact hnext.bind fun _ u _ hu => ends_comparison hu
          rw [statement_of_assign_eq_bind hname hst hassign, source_bind_store]
          exact requests_of_stopsAt hs hbehind.stopsAt
        · exact requests_of_rescan hs hname hst hassign
  · rw [statement_of_ne_ident fun name hname => hident ⟨name, hname⟩, Outcome.place_map]
    exact requests_of_stopsAt hs (ends_comparison (.refl s)).stopsAt

end Start

/-- **What a statement asks for**, whether or not it fails. -/
theorem requests_evaluateRecorded (text : String) (vars : Variables) :
    Requests text (evaluateRecorded text vars).2 := by
  rw [evaluateRecorded]
  cases hs : Reader.start (Recorded.ofText text) vars with
  | error e =>
      have hnone : ([] : List Token).map .ok <+: Lexer.outcomes text.toList := List.nil_prefix
      exact .once hnone
  | ok s => exact requests_statement hs

/-! ### The record changes nothing -/

/-- Whatever a statement reads, the record is only longer. -/
lemma related_statement_recorded (s : Reader Recorded) :
    (statement s.unrecorded).Related (fun m t => t.unrecorded = m) (statement s) := by
  rw [statement_eq, statement_eq]
  refine simulation_recorded.statementWith (simulation_recorded.expression maxNesting) ?_
    (fun _ _ h => h) ?_ rfl
  · rintro _ t rfl
    have hreset : (t.source.ask .reset).lexer = t.source.lexer.reset := t.source.lexer_ask .reset
    show (t.unrecorded.read t.source.lexer.reset).Related _ (t.read (t.source.ask .reset))
    rw [← hreset]
    exact t.related_read_recorded (t.source.ask .reset)
  · rintro _ t name v rfl
    rfl

/-- **With a record, a text comes to the same**, and leaves the same table. -/
theorem evaluateRecorded_fst (text : String) (vars : Variables) :
    (evaluateRecorded text vars).1 = evaluate text vars := by
  have hstart : Reader.start (Lexer.ofText text) vars =
      (Reader.start (Recorded.ofText text) vars).map Reader.unrecorded :=
    Reader.start_lexer (Recorded.ofText text) vars
  rw [evaluateRecorded]
  cases hs : Reader.start (Recorded.ofText text) vars with
  | error e =>
      rw [evaluate, hstart, hs]
      rfl
  | ok s =>
      rw [hs] at hstart
      rw [evaluate_of_start hstart]
      refine (related_statement_recorded s).result_vars_eq ?_
        (fun _ _ hfailed => vars_of_statement_failed hstart hfailed)
        fun _ _ hfailed => vars_of_statement_failed hs hfailed
      rintro _ t rfl
      rfl

/-- **Progress**: a record of what the lexer is asked for changes nothing, neither for whole
statements nor for the rules of expressions at any place behind any calls and resets. Every rule
asks once for each token that it goes past, however it ends, and never for anything behind the
end, and if a value was read, then less is upcoming than before. Going on with a chain is a loop,
and each of its turns has the same properties. So a statement ends for every text and every
table: it goes past some tokens at the start of the text, with one call for each and one more
for what is behind them, and if it reads a name first, this may come after two other calls and a
reset. Calls are at most three more than characters. -/
theorem evaluate_progresses (text : String) (vars : Variables) :
    (evaluateRecorded text vars).1 = evaluate text vars ∧
      (∀ (depth : Nat) (level : Level) (s : Reader Recorded),
        ((ruleOf depth level).run s.unrecorded).Related (fun m t => t.unrecorded = m)
            ((ruleOf depth level).run s) ∧
          ((ruleOf depth level).run s).Progresses s) ∧
      (∀ (depth : Nat) (level : Level) (left : Value) (s : Reader Recorded),
        (Rule.turn level.operator? (ruleOf depth level.operand) left s = none →
          Rule.chainFrom level.operator? (ruleOf depth level.operand) left s = .done left s) ∧
        ∀ o, Rule.turn level.operator? (ruleOf depth level.operand) left s = some o →
          Rule.chainFrom level.operator? (ruleOf depth level.operand) left s =
              o.bind (Rule.chainFrom level.operator? (ruleOf depth level.operand)) ∧
            o.Progresses s) ∧
      Requests text (evaluateRecorded text vars).2 ∧
      (evaluateRecorded text vars).2.count .next ≤ text.length + 3 := by
  have hrequests : Requests text (evaluateRecorded text vars).2 :=
    requests_evaluateRecorded text vars
  refine ⟨evaluateRecorded_fst text vars,
    fun depth level s => ⟨?_, progresses_ruleOf depth level s⟩,
    fun depth level left s => ⟨fun hnone => ?_, fun o ho => ⟨?_, progresses_turn depth ho⟩⟩,
    hrequests, hrequests.count_next_le⟩
  · exact simulation_recorded.ruleOf depth level rfl
  · rw [Rule.chainFrom_eq_turn, hnone]
  · rw [Rule.chainFrom_eq_turn, ho]

/-- The name is read twice, so there are three more calls than characters. -/
example : (evaluateRecorded "x" (Variables.empty.set "x" (.int 1))).2 =
    [.next, .next, .reset, .next, .next] := by
  with_unfolding_all rfl

end Reckon
