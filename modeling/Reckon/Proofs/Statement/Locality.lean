import Reckon.Proofs.Parsing.Metered
import Reckon.Proofs.Statement.Evaluation

/-!
The leftmost failure wins.

A statement is read from the left to the right, and it is over as soon as
something is wrong. So a statement that fails has looked at the start of its
text only, and what comes after that can be replaced by anything. How much
it has looked at is found out by running it on a metered text.

* `evaluateMetered` and `lookedAt`: the result with a meter, and what the
  meter says in the end;
* `Decides`: the start of a text decides the result;
* `decides_evaluateMetered`: what was looked at decides, whether or not the
  statement fails;
* `evaluate_leftmost_failure`: what that means for errors.
-/

namespace Reckon

open Parsing TokenSource

variable {text : String} {vars : Variables}

section Leftmost

variable [FloatFunctions]

/-- What a statement comes to, and how many tokens and faults at the start of its text were
looked at. Looking at some of them again does not count. -/
def evaluateMetered (text : String) (vars : Variables) : Except Error (Option Value) × Nat :=
  let metered := Metered.ofSource (Lexer.ofText text)
  match Reader.start metered vars with
  | .error e => (.error (.lexical e), metered.next.2.furthest)
  | .ok s => ((statement s).result, (statement s).place.source.furthest)

/-- How many tokens and faults of a text a statement looks at. The end of the text is a token,
which is there as often as it is asked for. -/
def lookedAt (text : String) (vars : Variables) : Nat := (evaluateMetered text vars).2

/-- So many tokens and faults at the start of the text decide that this is the result. If it
is a fault, then it is the last one of them, and the only one that is a fault. -/
structure Decides (text : String) (vars : Variables) (k : Nat)
    (r : Except Error (Option Value)) : Prop where
  result_eq : ∀ text', first k (Lexer.ofText text') = first k (Lexer.ofText text) →
    (evaluate text' vars).1 = r
  fault : ∀ fault, r = .error (.lexical fault) →
    ∃ ts : List Token, first k (Lexer.ofText text) = ts.map .ok ++ [.error fault]

section Start

variable {s t : Reader (Metered Lexer)} {name : String}
  (hs : Reader.start (Metered.ofSource (Lexer.ofText text)) vars = .ok s)

include hs

omit [FloatFunctions] in
/-- After the first token, the meter is at one. -/
lemma meter_of_start : s.source = (Metered.ofSource (Lexer.ofText text)).next.2 := by
  have hnext : (Metered.ofSource (Lexer.ofText text)).next = (.ok s.current, s.source) :=
    (Reader.start_eq_ok_iff.1 hs).1
  rw [hnext]

/-- What is behind the first token decides, for all texts that start with this token. -/
lemma decides_of_start {n : Nat} {r : Except Error (Option Value)}
    (hresult : ∀ {text'} {u : Reader Lexer}, Reader.start (Lexer.ofText text') vars = .ok u →
      u.current = s.current → first n u.source = first n s.source → (statement u).result = r)
    (hfault : ∀ fault, r = .error (.lexical fault) →
      ∃ ts : List Token, first n s.source = ts.map .ok ++ [.error fault]) :
    Decides text vars (n + 1) r where
  result_eq text' h := by
    rw [← Metered.first_ofSource (n + 1) (Lexer.ofText text)] at h
    obtain ⟨u, hu, hcurrent, hrest⟩ := Reader.exists_start_of_first hs h vars
    rw [evaluate_of_start hu]
    exact hresult hu hcurrent hrest
  fault fault h := by
    obtain ⟨ts, hts⟩ := hfault fault h
    refine ⟨s.current :: ts, ?_⟩
    rw [← Metered.first_ofSource (n + 1) (Lexer.ofText text), Reader.first_of_start hs, hts]
    rfl

/-- Without a name at the start, the clause decides. -/
lemma decides_of_ne_ident (hident : ∀ name, s.current ≠ .ident name) :
    Decides text vars (statement s).place.source.furthest (statement s).result := by
  obtain ⟨n, hfurthest, hclause⟩ :=
    Outcome.Retraced.exists_decidedBy (retraced_comparison (τ := Lexer) s)
  have hcount : (statement s).place.source.furthest = n + 1 := by
    rw [statement_of_ne_ident hident, Outcome.place_map, hfurthest, meter_of_start hs]
    show max 1 (1 + n) = n + 1
    omega
  rw [hcount, statement_of_ne_ident hident, Outcome.result_map]
  refine decides_of_start hs (fun hu hcurrent hrest => ?_) fun fault hfault => ?_
  · have hvars := (Reader.vars_of_start hu).trans (Reader.vars_of_start hs).symm
    rw [statement_of_ne_ident (hcurrent ▸ hident), Outcome.result_map,
      hclause.result_eq _ hvars hcurrent hrest]
  · exact hclause.fault fault (map_eq_error_iff.1 hfault)

/-- A fault behind a name at the start is the second of what is looked at. -/
lemma decides_of_fault {e : Error} (hname : s.current = .ident name)
    (hst : s.advance = .failed e t) :
    Decides text vars (statement s).place.source.furthest (statement s).result := by
  obtain ⟨fault, -, rfl, -⟩ := Reader.exists_fault_of_advance hst
  have hcount : (statement s).place.source.furthest = 1 + 1 := by
    rw [statement_of_fault hname hst]
    show t.source.furthest = 2
    rw [Reader.meter_of_fault hst, meter_of_start hs]
    rfl
  rw [hcount, statement_of_fault hname hst]
  refine decides_of_start hs (fun hu hcurrent hrest => ?_) fun fault' hfault' => ?_
  · obtain ⟨stop, hstop⟩ := Reader.exists_advance_failed_of_first hst hrest
    rw [statement_of_fault (hcurrent.trans hname) hstop]
    rfl
  · cases hfault'
    refine ⟨[], ?_⟩
    rw [first, Reader.next_of_advance_failed hst]
    rfl

/-- Behind an assignment sign, what comes after it decides. -/
lemma decides_of_assign (hname : s.current = .ident name) (hst : s.advance = .done () t)
    (hassign : t.current = .assign) :
    Decides text vars (statement s).place.source.furthest (statement s).result := by
  have hpass : t.current.Passable t.vars := by
    rw [hassign]
    trivial
  obtain ⟨n, hfurthest, hclause⟩ :=
    Outcome.Retraced.exists_decidedBy ((Outcome.Retraced.advance (τ := Lexer) hpass).bind
      fun _ u _ => retraced_comparison u)
  have hcount : (statement s).place.source.furthest = n + 1 + 1 := by
    rw [statement_of_assign_eq_bind hname hst hassign, source_bind_store, hfurthest,
      Reader.meter_of_advance hst, meter_of_start hs]
    show max 2 (2 + n) = n + 1 + 1
    omega
  rw [hcount, statement_of_assign_eq_bind hname hst hassign, result_bind_store]
  refine decides_of_start hs (fun {text' u} hu hcurrent hrest => ?_) fun fault hfault => ?_
  · obtain ⟨v, huv, hvars, hcurrent', hrest'⟩ := Reader.exists_advance_of_first hst hrest
    have hvars' : v.vars = t.vars := by
      rw [hvars, Reader.vars_of_advance hst, Reader.vars_of_start hu, Reader.vars_of_start hs]
    rw [statement_of_assign_eq_bind (hcurrent.trans hname) huv (hcurrent'.trans hassign),
      result_bind_store, hclause.result_eq v hvars' hcurrent' hrest']
  · obtain ⟨ts, hts⟩ := hclause.fault fault (map_eq_error_iff.1 hfault)
    refine ⟨t.current :: ts, ?_⟩
    rw [Reader.first_of_start (Reader.start_of_advance hst), hts]
    rfl

omit [FloatFunctions] in
/-- Reading a metered text again leads to its first token, and the meter still shows that two
of them were looked at. -/
lemma exists_rescan_metered (hst : s.advance = .done () t) :
    ∃ u, t.rescan = .done () u ∧ u.current = s.current ∧ u.vars = vars ∧
      u.source.source = s.source.source ∧ u.source.position = 1 ∧ u.source.furthest = 2 := by
  have hfirst : (Metered.ofSource (Lexer.ofText text)).next = (.ok s.current, s.source) :=
    (Reader.start_eq_ok_iff.1 hs).1
  have htoken := congrArg Prod.fst hfirst
  have hrest := congrArg (fun p => p.2.source) hfirst
  have hnext : TokenSource.next (Lexer.ofText text) = (.ok s.current, s.source.source) :=
    Prod.ext htoken hrest
  have hreset : RereadableSource.reset t.source = ⟨Lexer.ofText text, 0, 2, by omega⟩ := by
    rw [Reader.meter_of_advance hst, meter_of_start hs]
    rfl
  refine ⟨⟨⟨s.current, ⟨s.source.source, 1, 2, by omega⟩⟩, vars⟩, ?_, rfl, rfl, rfl, rfl, rfl⟩
  rw [Reader.rescan, hreset]
  refine Reader.read_eq_done_iff.2 ⟨?_, ?_⟩
  · show Metered.next _ = _
    simp only [Metered.next, hnext]
    rfl
  · rw [Reader.vars_of_advance hst, Reader.vars_of_start hs]

/-- Behind a name that nothing is assigned to, the clause decides from the start on, and so
does the token in the place of the assignment sign. -/
lemma decides_of_rescan (hname : s.current = .ident name) (hst : s.advance = .done () t)
    (hassign : t.current ≠ .assign) :
    Decides text vars (statement s).place.source.furthest (statement s).result := by
  obtain ⟨m, htm, hcurrent, hvars, hsource, hposition, hmeter⟩ := exists_rescan_metered hs hst
  obtain ⟨n, hfurthest, hclause⟩ :=
    Outcome.Retraced.exists_decidedBy (retraced_comparison (τ := Lexer) m)
  have hfirst : first n m.source = first n s.source := by
    rw [Metered.first_source, hsource, Metered.first_source]
  have hcount : (statement s).place.source.furthest = max 1 n + 1 := by
    rw [statement_of_rescan hname hst hassign htm, Outcome.place_map, hfurthest, hposition, hmeter]
    omega
  rw [hcount, statement_of_rescan hname hst hassign htm, Outcome.result_map]
  refine decides_of_start hs (fun {text' u} hu hucurrent hrest => ?_) fun fault hfault => ?_
  · obtain ⟨v, huv, -, hvcurrent, -⟩ :=
      Reader.exists_advance_of_first hst (first_eq_of_le (Nat.le_max_left 1 n) hrest)
    rw [statement_of_ident hu (hucurrent.trans hname) huv (hvcurrent ▸ hassign),
      Outcome.result_map, hclause.result_eq u ((Reader.vars_of_start hu).trans hvars.symm)
        (hucurrent.trans hcurrent.symm)]
    exact (first_eq_of_le (Nat.le_max_right 1 n) hrest).trans hfirst.symm
  · obtain ⟨ts, hts⟩ := hclause.fault fault (map_eq_error_iff.1 hfault)
    have hlength : n = ts.length + 1 := by
      rw [← length_first n m.source, hts]
      simp
    rw [Nat.max_eq_right (by omega), ← hfirst]
    exact ⟨ts, hts⟩

end Start

/-- **What was looked at decides**: every text with the same tokens and faults as far as the
meter goes comes to the same result, and the meter goes as far as a fault that is reported. -/
theorem decides_evaluateMetered (text : String) (vars : Variables) :
    Decides text vars (lookedAt text vars) (evaluateMetered text vars).1 := by
  rw [lookedAt, evaluateMetered]
  cases hs : Reader.start (Metered.ofSource (Lexer.ofText text)) vars with
  | error fault =>
      show Decides text vars 1 _
      constructor
      · intro text' h
        rw [← Metered.first_ofSource 1 (Lexer.ofText text)] at h
        rw [evaluate, Reader.start_error_of_first hs h vars]
      · intro fault' hfault'
        cases hfault'
        refine ⟨[], ?_⟩
        rw [← Metered.first_ofSource 1 (Lexer.ofText text), first, Reader.start_eq_error_iff.1 hs]
        rfl
  | ok s =>
      by_cases hident : ∃ name, s.current = .ident name
      · obtain ⟨name, hname⟩ := hident
        cases hst : s.advance with
        | failed e t => exact decides_of_fault hs hname hst
        | done _ t =>
            by_cases hassign : t.current = .assign
            · exact decides_of_assign hs hname hst hassign
            · exact decides_of_rescan hs hname hst hassign
      · exact decides_of_ne_ident hs fun name hname => hident ⟨name, hname⟩

/-- The meter does not change the result. -/
lemma evaluateMetered_fst (text : String) (vars : Variables) :
    (evaluateMetered text vars).1 = (evaluate text vars).1 :=
  ((decides_evaluateMetered text vars).result_eq text rfl).symm

/-- **The leftmost failure wins**: over the same table, every text with the same tokens and
faults as far as the statement has looked at them fails with the same error, whatever comes
after them, and leaves the table as it is. If the error is a fault of the text, then it is the
last one of what was looked at, and everything in front of it is a token. -/
theorem evaluate_leftmost_failure {e : Error} (h : (evaluate text vars).1 = .error e) :
    (∀ text', first (lookedAt text vars) (Lexer.ofText text') =
        first (lookedAt text vars) (Lexer.ofText text) →
      evaluate text' vars = (.error e, vars)) ∧
      (e.kind = .lex → ∃ (fault : LexError) (ts : List Token), e = .lexical fault ∧
        first (lookedAt text vars) (Lexer.ofText text) = ts.map .ok ++ [.error fault]) := by
  obtain ⟨hresult, hfault⟩ := decides_evaluateMetered text vars
  rw [evaluateMetered_fst, h] at hresult hfault
  constructor
  · intro text' htext'
    exact Prod.ext (hresult text' htext') (evaluate_snd_of_error (hresult text' htext'))
  · intro hkind
    cases e with
    | lexical fault =>
        obtain ⟨ts, hts⟩ := hfault fault rfl
        exact ⟨fault, ts, rfl, hts⟩
    | _ => cases hkind

end Leftmost

section Machine

attribute [local instance] FloatFunctions.native

/-- A name without value is found before the fault behind the operator, but only when the
operator was looked at. -/
theorem evaluate_leftmost_failure_undefined :
    (evaluate "y + $" .empty).1 = .error (.undefined "y") ∧ lookedAt "y + $" .empty = 2 ∧
      evaluate "y + 1" .empty = (.error (.undefined "y"), .empty) := by
  have herror : (evaluate "y + $" .empty).1 = .error (.undefined "y") := by
    with_unfolding_all rfl
  have hlooked : lookedAt "y + $" .empty = 2 := by with_unfolding_all rfl
  have hfirst : first 2 (Lexer.ofText "y + $") = [.ok (.ident "y"), .ok (.arith .add)] := by
    with_unfolding_all rfl
  have hfirst' : first 2 (Lexer.ofText "y + 1") = [.ok (.ident "y"), .ok (.arith .add)] := by
    with_unfolding_all rfl
  refine ⟨herror, hlooked, (evaluate_leftmost_failure herror).1 _ ?_⟩
  rw [hlooked, hfirst, hfirst']

end Machine

end Reckon
