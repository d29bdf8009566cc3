import Reckon.Proofs.Lexer.Lookahead
import Reckon.Proofs.Parsing.Frame
import Reckon.Proofs.Parsing.Simulation

/-!
Rules that demand a parenthesis behind a function.

The grammar allows any factor behind a function, the lexer no other than one
in parentheses. So the rules can be made stricter: behind a function anything
but an opening parenthesis is refused, with any error. On the tokens of a text
the stricter rules read alike, which shows that no text ever comes to that
refusal.

* `Parsing.strictApplication` and the rules that are built on it;
* `Reader.Prepared`: a function at this place stands in front of a
  parenthesis. `Reader.prepared_of_read`: every place that is read of a text is
  so;
* `Parsing.simulates_strictFactor`: the main statement, by induction on the
  number of parentheses that may be opened;
* `Parsing.ensures_strictExpression`: the stricter rules keep up what tokens
  keep up.
-/

namespace Reckon

open Outcome

namespace Parsing

variable {σ : Type} [TokenSource σ] [FloatFunctions]

/-! ### The stricter rules -/

/-- Reads a factor, or a function and the factor behind it, which must start with a parenthesis;
what stands there instead is refused. -/
def readStrictApplication (refusal : Elementary → Token → Error) (factor : Rule σ Value)
    (s : Reader σ) : Outcome σ Value :=
  match s.current with
  | .function f => s.advance.bind fun _ t =>
      if t.current = .lparen then
        (factor.run t).bind fun v u => .ofExcept u (applyFunction f v)
      else .failed (refusal f t.current) t
  | _ => factor.run s

lemma remaining_lt_of_readStrictApplication {refusal : Elementary → Token → Error}
    {factor : Rule σ Value} {s next : Reader σ} {v : Value}
    (h : readStrictApplication refusal factor s = .done v next) : next.remaining < s.remaining := by
  rw [readStrictApplication.eq_def] at h
  cases hc : s.current <;> rw [hc] at h <;> dsimp only at h
  case function f =>
    obtain ⟨_, t, ht, h⟩ := bind_eq_done_iff.1 h
    split_ifs at h
    obtain ⟨w, u, hu, h⟩ := bind_eq_done_iff.1 h
    obtain ⟨-, rfl⟩ := ofExcept_eq_done_iff.1 h
    exact Nat.lt_of_lt_of_le (factor.shortens hu) (Reader.remaining_le_of_advance ht)
  all_goals exact factor.shortens h

/-- The stricter rule for applications. -/
def strictApplication (refusal : Elementary → Token → Error) (factor : Rule σ Value) :
    Rule σ Value where
  run := readStrictApplication refusal factor
  shortens := remaining_lt_of_readStrictApplication

/-- Expressions over stricter applications. -/
def strictExpressionWith (refusal : Elementary → Token → Error) (factor : Rule σ Value) :
    Rule σ Value :=
  Rule.chain Token.additive? (Rule.chain Token.multiplicative? (strictApplication refusal factor))

/-- Factors over stricter applications, in which this number of parentheses may be opened. -/
def strictFactor (refusal : Elementary → Token → Error) : Nat → Rule σ Value
  | 0 => factorWith none
  | depth + 1 => factorWith (some (strictExpressionWith refusal (strictFactor refusal depth)))

/-- Expressions in which every function stands in front of a parenthesis. -/
def strictExpression (refusal : Elementary → Token → Error) (depth : Nat) : Rule σ Value :=
  strictExpressionWith refusal (strictFactor refusal depth)

/-! ### What the stricter rules keep up -/

variable {P : Reader σ → Prop} {E : Error → Reader σ → Prop} {rule : Rule σ Value}
  {refusal : Elementary → Token → Error}

lemma ensures_strictApplication (h : FlatContract P E)
    (hrefusal : ∀ {s}, P s → ∀ f, E (refusal f s.current) s) (hrule : rule.Ensures P E) :
    (strictApplication refusal rule).Ensures P E := by
  intro s hs
  show (readStrictApplication refusal rule s).Ends P E
  rw [readStrictApplication.eq_def]
  cases hc : s.current with
  | function f =>
      have hadvance : s.advance.Ends P E :=
        h.advance hs (by simp [hc]) (by simp [hc]) (by simp [hc])
      refine hadvance.bind fun _ t _ ht => ?_
      split_ifs
      · refine (hrule ht).bind fun v u _ hu => ?_
        exact ends_ofExcept (failsWithin_applyFunction f v) hu fun e he => h.computed hu he
      · exact hrefusal ht f
  | _ => exact hrule hs

lemma ensures_strictExpressionWith (h : Contract P E)
    (hrefusal : ∀ {s}, P s → ∀ f, E (refusal f s.current) s) (hrule : rule.Ensures P E) :
    (strictExpressionWith refusal rule).Ensures P E :=
  h.chain Token.exists_arith_of_additive? (h.chain Token.exists_arith_of_multiplicative?
    (ensures_strictApplication h.toFlatContract hrefusal hrule))

/-- **The stricter rules keep up what tokens keep up**, if the refusals are in the relation. -/
theorem ensures_strictExpression (h : Contract P E)
    (hrefusal : ∀ {s}, P s → ∀ f, E (refusal f s.current) s) (depth : Nat) :
    (strictExpression refusal depth : Rule σ Value).Ensures P E := by
  refine ensures_strictExpressionWith h hrefusal ?_
  induction depth with
  | zero => exact h.factorWith fun rule hrule => by cases hrule
  | succ depth ih =>
      refine h.factorWith fun rule hrule => ?_
      cases hrule
      exact ensures_strictExpressionWith h hrefusal ih

end Parsing

/-! ### Places in a text -/

/-- If a function is current, then a parenthesis comes next. -/
def Reader.Prepared (s : Reader Lexer) : Prop :=
  ∀ f, s.current = .function f → s.source.next.1 = .ok .lparen

/-- **Every place is prepared** that is read of a text, from wherever in the text. -/
lemma Reader.prepared_of_read {s t : Reader Lexer} {src : Lexer} (h : s.read src = .done () t) :
    t.Prepared := by
  intro f hf
  have hnext : src.next = (.ok t.current, t.source) := (Reader.read_eq_done_iff.1 h).1
  have hfunction : src.next.1 = .ok (.function f) := by rw [hnext, hf]
  have hparen := Lexer.next_of_function hfunction
  rwa [hnext] at hparen

/-- The two places are the same, and prepared. -/
def SamePrepared (s t : Reader Lexer) : Prop := s = t ∧ s.Prepared

lemma SamePrepared.read (s : Reader Lexer) (src : Lexer) :
    (s.read src).Related SamePrepared (s.read src) := by
  cases h : s.read src with
  | done u t => exact .done u ⟨rfl, Reader.prepared_of_read h⟩
  | failed e stop => exact .failed e stop stop

lemma simulation_samePrepared : Simulation SamePrepared where
  current h := congrArg (·.current) h.1
  get {s t name} h _ := congrArg (·.vars.get name) h.1
  advance {s t} h _ := by
    obtain ⟨rfl, -⟩ := h
    exact SamePrepared.read s s.source

namespace Parsing

variable [FloatFunctions] {refusal : Elementary → Token → Error} {rule rule' : Rule Lexer Value}

/-- At a prepared place, the parenthesis is there. -/
lemma simulates_strictApplication (h : rule.Simulates SamePrepared rule') :
    (application rule).Simulates SamePrepared (strictApplication refusal rule') := by
  rintro s t ⟨rfl, hs⟩
  show (readApplication rule s).Related SamePrepared (readStrictApplication refusal rule' s)
  rw [readApplication.eq_def, readStrictApplication.eq_def]
  cases hc : s.current with
  | function f =>
      dsimp only
      cases hadvance : s.advance with
      | failed e stop => exact .failed e stop stop
      | done _ t =>
          have hnext : s.source.next = (.ok t.current, t.source) :=
            (Reader.read_eq_done_iff.1 hadvance).1
          -- The function was read of the text, so the lexer had seen what stands behind it.
          have hparen : t.current = .lparen := by
            have hprepared := hs f hc
            rw [hnext] at hprepared
            exact Except.ok.inj hprepared
          rw [bind_done, bind_done, if_pos hparen]
          exact (h ⟨rfl, Reader.prepared_of_read hadvance⟩).bind fun v u u' _ hu =>
            .ofExcept _ hu
  | _ => exact h ⟨rfl, hs⟩

lemma simulates_strictExpressionWith (h : rule.Simulates SamePrepared rule') :
    (expressionWith rule).Simulates SamePrepared (strictExpressionWith refusal rule') := by
  have hterm : (term rule).Simulates SamePrepared
      (Rule.chain Token.multiplicative? (strictApplication refusal rule')) :=
    simulation_samePrepared.chain rfl (simulates_strictApplication h)
  exact simulation_samePrepared.chain rfl hterm

/-- **No text comes to the refusal**: the stricter factors read like the others. -/
theorem simulates_strictFactor (refusal : Elementary → Token → Error) (depth : Nat) :
    (factor depth).Simulates SamePrepared (strictFactor refusal depth) := by
  induction depth with
  | zero => exact simulation_samePrepared.factorWith .none
  | succ depth ih =>
      exact simulation_samePrepared.factorWith (.some (simulates_strictExpressionWith ih))

end Parsing

end Reckon
