import Mathlib.Tactic.Lemma
import Mathlib.Tactic.SplitIfs
import Reckon.Proofs.Value.Failure
import Reckon.Statement

/-!
What rules keep up, wherever reading ends.

A rule goes from token to token, and of all that a place has it changes
nothing else. So a property of places that going to the next token keeps up
is kept up by every rule, and what holds of the errors that are found at such
places holds of every error that a rule ends with.

* `Outcome.Ends`: what holds where reading ends. It goes through a
  composition if each part ends so;
* `Rule.turn`: one turn of the loop of a chain, and `Rule.chainFrom_eq_turn`,
  that the loop goes on turn by turn;
* `FlatContract`: the property is kept up by every token that is no
  parenthesis, and these are the errors found there. `FlatContract.chain` and
  `FlatContract.application` carry it to larger rules, whatever the smaller
  ones do about parentheses;
* `Contract`: parentheses keep the property up, too. `Contract.factor` is the
  main statement, by induction on the number of parentheses that may be
  opened;
* `comparisonWith` and `statementWith`: clauses and statements over any rule
  for expressions, with `FlatContract.statementWith` for whole statements.
-/

namespace Reckon

variable {σ α β : Type}

/-! ### Where reading ends -/

/-- With a value, reading ends at a place with the property `Q`; with an error, the error and
the place are in the relation `E`. -/
def Outcome.Ends (Q : Reader σ → Prop) (E : Error → Reader σ → Prop) : Outcome σ α → Prop
  | done _ next => Q next
  | failed e stop => E e stop

namespace Outcome

variable {P Q : Reader σ → Prop} {E : Error → Reader σ → Prop}

lemma Ends.bind {o : Outcome σ α} {f : α → Reader σ → Outcome σ β} (h : o.Ends P E)
    (hf : ∀ v next, o = .done v next → P next → (f v next).Ends Q E) : (o.bind f).Ends Q E := by
  cases o with
  | done v next => exact hf v next rfl h
  | failed e stop => exact h

lemma Ends.map {o : Outcome σ α} (f : α → β) (h : o.Ends P E) : (o.map f).Ends P E := by
  cases o with
  | done v next => exact h
  | failed e stop => exact h

lemma Ends.mono {o : Outcome σ α} (h : o.Ends P E) (hPQ : ∀ s, P s → Q s) : o.Ends Q E := by
  cases o with
  | done v next => exact hPQ next h
  | failed e stop => exact h

/-- What holds where reading ends, whether it succeeds or not. -/
lemma Ends.place {o : Outcome σ α} (h : o.Ends Q E) (hdone : ∀ s, Q s → P s)
    (hfailed : ∀ e s, E e s → P s) : P o.place := by
  cases o with
  | done v next => exact hdone next h
  | failed e stop => exact hfailed e stop h

/-- An error that comes out is in the relation. -/
lemma Ends.of_result {o : Outcome σ α} (h : o.Ends Q E) {e : Error} (he : o.result = .error e) :
    E e o.place := by
  cases o with
  | done v next => cases he
  | failed e' stop =>
      cases he
      exact h

/-- Of three steps, the first two may be taken together. -/
lemma bind_bind {γ : Type} (o : Outcome σ α) (f : α → Reader σ → Outcome σ β)
    (g : β → Reader σ → Outcome σ γ) : (o.bind f).bind g = o.bind fun v s => (f v s).bind g := by
  cases o <;> rfl

/-- A computation ends where it starts, or fails with an error of one of its kinds. -/
lemma ends_ofExcept {kinds : List ErrorKind} {s : Reader σ} {r : Except Error α}
    (hr : FailsWithin kinds r) (hs : P s) (herror : ∀ e, e.kind ∈ kinds → E e s) :
    (ofExcept s r).Ends P E := by
  cases r with
  | ok v => exact hs
  | error e => exact herror e (hr e rfl)

end Outcome

open Outcome

variable [TokenSource σ] {P Q : Reader σ → Prop} {E : Error → Reader σ → Prop} {s : Reader σ}

/-! ### Operators -/

lemma Token.exists_arith_of_multiplicative? {tok : Token} {op : ArithOp}
    (h : tok.multiplicative? = some op) : ∃ op', tok = .arith op' := by
  cases tok with
  | arith op' => exact ⟨op', rfl⟩
  | _ => cases h

lemma Token.exists_arith_of_additive? {tok : Token} {op : ArithOp}
    (h : tok.additive? = some op) : ∃ op', tok = .arith op' := by
  cases tok with
  | arith op' => exact ⟨op', rfl⟩
  | _ => cases h

/-! ### Turns of a chain -/

namespace Rule

variable {operator? : Token → Option ArithOp} {operand : Rule σ Value} {left : Value}

/-- One turn of a chain whose value so far is `left`: the operator that is current, the operand
after it, and what the two come to. There is none where no operator of the chain is current. -/
def turn (operator? : Token → Option ArithOp) (operand : Rule σ Value) (left : Value)
    (s : Reader σ) : Option (Outcome σ Value) :=
  (operator? s.current).map fun op =>
    s.advance.bind fun _ t => (operand.run t).bind fun right u => ofExcept u (left.apply op right)

/-- **A chain goes on turn by turn**, as long as there is one. -/
lemma chainFrom_eq_turn (operator? : Token → Option ArithOp) (operand : Rule σ Value)
    (left : Value) (s : Reader σ) :
    chainFrom operator? operand left s =
      match turn operator? operand left s with
      | none => .done left s
      | some o => o.bind (chainFrom operator? operand) := by
  rw [chainFrom_eq, turn]
  cases operator? s.current with
  | none => rfl
  | some op => simp only [Option.map_some, bind_bind]

/-- A turn that succeeds shortens the rest. -/
lemma remaining_lt_of_turn {s next : Reader σ} {v : Value}
    (h : turn operator? operand left s = some (.done v next)) :
    next.remaining < s.remaining := by
  obtain ⟨op, -, hturn⟩ := Option.map_eq_some_iff.1 h
  obtain ⟨_, t, ht, hturn⟩ := bind_eq_done_iff.1 hturn
  obtain ⟨right, u, hu, hturn⟩ := bind_eq_done_iff.1 hturn
  obtain ⟨-, rfl⟩ := ofExcept_eq_done_iff.1 hturn
  exact Nat.lt_of_lt_of_le (operand.shortens hu) (Reader.remaining_le_of_advance ht)

end Rule

/-! ### Rules between parentheses -/

/-- From places with the property, the rule leads to places with the property. -/
def Rule.Ensures (P : Reader σ → Prop) (E : Error → Reader σ → Prop) (rule : Rule σ α) : Prop :=
  ∀ ⦃s : Reader σ⦄, P s → (rule.run s).Ends P E

/-- Going past a token that is no parenthesis keeps the property up, and the errors that are
found in front of a token, or when values are computed, are in the relation. -/
structure FlatContract (P : Reader σ → Prop) (E : Error → Reader σ → Prop) : Prop where
  advance : ∀ {s}, P s → s.current ≠ .eof → s.current ≠ .lparen → s.current ≠ .rparen →
    s.advance.Ends P E
  undefined : ∀ {s name}, P s → s.current = .ident name → E (.undefined name) s
  misplaced : ∀ {s cause}, P s →
    cause ∈ [SyntaxError.operandExpected s.current, .closingExpected s.current,
      .trailing s.current] → E (.syntactic cause) s
  computed : ∀ {s e}, P s → e.kind ∈ [ErrorKind.domain, .zeroDivision, .overflow, .type] → E e s

/-- Something in parentheses: one property leads through the opening one to another, which
the rule keeps up, and this one through the closing one to a third. -/
lemma Rule.ends_enclosed {inner : Rule σ α} (hopen : s.advance.Ends P E)
    (hinner : inner.Ensures P E)
    (hclose : ∀ t, P t → t.current = .rparen → t.advance.Ends Q E)
    (hfound : ∀ t, P t → E (.syntactic (.closingExpected t.current)) t) :
    (Rule.enclosed inner s).Ends Q E := by
  refine hopen.bind fun _ t _ ht => (hinner ht).bind fun v u _ hu => ?_
  rw [Rule.close]
  split_ifs with hparen
  · exact (hclose u hu hparen).map _
  · exact hfound u hu

namespace FlatContract

variable {operator? : Token → Option ArithOp}

lemma accept (h : FlatContract P E) (hs : P s) (heof : s.current ≠ .eof)
    (hl : s.current ≠ .lparen) (hr : s.current ≠ .rparen) (v : α) :
    (Rule.accept s v).Ends P E :=
  (h.advance hs heof hl hr).map _

/-- **A turn of a chain** keeps the property up, if the operand does. -/
lemma turn (h : FlatContract P E)
    (hoperator : ∀ {tok op}, operator? tok = some op → ∃ op', tok = .arith op')
    {operand : Rule σ Value} (hoperand : operand.Ensures P E) {left : Value} (hs : P s)
    {o : Outcome σ Value} (ho : Rule.turn operator? operand left s = some o) : o.Ends P E := by
  obtain ⟨op, hop, rfl⟩ := Option.map_eq_some_iff.1 ho
  obtain ⟨op', harith⟩ := hoperator hop
  have hadvance : s.advance.Ends P E :=
    h.advance hs (by simp [harith]) (by simp [harith]) (by simp [harith])
  refine hadvance.bind fun _ t _ ht => (hoperand ht).bind fun right u _ hu => ?_
  exact ends_ofExcept (failsWithin_apply op left right) hu fun e he =>
    h.computed hu (List.mem_cons_of_mem _ he)

/-- **The invariant of a chain**: every turn of it keeps the property up. -/
lemma chainFrom (h : FlatContract P E)
    (hoperator : ∀ {tok op}, operator? tok = some op → ∃ op', tok = .arith op')
    {operand : Rule σ Value} (hoperand : operand.Ensures P E) (left : Value) (hs : P s) :
    (Rule.chainFrom operator? operand left s).Ends P E := by
  induction hn : s.remaining using Nat.strongRecOn generalizing left s with
  | _ n ih =>
    rw [Rule.chainFrom_eq_turn]
    cases hturn : Rule.turn operator? operand left s with
    | none => exact hs
    | some o =>
        refine (h.turn hoperator hoperand hs hturn).bind fun v t ho ht => ?_
        have hshort := Rule.remaining_lt_of_turn (ho ▸ hturn)
        exact ih _ (by omega) v ht rfl

lemma chain (h : FlatContract P E)
    (hoperator : ∀ {tok op}, operator? tok = some op → ∃ op', tok = .arith op')
    {operand : Rule σ Value} (hoperand : operand.Ensures P E) :
    (Rule.chain operator? operand).Ensures P E :=
  fun _ hs => (hoperand hs).bind fun left _ _ ht => h.chainFrom hoperator hoperand left ht

/-- A factor that is no expression in parentheses. -/
lemma readFactor (h : FlatContract P E) {inner : Option (Rule σ Value)} (hs : P s)
    (hl : s.current ≠ .lparen) : (Parsing.readFactor inner s).Ends P E := by
  have hfound : E (.syntactic (.operandExpected s.current)) s := h.misplaced hs (by simp)
  rw [Parsing.readFactor.eq_def]
  cases hc : s.current with
  | lparen => exact absurd hc hl
  | int n => exact h.accept hs (by simp [hc]) hl (by simp [hc]) _
  | float x => exact h.accept hs (by simp [hc]) hl (by simp [hc]) _
  | ident name =>
      dsimp only
      rw [Variables.get]
      cases s.vars.get? name with
      | some v => exact h.accept hs (by simp [hc]) hl (by simp [hc]) v
      | none => exact h.undefined hs hc
  | _ => rwa [hc] at hfound

lemma finish (h : FlatContract P E) (v : Value) (hs : P s) :
    (Parsing.finish v s).Ends P E := by
  rw [Parsing.finish]
  split_ifs
  · exact hs
  · exact h.misplaced hs (by simp)

/-- A function and the factor after it, or the factor alone. -/
lemma application [FloatFunctions] (h : FlatContract P E) {rule : Rule σ Value}
    (hrule : rule.Ensures P E) : (Parsing.application rule).Ensures P E := by
  intro s hs
  show (Parsing.readApplication rule s).Ends P E
  rw [Parsing.readApplication.eq_def]
  cases hc : s.current with
  | function f =>
      have hadvance : s.advance.Ends P E :=
        h.advance hs (by simp [hc]) (by simp [hc]) (by simp [hc])
      refine hadvance.bind fun _ t _ ht => (hrule ht).bind fun v u _ hu => ?_
      exact ends_ofExcept (failsWithin_applyFunction f v) hu fun e he => h.computed hu he
  | _ => exact hrule hs

end FlatContract

/-! ### Clauses and statements over any rule for expressions -/

namespace Parsing

/-- A clause, in which the rule reads the expressions. -/
def comparisonWith (rule : Rule σ Value) (s : Reader σ) : Outcome σ Value :=
  (rule.run s).bind fun left t =>
    match t.current with
    | .comparison op =>
        t.advance.bind fun _ u => (rule.run u).bind fun right w =>
          (Outcome.ofExcept w (left.compare op right)).bind finish
    | _ => finish left t

lemma comparison_eq [FloatFunctions] (s : Reader σ) :
    comparison s = comparisonWith (expression maxNesting) s := rfl

end Parsing

section Statement

variable {σ : Type} [RereadableSource σ]

/-- A statement, in which the rule reads the expressions. -/
def Parsing.statementWith (rule : Rule σ Value) (s : Reader σ) : Outcome σ (Option Value) :=
  match s.current with
  | .ident name =>
      s.advance.bind fun _ t =>
        if t.current = .assign then
          t.advance.bind fun _ u => (comparisonWith rule u).bind fun v w =>
            .done none (w.store name v)
        else
          t.rescan.bind fun _ u => (comparisonWith rule u).map some
  | _ => (comparisonWith rule s).map some

lemma Parsing.statement_eq [FloatFunctions] (s : Reader σ) :
    statement s = statementWith (expression maxNesting) s := rfl

end Statement

namespace FlatContract

/-- A clause keeps the property up, if its expressions do. -/
lemma comparisonWith (h : FlatContract P E) {rule : Rule σ Value} (hrule : rule.Ensures P E)
    (hs : P s) : (Parsing.comparisonWith rule s).Ends P E := by
  refine (hrule hs).bind fun left t _ ht => ?_
  split
  case h_1 op hop =>
    have hadvance : t.advance.Ends P E :=
      h.advance ht (by simp [hop]) (by simp [hop]) (by simp [hop])
    refine hadvance.bind fun _ u _ hu => (hrule hu).bind fun right w _ hw => ?_
    have hcompare : (ofExcept w (left.compare op right)).Ends P E :=
      ends_ofExcept (failsWithin_compare op left right) hw fun e he =>
        h.computed hw (by simp [List.mem_singleton.1 he])
    exact hcompare.bind fun v x _ hx => h.finish v hx
  case h_2 => exact h.finish left ht

/-- **Statements**: a statement keeps the property up, if its expressions and reading again do,
and but for the value that it stores. -/
theorem statementWith {σ : Type} [RereadableSource σ] {P Q : Reader σ → Prop}
    {E : Error → Reader σ → Prop} (h : FlatContract P E) {rule : Rule σ Value}
    (hrule : rule.Ensures P E) (hrescan : ∀ s, P s → s.rescan.Ends P E) (hdone : ∀ s, P s → Q s)
    (hstore : ∀ s name v, P s → Q (s.store name v)) {s : Reader σ} (hs : P s) :
    (Parsing.statementWith rule s).Ends Q E := by
  have hclause : ∀ {t}, P t → ((Parsing.comparisonWith rule t).map some).Ends Q E := fun ht =>
    ((h.comparisonWith hrule ht).map some).mono hdone
  rw [Parsing.statementWith.eq_def]
  split
  case h_1 name hname =>
    have hadvance : s.advance.Ends P E :=
      h.advance hs (by simp [hname]) (by simp [hname]) (by simp [hname])
    refine hadvance.bind fun _ t _ ht => ?_
    split_ifs with hassign
    · have hbehind : t.advance.Ends P E :=
        h.advance ht (by simp [hassign]) (by simp [hassign]) (by simp [hassign])
      refine hbehind.bind fun _ u _ hu => ?_
      exact (h.comparisonWith hrule hu).bind fun v w _ hw => hstore w name v hw
    · exact (hrescan t ht).bind fun _ u _ hu => hclause hu
  case h_2 => exact hclause hs

end FlatContract

/-! ### Expressions -/

/-- Parentheses keep the property up like other tokens, and the error that too many are open is
in the relation. -/
structure Contract (P : Reader σ → Prop) (E : Error → Reader σ → Prop) : Prop
    extends FlatContract P E where
  parenthesis : ∀ {s}, P s → s.current = .lparen ∨ s.current = .rparen → s.advance.Ends P E
  nested : ∀ {s}, P s → s.current = .lparen → E (.syntactic .nestedTooDeeply) s

namespace Contract

lemma factorWith (h : Contract P E) {inner : Option (Rule σ Value)}
    (hinner : ∀ rule, inner = some rule → rule.Ensures P E) :
    (Parsing.factorWith inner).Ensures P E := by
  intro s hs
  show (Parsing.readFactor inner s).Ends P E
  by_cases hl : s.current = .lparen
  · simp only [Parsing.readFactor, hl]
    cases inner with
    | none => exact h.nested hs hl
    | some rule =>
        exact Rule.ends_enclosed (h.parenthesis hs (.inl hl)) (hinner rule rfl)
          (fun t ht hr => h.parenthesis ht (.inr hr)) fun t ht => h.misplaced ht (by simp)
  · exact h.readFactor hs hl

variable [FloatFunctions]

lemma expressionWith (h : Contract P E) {rule : Rule σ Value} (hrule : rule.Ensures P E) :
    (Parsing.expressionWith rule).Ensures P E := by
  have hterm : (Parsing.term rule).Ensures P E :=
    h.chain Token.exists_arith_of_multiplicative? (h.application hrule)
  exact h.chain Token.exists_arith_of_additive? hterm

/-- **Expressions keep the property up**, whatever is in them, and wherever they fail, the error
is in the relation. -/
theorem factor (h : Contract P E) (depth : Nat) :
    (Parsing.factor depth : Rule σ Value).Ensures P E := by
  induction depth with
  | zero => exact h.factorWith fun rule hrule => by cases hrule
  | succ depth ih =>
      refine h.factorWith fun rule hrule => ?_
      cases hrule
      exact h.expressionWith ih

lemma expression (h : Contract P E) (depth : Nat) :
    (Parsing.expression depth : Rule σ Value).Ensures P E :=
  h.expressionWith (h.factor depth)

end Contract

end Reckon
