import Reckon.Proofs.Parsing.Contract

/-!
No rule of an expression touches the table.

Wherever reading ends, with a value or with an error and however late, the
table is the one from where it started.

* `Outcome.Keeps`: reading ended over this table;
* `contract_vars`: that the table is this one is kept up by every token;
* `keeps_factor`: what follows for factors, and `keeps_comparison` for all
  that may stand in a statement but the assignment sign;
* `vars_of_statementWith_failed`: nor does a statement that fails.
-/

namespace Reckon

variable {σ : Type} {α β : Type} {vars : Variables}

/-! ### Outcomes over a table -/

/-- Reading ended over this table. -/
def Outcome.Keeps (vars : Variables) (o : Outcome σ α) : Prop := o.place.vars = vars

namespace Outcome

lemma Keeps.vars_of_done {o : Outcome σ α} (h : o.Keeps vars) {v : α} {next : Reader σ}
    (ho : o = .done v next) : next.vars = vars := by
  rw [ho] at h
  exact h

lemma Keeps.vars_of_failed {o : Outcome σ α} (h : o.Keeps vars) {e : Error} {stop : Reader σ}
    (ho : o = .failed e stop) : stop.vars = vars := by
  rw [ho] at h
  exact h

lemma keeps_iff_ends {o : Outcome σ α} :
    o.Keeps vars ↔ o.Ends (fun next => next.vars = vars) fun _ stop => stop.vars = vars := by
  cases o <;> exact Iff.rfl

/-- An error comes out of two steps if one of them fails with it. -/
lemma bind_eq_failed {o : Outcome σ α} {f : α → Reader σ → Outcome σ β} {e : Error}
    {stop : Reader σ} (h : o.bind f = .failed e stop) :
    o = .failed e stop ∨ ∃ v mid, o = .done v mid ∧ f v mid = .failed e stop := by
  cases o with
  | done v mid => exact .inr ⟨v, mid, rfl, h⟩
  | failed e' stop' =>
      rw [bind_failed] at h
      cases h
      exact .inl rfl

lemma Keeps.map {o : Outcome σ α} (f : α → β) (h : o.Keeps vars) : (o.map f).Keeps vars := by
  cases o with
  | done v next => exact h
  | failed e stop => exact h

end Outcome

open Outcome

variable [TokenSource σ]

lemma Reader.keeps_read {s : Reader σ} (src : σ) (hs : s.vars = vars) :
    (s.read src).Keeps vars := by
  rw [Reader.read]
  split
  · exact hs
  · exact hs

lemma Reader.keeps_advance {s : Reader σ} (hs : s.vars = vars) : s.advance.Keeps vars :=
  Reader.keeps_read s.source hs

/-! ### Rules -/

/-- **Every token keeps the table**, and so does every error. -/
lemma contract_vars (vars : Variables) :
    Contract (fun s : Reader σ => s.vars = vars) fun _ stop => stop.vars = vars where
  advance hs _ _ _ := keeps_iff_ends.1 (Reader.keeps_advance hs)
  undefined hs _ := hs
  misplaced hs _ := hs
  computed hs _ := hs
  parenthesis hs _ := keeps_iff_ends.1 (Reader.keeps_advance hs)
  nested hs _ := hs

/-- The rule leaves the table as it is. -/
def Rule.Keeps (rule : Rule σ α) : Prop :=
  ∀ ⦃vars : Variables⦄ ⦃s : Reader σ⦄, s.vars = vars → (rule.run s).Keeps vars

namespace Parsing

/-- **Expressions do not touch the table**, whatever is in them and wherever they fail. -/
theorem keeps_factor [FloatFunctions] (depth : Nat) : (factor depth : Rule σ Value).Keeps :=
  fun vars _ hs => keeps_iff_ends.2 ((contract_vars vars).factor depth hs)

/-- A clause does not touch the table. -/
lemma keeps_comparison [FloatFunctions] {s : Reader σ} (hs : s.vars = vars) :
    (comparison s).Keeps vars := by
  rw [comparison_eq, keeps_iff_ends]
  exact (contract_vars vars).comparisonWith ((contract_vars vars).expression maxNesting) hs

/-- A statement that fails leaves the table as it is, if its expressions do. -/
lemma vars_of_statementWith_failed {σ : Type} [RereadableSource σ] {rule : Rule σ Value}
    {s stop : Reader σ} {e : Error}
    (hrule : rule.Ensures (fun t => t.vars = s.vars) fun _ t => t.vars = s.vars)
    (h : statementWith rule s = .failed e stop) : stop.vars = s.vars := by
  have hends : (statementWith rule s).Ends (fun _ => True) fun _ t => t.vars = s.vars :=
    (contract_vars s.vars).statementWith hrule
      (fun t ht => keeps_iff_ends.1 (Reader.keeps_read (RereadableSource.reset t.source) ht))
      (fun _ _ => trivial) (fun _ _ _ _ => trivial) rfl
  rwa [h] at hends

end Parsing

end Reckon
