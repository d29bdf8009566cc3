import Reckon.Parsing.Reader
import Reckon.Value.Arithmetic

/-!
Rules of a grammar, and how larger ones are made of smaller ones.

A rule reads something at a place and uses up at least one token if it
succeeds, which is why a repetition of rules ends.

* `Rule`: a way to read, with the proof that success shortens the rest;
* `Rule.chain`: operands joined by operators of one precedence, computed
  from left to right while they are read;
* `Rule.enclosed`: what a rule reads, up to a closing parenthesis.
-/

namespace Reckon

/-- A rule of a grammar. -/
structure Rule (σ α : Type) [TokenSource σ] where
  /-- Reads at a place. -/
  run : Reader σ → Outcome σ α
  /-- Success uses up a token. -/
  shortens : ∀ {s v next}, run s = .done v next → next.remaining < s.remaining

namespace Rule

variable {σ : Type} [TokenSource σ]

/-- Goes past the current token, which is the last one of something with the
value `v`. -/
def accept {α : Type} (s : Reader σ) (v : α) : Outcome σ α := s.advance.map fun _ => v

theorem accept_eq_done_iff {α : Type} {s next : Reader σ} {v w : α} :
    accept s v = .done w next ↔ s.advance = .done () next ∧ v = w := by
  rw [accept]
  cases s.advance with
  | done u t => simp [Outcome.map, and_comm]
  | failed e stop => simp [Outcome.map]

/-- Accepting a token other than the end shortens the rest. -/
theorem remaining_lt_of_accept {α : Type} {s next : Reader σ} {v w : α}
    (hs : s.current ≠ .eof) (h : accept s v = .done w next) : next.remaining < s.remaining :=
  Reader.remaining_lt_of_advance hs (accept_eq_done_iff.1 h).1

/-! ### Chains of operators -/

/-- Goes on with a chain whose value so far is `left`: as long as the current
token is an operator of the chain, reads the operand after it and computes. -/
def chainFrom (operator? : Token → Option ArithOp) (operand : Rule σ Value) (left : Value)
    (s : Reader σ) : Outcome σ Value :=
  match operator? s.current with
  | none => .done left s
  | some op =>
      match _ : s.advance with
      | .failed e stop => .failed e stop
      | .done _ t =>
          match _ : operand.run t with
          | .failed e stop => .failed e stop
          | .done right next =>
              match left.apply op right with
              | .error e => .failed e next
              | .ok v => chainFrom operator? operand v next
termination_by s.remaining
decreasing_by
  exact Nat.lt_of_lt_of_le (operand.shortens ‹_›) (Reader.remaining_le_of_advance ‹_›)

/-- How a chain goes on: with no operator it is complete, else an operand follows,
and the chain goes on from what the two come to. -/
theorem chainFrom_eq (operator? : Token → Option ArithOp) (operand : Rule σ Value) (left : Value)
    (s : Reader σ) :
    chainFrom operator? operand left s =
      match operator? s.current with
      | none => .done left s
      | some op =>
          s.advance.bind fun _ t => (operand.run t).bind fun right next =>
            (Outcome.ofExcept next (left.apply op right)).bind (chainFrom operator? operand) := by
  rw [chainFrom]
  cases operator? s.current with
  | none => rfl
  | some op =>
      cases s.advance with
      | failed e stop => rfl
      | done u t =>
          dsimp only [Outcome.bind_done]
          cases operand.run t with
          | failed e stop => rfl
          | done right next =>
              dsimp only [Outcome.bind_done]
              cases left.apply op right <;> rfl

/-- Going on with a chain never makes the rest longer. -/
theorem remaining_le_of_chainFrom {operator? : Token → Option ArithOp} {operand : Rule σ Value}
    {left v : Value} {s next : Reader σ} (h : chainFrom operator? operand left s = .done v next) :
    next.remaining ≤ s.remaining := by
  fun_induction chainFrom operator? operand left s with
  | case1 => cases h; exact Nat.le_refl _
  | case2 => cases h
  | case3 => cases h
  | case4 => cases h
  | case5 left s op _ _ t hs right u ht w _ ih =>
      exact Nat.le_trans (ih h)
        (Nat.le_of_lt (Nat.lt_of_lt_of_le (operand.shortens ht)
          (Reader.remaining_le_of_advance hs)))

/-- One operand, and then any number of operators with an operand each. The
value is computed from left to right. -/
def chain (operator? : Token → Option ArithOp) (operand : Rule σ Value) : Rule σ Value where
  run s := (operand.run s).bind (chainFrom operator? operand)
  shortens h := by
    obtain ⟨left, mid, hrun, hchain⟩ := Outcome.bind_eq_done_iff.1 h
    exact Nat.lt_of_le_of_lt (remaining_le_of_chainFrom hchain) (operand.shortens hrun)

/-! ### Parentheses -/

/-- Goes past a closing parenthesis, after something with the value `v`. -/
def close {α : Type} (v : α) (s : Reader σ) : Outcome σ α :=
  if s.current = .rparen then accept s v else .failed (.syntactic (.closingExpected s.current)) s

/-- What the rule reads after the current token, up to a closing parenthesis. -/
def enclosed {α : Type} (inner : Rule σ α) (s : Reader σ) : Outcome σ α :=
  s.advance.bind fun _ t => (inner.run t).bind close

/-- Something in parentheses shortens the rest. -/
theorem remaining_lt_of_enclosed {α : Type} {inner : Rule σ α} {s next : Reader σ} {v : α}
    (h : enclosed inner s = .done v next) : next.remaining < s.remaining := by
  obtain ⟨_, t, ht, h⟩ := Outcome.bind_eq_done_iff.1 h
  obtain ⟨w, u, hu, h⟩ := Outcome.bind_eq_done_iff.1 h
  have hclose : next.remaining < u.remaining := by
    rw [close] at h
    split at h
    case isTrue hr => exact remaining_lt_of_accept (by simp [hr]) h
    case isFalse => cases h
  have hinner := inner.shortens hu
  have hopen := Reader.remaining_le_of_advance ht
  omega

end Rule

end Reckon
