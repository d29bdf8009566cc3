import Reckon.Error

/-!
Where tokens come from.

A source hands out one token or one fault at a time, and after finitely
many of them the end. How many come before the end is part of the source,
and its laws fix that number: it goes down by one with every token or
fault, and at the end it is zero and stays so.

* `TokenSource`: the sources;
* `RereadableSource`: the sources that can be read again from their start.
-/

namespace Reckon

/-- A source of tokens. -/
class TokenSource (σ : Type) where
  /-- The next token, or the fault in its place, and the source after it. -/
  next : σ → Except LexError Token × σ
  /-- The number of tokens and faults that come before the end. -/
  left : σ → Nat
  /-- At the end nothing is left, and the end stays the end. -/
  left_of_end : ∀ src, (next src).1 = .ok .eof → left src = 0 ∧ left (next src).2 = 0
  /-- Anything else is used up. -/
  left_of_not_end : ∀ src, (next src).1 ≠ .ok .eof → left src = left (next src).2 + 1

/-- A source of tokens that can be read again. -/
class RereadableSource (σ : Type) extends TokenSource σ where
  /-- The source at its start. -/
  reset : σ → σ

end Reckon
