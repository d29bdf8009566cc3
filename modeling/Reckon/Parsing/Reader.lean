import Reckon.Parsing.Source
import Reckon.Variables

/-!
A place in a source of tokens, and how reading from there ends.

* `Cursor`: the token to be looked at, and the source behind it;
* `Reader`: a cursor, and the table of the variables;
* `Outcome`: a value with the reader after it, or an error with the reader
  as it was when the error was found;
* `Reader.remaining`: how many tokens and faults there are from the
  current token to the end;
* `Reader.advance`: goes to the next token. `remaining_of_advance` says
  that the rest never grows, and shrinks unless the current token is the
  end;
* `Reader.store`: gives a variable a value.
-/

namespace Reckon

/-- A place in a source of tokens. -/
structure Cursor (σ : Type) where
  /-- The token to be looked at. -/
  current : Token
  /-- The source, from the token after it on. -/
  source : σ

/-- The place after the first token of a source. -/
def Cursor.start {σ : Type} [TokenSource σ] (src : σ) : Except LexError (Cursor σ) :=
  match TokenSource.next src with
  | (.ok t, rest) => .ok ⟨t, rest⟩
  | (.error e, _) => .error e

/-- A place in a source of tokens, and the table on which the statement works. -/
structure Reader (σ : Type) extends Cursor σ where
  vars : Variables

/-- How reading from a place ends. -/
inductive Outcome (σ α : Type) where
  /-- A value was read; reading goes on at `next`. -/
  | done (value : α) (next : Reader σ)
  /-- Reading ends with an error at `stop`. -/
  | failed (error : Error) (stop : Reader σ)

namespace Outcome

variable {σ α β : Type}

/-- Goes on from the value that was read. -/
def bind : Outcome σ α → (α → Reader σ → Outcome σ β) → Outcome σ β
  | done v next, f => f v next
  | failed e stop, _ => failed e stop

/-- Changes the value that was read. -/
def map (f : α → β) : Outcome σ α → Outcome σ β
  | done v next => done (f v) next
  | failed e stop => failed e stop

/-- The end of a computation that reads nothing. -/
def ofExcept (s : Reader σ) : Except Error α → Outcome σ α
  | .ok v => done v s
  | .error e => failed e s

/-- The value that was read, or the error. -/
def result : Outcome σ α → Except Error α
  | done v _ => .ok v
  | failed e _ => .error e

/-- Where reading ends. -/
def place : Outcome σ α → Reader σ
  | done _ next => next
  | failed _ stop => stop

@[simp] theorem bind_done (v : α) (next : Reader σ) (f : α → Reader σ → Outcome σ β) :
    (done v next).bind f = f v next := rfl

@[simp] theorem bind_failed (e : Error) (stop : Reader σ) (f : α → Reader σ → Outcome σ β) :
    (failed e stop : Outcome σ α).bind f = failed e stop := rfl

/-- A value comes out of two steps exactly if it comes out of the second one at
the place where the first one ended. -/
theorem bind_eq_done_iff {o : Outcome σ α} {f : α → Reader σ → Outcome σ β} {v : β}
    {next : Reader σ} :
    o.bind f = done v next ↔ ∃ u mid, o = done u mid ∧ f u mid = done v next := by
  cases o with
  | done u mid => simp [and_assoc]
  | failed e stop => simp

/-- A computation that reads nothing stays where it is. -/
theorem ofExcept_eq_done_iff {s next : Reader σ} {r : Except Error α} {v : α} :
    ofExcept s r = done v next ↔ r = .ok v ∧ s = next := by
  cases r <;> simp [ofExcept]

end Outcome

namespace Reader

open TokenSource

variable {σ : Type}

/-- The reader that starts at the first token of a source. -/
def start [TokenSource σ] (src : σ) (vars : Variables) : Except LexError (Reader σ) :=
  (Cursor.start src).map fun c => ⟨c, vars⟩

/-- Reads the next token of `src`. A fault leaves the current token what it is. -/
def read [TokenSource σ] (s : Reader σ) (src : σ) : Outcome σ Unit :=
  match next src with
  | (.ok t, rest) => .done () { s with current := t, source := rest }
  | (.error e, rest) => .failed (.lexical e) { s with source := rest }

/-- Goes to the next token. -/
def advance [TokenSource σ] (s : Reader σ) : Outcome σ Unit := s.read s.source

/-- Goes to the first token of the source again. -/
def rescan [RereadableSource σ] (s : Reader σ) : Outcome σ Unit :=
  s.read (RereadableSource.reset s.source)

/-- Gives a variable a value. -/
def store (s : Reader σ) (name : String) (v : Value) : Reader σ :=
  { s with vars := s.vars.set name v }

/-- The number of tokens and faults from the current token to the end, which does
not count itself. -/
def remaining [TokenSource σ] (s : Reader σ) : Nat :=
  left s.source + if s.current = .eof then 0 else 1

/-- Reading succeeds exactly if the source hands out a token, which becomes the
current one, over the same table. -/
theorem read_eq_done_iff [TokenSource σ] {s t : Reader σ} {src : σ} {u : Unit} :
    s.read src = .done u t ↔
      next src = (.ok t.current, t.source) ∧ t.vars = s.vars := by
  rw [read]
  split
  case h_1 tok rest hn =>
    rw [hn]
    constructor
    · intro h
      cases h
      exact ⟨rfl, rfl⟩
    · rintro ⟨h, hvars⟩
      cases t
      cases h
      cases hvars
      rfl
  case h_2 hn => simp [hn]

/-- Going to the next token never makes the rest longer, and makes it shorter
unless the current token is the end. -/
theorem remaining_of_advance [TokenSource σ] {s t : Reader σ} {u : Unit}
    (h : s.advance = .done u t) :
    t.remaining ≤ s.remaining ∧ (s.current ≠ .eof → t.remaining < s.remaining) := by
  have hn := (read_eq_done_iff.1 h).1
  by_cases ht : t.current = .eof
  · have hleft := left_of_end s.source (by rw [hn, ht])
    rw [hn] at hleft
    by_cases hs : s.current = .eof <;> simp only [remaining, ht, hs, if_true, if_false] <;> grind
  · have hleft := left_of_not_end s.source (by simpa only [hn, ne_eq, Except.ok.injEq] using ht)
    rw [hn] at hleft
    by_cases hs : s.current = .eof <;> simp only [remaining, ht, hs, if_true, if_false] <;> grind

/-- Going to the next token never makes the rest longer. -/
theorem remaining_le_of_advance [TokenSource σ] {s t : Reader σ} {u : Unit}
    (h : s.advance = .done u t) : t.remaining ≤ s.remaining :=
  (remaining_of_advance h).1

/-- Going to the next token from one that is not the end makes the rest shorter. -/
theorem remaining_lt_of_advance [TokenSource σ] {s t : Reader σ} {u : Unit}
    (hs : s.current ≠ .eof) (h : s.advance = .done u t) : t.remaining < s.remaining :=
  (remaining_of_advance h).2 hs

end Reader

end Reckon
