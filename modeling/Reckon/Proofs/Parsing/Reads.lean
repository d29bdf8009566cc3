import Mathlib.Tactic.ByContra
import Mathlib.Tactic.Lemma
import Reckon.Statement

/-!
Going through a source token by token.

* `TokenSource.outcomes`: the tokens and faults of a source up to its end,
  and `Reader.upcoming`, those from a place on;
* `Reader.start_cases`: a source starts with a fault, or at a place where
  they are upcoming;
* `Reader.Reads`: going past these tokens leads from one place to another.
  `reads_append_iff` cuts the way in two, and `upcoming_eq_iff` says that a
  rest without faults is the same as a way to the end;
* `Outcome.ending`: how reading ends, without the place of an error, which
  turns the composition of rules into that of computations.
-/

namespace Reckon

variable {σ : Type}

/-! ### The tokens of a source -/

namespace TokenSource

variable [TokenSource σ]

/-- The tokens and faults of a source in order, without its end. -/
def outcomes (src : σ) : List (Except LexError Token) :=
  if _ : Lexer.isEnd (next src).1 then [] else (next src).1 :: outcomes (next src).2
termination_by left src
decreasing_by
  have hleft := left_of_not_end src fun h => absurd (Lexer.isEnd_iff.2 h) ‹_›
  omega

lemma outcomes_of_end {src : σ} (h : (next src).1 = .ok .eof) : outcomes src = [] := by
  rw [outcomes]
  exact dif_pos (Lexer.isEnd_iff.2 h)

lemma outcomes_of_not_end {src : σ} (h : (next src).1 ≠ .ok .eof) :
    outcomes src = (next src).1 :: outcomes (next src).2 := by
  rw [outcomes]
  exact dif_neg fun hend => h (Lexer.isEnd_iff.1 hend)

/-- A source that hands out what another one does has the same tokens and faults. -/
lemma outcomes_map {τ : Type} [TokenSource τ] {f : σ → τ}
    (h : ∀ src, next (f src) = ((next src).1, f (next src).2)) (src : σ) :
    outcomes (f src) = outcomes src := by
  induction hn : left src using Nat.strongRecOn generalizing src with
  | _ n ih =>
    by_cases hend : (next src).1 = .ok .eof
    · rw [outcomes_of_end hend, outcomes_of_end (by rw [h, hend])]
    · have hleft := left_of_not_end src hend
      have hrest := ih (left (next src).2) (by omega) (next src).2 rfl
      rw [outcomes_of_not_end hend, outcomes_of_not_end (by rwa [h]), h, hrest]

end TokenSource

open TokenSource

/-- The outcomes of a lexer are those of the text that it did not read yet. -/
lemma Lexer.outcomes_eq (l : Lexer) : TokenSource.outcomes l = Lexer.outcomes l.rest := by
  induction hn : left l using Nat.strongRecOn generalizing l with
  | _ n ih =>
    by_cases hend : (scan l.rest).1 = .ok .eof
    · rw [TokenSource.outcomes_of_end hend, Lexer.outcomes_of_end hend]
    · have hleft := left_of_not_end l hend
      have hrest := ih (left (TokenSource.next l).2) (by omega) (TokenSource.next l).2 rfl
      rw [TokenSource.outcomes_of_not_end hend, Lexer.outcomes_of_not_end hend, hrest]
      rfl

/-! ### Places and the tokens between them -/

namespace Reader

variable [TokenSource σ]

/-- The tokens and faults from the current token on, without the end. -/
def upcoming (s : Reader σ) : List (Except LexError Token) :=
  if s.current = .eof then [] else .ok s.current :: outcomes s.source

lemma upcoming_of_eof {s : Reader σ} (h : s.current = .eof) : s.upcoming = [] := if_pos h

lemma upcoming_of_ne_eof {s : Reader σ} (h : s.current ≠ .eof) :
    s.upcoming = .ok s.current :: outcomes s.source := if_neg h

/-- A source whose first token is read has the outcomes that are upcoming then. -/
lemma outcomes_eq_upcoming {src : σ} {t : Reader σ} (h : next src = (.ok t.current, t.source)) :
    outcomes src = t.upcoming := by
  by_cases ht : t.current = .eof
  · rw [outcomes_of_end (by rw [h, ht]), upcoming_of_eof ht]
  · have hne : (next src).1 ≠ .ok .eof := by
      rw [h]
      simpa using ht
    rw [outcomes_of_not_end hne, upcoming_of_ne_eof ht, h]

lemma start_eq_ok_iff {src : σ} {vars : Variables} {s : Reader σ} :
    start src vars = .ok s ↔ next src = (.ok s.current, s.source) ∧ s.vars = vars := by
  rw [start, Cursor.start]
  rcases hn : next src with ⟨_ | t, rest⟩
  · simp [Except.map]
  · rcases s with ⟨⟨current, source⟩, vars'⟩
    simp [Except.map, and_assoc, eq_comm]

lemma vars_of_start {src : σ} {vars : Variables} {s : Reader σ} (h : start src vars = .ok s) :
    s.vars = vars :=
  (start_eq_ok_iff.1 h).2

/-- Where a source starts, all of it is upcoming. -/
lemma outcomes_of_start {src : σ} {vars : Variables} {s : Reader σ} (h : start src vars = .ok s) :
    outcomes src = s.upcoming :=
  outcomes_eq_upcoming (start_eq_ok_iff.1 h).1

lemma start_eq_error_iff {src : σ} {vars : Variables} {fault : LexError} :
    start src vars = .error fault ↔ (next src).1 = .error fault := by
  rw [start, Cursor.start]
  rcases next src with ⟨_ | t, rest⟩ <;> simp [Except.map]

/-- Going to the next token fails with the fault in its place, behind which the source then
is. -/
lemma next_of_advance_failed {s stop : Reader σ} {fault : LexError}
    (h : s.advance = .failed (.lexical fault) stop) :
    next s.source = (.error fault, stop.source) := by
  rw [advance, read] at h
  rcases hsrc : next s.source with ⟨e | tok, rest⟩ <;> rw [hsrc] at h <;> cases h
  rfl

/-- A source starts with a fault, or at a place from which its tokens and faults are
upcoming. -/
lemma start_cases (src : σ) (vars : Variables) :
    (∃ fault rest, start src vars = .error fault ∧ outcomes src = .error fault :: rest) ∨
      ∃ s, start src vars = .ok s ∧ outcomes src = s.upcoming := by
  rcases hsrc : next src with ⟨fault | tok, rest⟩
  · refine .inl ⟨fault, outcomes rest, ?_, ?_⟩
    · rw [start, Cursor.start, hsrc]
      rfl
    · rw [outcomes_of_not_end (by simp [hsrc]), hsrc]
  · refine .inr ⟨⟨⟨tok, rest⟩, vars⟩, start_eq_ok_iff.2 ⟨hsrc, rfl⟩, ?_⟩
    exact outcomes_eq_upcoming hsrc

/-- Going to the next token is starting with the rest of the source. -/
lemma advance_of_start_ok {s t : Reader σ} (h : start s.source s.vars = .ok t) :
    s.advance = .done () t :=
  read_eq_done_iff.2 (start_eq_ok_iff.1 h)

lemma start_of_advance {s t : Reader σ} (h : s.advance = .done () t) :
    start s.source s.vars = .ok t :=
  start_eq_ok_iff.2 (read_eq_done_iff.1 h)

lemma advance_of_start_error {s : Reader σ} {fault : LexError}
    (h : start s.source s.vars = .error fault) :
    ∃ t, s.advance = .failed (.lexical fault) t := by
  rw [start, Cursor.start] at h
  rw [advance, read]
  rcases hsrc : next s.source with ⟨e | tok, rest⟩ <;> rw [hsrc] at h <;> cases h
  exact ⟨_, rfl⟩

/-- The first one of what is upcoming is the current token. -/
lemma eq_of_upcoming_cons {s : Reader σ} {tok : Token} {rest : List (Except LexError Token)}
    (h : s.upcoming = .ok tok :: rest) : s.current = tok ∧ outcomes s.source = rest := by
  by_cases hs : s.current = .eof
  · rw [upcoming_of_eof hs] at h
    cases h
  · rw [upcoming_of_ne_eof hs] at h
    cases h
    exact ⟨rfl, rfl⟩

/-- No fault is the first one of what is upcoming. -/
lemma upcoming_ne_fault (s : Reader σ) (fault : LexError) (rest : List (Except LexError Token)) :
    s.upcoming ≠ .error fault :: rest := by
  by_cases hs : s.current = .eof
  · simp [upcoming_of_eof hs]
  · simp [upcoming_of_ne_eof hs]

/-- A source that starts with a token starts at that token. -/
lemma exists_start_of_outcomes {src : σ} {tok : Token} {rest : List (Except LexError Token)}
    (h : outcomes src = .ok tok :: rest) (vars : Variables) :
    ∃ s, start src vars = .ok s ∧ s.current = tok ∧ outcomes s.source = rest := by
  rcases start_cases src vars with ⟨fault, rest', -, hfault⟩ | ⟨s, hs, hupcoming⟩
  · rw [hfault] at h
    cases h
  · exact ⟨s, hs, eq_of_upcoming_cons (hupcoming.symm.trans h)⟩

/-- Going to the next token fails only because of a fault in its place. -/
lemma exists_fault_of_advance {s t : Reader σ} {e : Error} (h : s.advance = .failed e t) :
    ∃ fault rest, e = .lexical fault ∧ outcomes s.source = .error fault :: rest := by
  rcases start_cases s.source s.vars with ⟨fault, rest, hfault, houtcomes⟩ | ⟨m, hm, -⟩
  · obtain ⟨stop, hstop⟩ := advance_of_start_error hfault
    rw [h] at hstop
    cases hstop
    exact ⟨fault, rest, rfl, houtcomes⟩
  · rw [advance_of_start_ok hm] at h
    cases h

/-- Going to the next token fails where a fault is in its place. -/
lemma exists_advance_of_fault {s : Reader σ} {fault : LexError}
    {rest : List (Except LexError Token)} (h : outcomes s.source = .error fault :: rest) :
    ∃ t, s.advance = .failed (.lexical fault) t := by
  rcases start_cases s.source s.vars with ⟨fault', rest', hfault, houtcomes⟩ | ⟨m, -, hupcoming⟩
  · rw [h] at houtcomes
    cases houtcomes
    exact advance_of_start_error hfault
  · exact absurd (hupcoming.symm.trans h) (m.upcoming_ne_fault fault rest)

/-- Going past the tokens in order leads from the first place to the second. -/
def Reads : Reader σ → List Token → Reader σ → Prop
  | s, [], u => s = u
  | s, tok :: ts, u => s.current = tok ∧ ∃ t, s.advance = .done () t ∧ Reads t ts u

@[simp] lemma reads_nil {s u : Reader σ} : s.Reads [] u ↔ s = u := Iff.rfl

@[simp] lemma reads_cons {s u : Reader σ} {tok : Token} {ts : List Token} :
    s.Reads (tok :: ts) u ↔ s.current = tok ∧ ∃ t, s.advance = .done () t ∧ t.Reads ts u :=
  Iff.rfl

/-- A way past two lists of tokens has a place between them. -/
lemma reads_append_iff {s u : Reader σ} {ts us : List Token} :
    s.Reads (ts ++ us) u ↔ ∃ t, s.Reads ts t ∧ t.Reads us u := by
  induction ts generalizing s with
  | nil => simp
  | cons tok ts ih =>
      simp only [List.cons_append, reads_cons, ih]
      constructor
      · rintro ⟨hs, t, ht, m, htm, hmu⟩
        exact ⟨m, ⟨hs, t, ht, htm⟩, hmu⟩
      · rintro ⟨m, ⟨hs, t, ht, htm⟩, hmu⟩
        exact ⟨hs, t, ht, m, htm, hmu⟩

lemma vars_of_advance {s t : Reader σ} (h : s.advance = .done () t) :
    t.vars = s.vars :=
  (read_eq_done_iff.1 h).2

/-- Behind the current token, what is upcoming is what is upcoming at the next place. -/
lemma upcoming_of_advance {s t : Reader σ} (hs : s.current ≠ .eof) (h : s.advance = .done () t) :
    s.upcoming = .ok s.current :: t.upcoming := by
  rw [upcoming_of_ne_eof hs, outcomes_eq_upcoming (read_eq_done_iff.1 h).1]

/-- Going past tokens keeps the table. -/
lemma vars_of_reads {s u : Reader σ} {ts : List Token} (h : s.Reads ts u) :
    u.vars = s.vars := by
  induction ts generalizing s with
  | nil => rw [reads_nil.1 h]
  | cons tok ts ih =>
      obtain ⟨-, t, hst, htu⟩ := h
      rw [ih htu, vars_of_advance hst]

/-- One more token does not change the table either. -/
lemma vars_after {s m t : Reader σ} {ts : List Token} (hsm : s.Reads ts m)
    (hmt : m.advance = .done () t) : t.vars = s.vars := by
  rw [vars_of_advance hmt, vars_of_reads hsm]

/-- What is passed comes first in what is upcoming. -/
lemma upcoming_of_reads {s u : Reader σ} {ts : List Token} (h : s.Reads ts u)
    (hts : Token.eof ∉ ts) : s.upcoming = ts.map .ok ++ u.upcoming := by
  induction ts generalizing s with
  | nil => rw [reads_nil.1 h]; rfl
  | cons tok ts ih =>
      obtain ⟨rfl, t, hst, htu⟩ := h
      have hne : s.current ≠ .eof := fun heof => hts (by simp [heof])
      rw [upcoming_of_advance hne hst, ih htu fun hmem => hts (by simp [hmem])]
      rfl

/-- If no fault comes before the end, then all that is upcoming can be passed. -/
lemma exists_reads_of_upcoming {s : Reader σ} {ts : List Token} (h : s.upcoming = ts.map .ok) :
    ∃ u, s.Reads ts u ∧ u.current = .eof := by
  induction ts generalizing s with
  | nil =>
      refine ⟨s, rfl, ?_⟩
      by_contra hne
      rw [upcoming_of_ne_eof hne] at h
      cases h
  | cons tok ts ih =>
      obtain ⟨htok, hrest⟩ := eq_of_upcoming_cons h
      rcases start_cases s.source s.vars with ⟨fault, rest, -, hfault⟩ | ⟨m, hm, hupcoming⟩
      · rw [hfault] at hrest
        cases ts <;> cases hrest
      · obtain ⟨u, hmu, hu⟩ := ih (hupcoming.symm.trans hrest)
        exact ⟨u, ⟨htok, m, advance_of_start_ok hm, hmu⟩, hu⟩

/-- Nothing but these tokens is upcoming exactly if they can be passed and the end
comes after them. -/
lemma upcoming_eq_iff {s : Reader σ} {ts : List Token} (hts : Token.eof ∉ ts) :
    s.upcoming = ts.map .ok ↔ ∃ u, s.Reads ts u ∧ u.current = .eof := by
  refine ⟨exists_reads_of_upcoming, ?_⟩
  rintro ⟨u, hsu, hu⟩
  rw [upcoming_of_reads hsu hts, upcoming_of_eof hu, List.append_nil]

end Reader

/-! ### Endings -/

variable {α β : Type}

@[simp] lemma ok_bind (v : α) (f : α → Except Error β) : (Except.ok v >>= f) = f v := rfl

@[simp] lemma error_bind (e : Error) (f : α → Except Error β) :
    (Except.error e >>= f) = .error e := rfl

lemma map_eq_error_iff {r : Except Error α} {f : α → β} {e : Error} :
    r.map f = .error e ↔ r = .error e := by
  cases r <;> simp [Except.map]

namespace Outcome

lemma result_map (f : α → β) (o : Outcome σ α) : (o.map f).result = o.result.map f := by
  cases o <;> rfl

lemma place_map (f : α → β) (o : Outcome σ α) : (o.map f).place = o.place := by
  cases o <;> rfl

/-- The value with the place after it, or the error alone. -/
def ending : Outcome σ α → Except Error (α × Reader σ)
  | done v next => .ok (v, next)
  | failed e _ => .error e

lemma result_of_ending_error {o : Outcome σ α} {e : Error} (h : o.ending = .error e) :
    o.result = .error e := by
  cases o with
  | done v next => cases h
  | failed e' stop =>
      cases h
      rfl

lemma ending_bind (o : Outcome σ α) (f : α → Reader σ → Outcome σ β) :
    (o.bind f).ending = o.ending >>= fun p => (f p.1 p.2).ending := by
  cases o <;> rfl

lemma ending_ofExcept (s : Reader σ) (r : Except Error α) :
    (ofExcept s r).ending = r >>= fun v => .ok (v, s) := by
  cases r <;> rfl

end Outcome

end Reckon
