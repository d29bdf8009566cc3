import Reckon.Proofs.Parsing.Trail

/-!
Counting what is read.

A source can be asked for its first tokens and faults, as many as one likes,
since at its end it hands out the end again and again. A meter on a source
counts how far it was ever read, also if it was read again from its start.
It changes nothing else, so a rule can be run on the metered source to find
out how much of the source decides what it comes to.

* `TokenSource.first`: the first tokens and faults of a source;
* `Reader.Sees.first_eq` and `Reader.exists_sees_of_first`: what is seen
  from a place are the first tokens and faults after it;
* `Metered`: a source with a meter, and `Reader.Sees.furthest_eq`, how far
  the meter goes;
* `Outcome.DecidedBy`: the first tokens and faults after a place decide how
  reading ends there;
* `Outcome.Retraced.exists_decidedBy`: those that the meter counts do.
-/

namespace Reckon

variable {σ τ α : Type}

/-! ### The first tokens and faults of a source -/

namespace TokenSource

variable [TokenSource σ] [TokenSource τ]

/-- The results of asking so many times for the next token. -/
def first : Nat → σ → List (Except LexError Token)
  | 0, _ => []
  | k + 1, src => (next src).1 :: first k (next src).2

lemma length_first (k : Nat) (src : σ) : (first k src).length = k := by
  induction k generalizing src with
  | zero => rfl
  | succ k ih => rw [first, List.length_cons, ih]

lemma take_first {j k : Nat} (h : j ≤ k) (src : σ) : (first k src).take j = first j src := by
  induction j generalizing k src with
  | zero => rfl
  | succ j ih =>
      obtain ⟨k, rfl⟩ : ∃ i, k = i + 1 := ⟨k - 1, by omega⟩
      rw [first, List.take_succ_cons, ih (by omega), first]

/-- Sources that start in the same way for long do so for a shorter time. -/
lemma first_eq_of_le {j k : Nat} {src : σ} {src' : τ} (hjk : j ≤ k)
    (h : first k src' = first k src) : first j src' = first j src := by
  rw [← take_first hjk, ← take_first hjk, h]

end TokenSource

open TokenSource

namespace Reader

variable [TokenSource σ] [TokenSource τ]

variable {n : Nat} {vars : Variables} {fault : LexError}

lemma first_of_start {src : σ} {s : Reader σ} (h : start src vars = .ok s) (n : Nat) :
    first (n + 1) src = .ok s.current :: first n s.source := by
  rw [first, (start_eq_ok_iff.1 h).1]

/-- A source that starts in the same way as another one starts at the same token, after which
it goes on in the same way. -/
lemma exists_start_of_first {src : σ} {src' : τ} {s : Reader σ} (hs : start src vars = .ok s)
    (h : first (n + 1) src' = first (n + 1) src) (vars' : Variables) :
    ∃ t, start src' vars' = .ok t ∧ t.current = s.current ∧
      first n t.source = first n s.source := by
  rw [first_of_start hs, first, List.cons.injEq] at h
  exact ⟨⟨⟨s.current, (next src').2⟩, vars'⟩, start_eq_ok_iff.2 ⟨Prod.ext h.1 rfl, rfl⟩, rfl, h.2⟩

/-- A source that starts in the same way as another one starts with the same fault. -/
lemma start_error_of_first {src : σ} {src' : τ} (hs : start src vars = .error fault)
    (h : first (n + 1) src' = first (n + 1) src) (vars' : Variables) :
    start src' vars' = .error fault := by
  rw [first, first, start_eq_error_iff.1 hs, List.cons.injEq] at h
  exact start_eq_error_iff.2 h.1

/-- Where the sources go on in the same way, the next token is the same. -/
lemma exists_advance_of_first {s m : Reader σ} {t : Reader τ} (hsm : s.advance = .done () m)
    (h : first (n + 1) t.source = first (n + 1) s.source) :
    ∃ u, t.advance = .done () u ∧ u.vars = t.vars ∧ u.current = m.current ∧
      first n u.source = first n m.source := by
  obtain ⟨u, hu, hcurrent, hrest⟩ := exists_start_of_first (start_of_advance hsm) h t.vars
  exact ⟨u, advance_of_start_ok hu, vars_of_start hu, hcurrent, hrest⟩

/-- Where the sources go on in the same way, the next fault is the same. -/
lemma exists_advance_failed_of_first {s stop : Reader σ} {t : Reader τ}
    (hs : s.advance = .failed (.lexical fault) stop)
    (h : first (n + 1) t.source = first (n + 1) s.source) :
    ∃ stop', t.advance = .failed (.lexical fault) stop' := by
  have hstart : start s.source s.vars = .error fault :=
    start_eq_error_iff.2 (by rw [next_of_advance_failed hs])
  exact advance_of_start_error (start_error_of_first hstart h t.vars)

/-- What is seen from a place are the current token and what the source starts with. -/
lemma Sees.first_eq {s stop : Reader σ} {ts : List Token} {last : Except LexError Token}
    (h : s.Sees ts last stop) :
    .ok s.current :: first ts.length s.source = ts.map .ok ++ [last] := by
  induction h with
  | token s => rfl
  | @fault s stop fault h =>
      rw [List.length_singleton, first, first, next_of_advance_failed h]
      rfl
  | @pass s t stop ts last hst rest ih =>
      have hnext : next s.source = (.ok t.current, t.source) := (read_eq_done_iff.1 hst).1
      rw [List.length_cons, first, hnext, ih]
      rfl

/-- A fault is met behind some token. -/
lemma Sees.exists_eq_cons {s stop : Reader σ} {ts : List Token} {fault : LexError}
    (h : s.Sees ts (.error fault) stop) : ∃ us, ts = s.current :: us := by
  cases h with
  | fault => exact ⟨[], rfl⟩
  | pass => exact ⟨_, rfl⟩

/-- Whatever the source starts with behind the current token is seen from the place. -/
lemma exists_sees_of_first {s : Reader σ} {ts : List Token} {last : Except LexError Token}
    (h : .ok s.current :: first ts.length s.source = ts.map .ok ++ [last]) :
    ∃ stop, s.Sees ts last stop := by
  induction ts generalizing s with
  | nil =>
      cases h
      exact ⟨s, .token s⟩
  | cons tok ts ih =>
      rw [List.length_cons, first, List.map_cons, List.cons_append, List.cons.injEq] at h
      obtain ⟨hcurrent, hrest⟩ := h
      cases hcurrent
      rcases start_cases s.source s.vars with ⟨fault, rest, hstart, -⟩ | ⟨t, hstart, -⟩
      · obtain ⟨stop, hstop⟩ := advance_of_start_error hstart
        rw [start_eq_error_iff.1 hstart] at hrest
        cases ts with
        | nil =>
            cases hrest
            exact ⟨stop, .fault hstop⟩
        | cons => cases hrest
      · have hnext : next s.source = (.ok t.current, t.source) := (start_eq_ok_iff.1 hstart).1
        rw [hnext] at hrest
        obtain ⟨stop, hstop⟩ := ih hrest
        exact ⟨stop, .pass (advance_of_start_ok hstart) hstop⟩

end Reader

/-! ### Meters -/

/-- A source with a meter. -/
structure Metered (σ : Type) where
  source : σ
  /-- How many tokens and faults were handed out since the start. -/
  position : Nat
  /-- How many of them were handed out when the most were. -/
  furthest : Nat
  position_le : position ≤ furthest

namespace Metered

/-- The meter of a source that nothing was read of. -/
def ofSource (src : σ) : Metered σ := ⟨src, 0, 0, Nat.le_refl 0⟩

/-- The next token or fault, which is counted. -/
def next [TokenSource σ] (m : Metered σ) : Except LexError Token × Metered σ :=
  ((TokenSource.next m.source).1,
    ⟨(TokenSource.next m.source).2, m.position + 1, max m.furthest (m.position + 1),
      Nat.le_max_right _ _⟩)

/-- The source at its start. What was read of it before stays known. -/
def reset [RereadableSource σ] (m : Metered σ) : Metered σ :=
  ⟨RereadableSource.reset m.source, 0, m.furthest, Nat.zero_le _⟩

instance [TokenSource σ] : TokenSource (Metered σ) where
  next := next
  left m := left m.source
  left_of_end m h := left_of_end m.source h
  left_of_not_end m h := left_of_not_end m.source h

instance [RereadableSource σ] : RereadableSource (Metered σ) where
  reset := reset

variable [TokenSource σ]

/-- The meter changes nothing of what is read. -/
lemma first_source (k : Nat) (m : Metered σ) : first k m = first k m.source := by
  induction k generalizing m with
  | zero => rfl
  | succ k ih =>
      rw [first, first, ih]
      rfl

lemma first_ofSource (k : Nat) (src : σ) : first k (ofSource src) = first k src :=
  first_source k (ofSource src)

end Metered

/-- The meter after one more token. -/
lemma Reader.meter_of_advance [TokenSource σ] {s t : Reader (Metered σ)}
    (h : s.advance = .done () t) : t.source = s.source.next.2 := by
  have hnext : s.source.next = (.ok t.current, t.source) := (read_eq_done_iff.1 h).1
  rw [hnext]

/-- The meter after a fault. -/
lemma Reader.meter_of_fault [TokenSource σ] {s stop : Reader (Metered σ)} {fault : LexError}
    (h : s.advance = .failed (.lexical fault) stop) : stop.source = s.source.next.2 := by
  have hnext : s.source.next = (.error fault, stop.source) := next_of_advance_failed h
  rw [hnext]

/-- The meter counts all that is seen. -/
lemma Reader.Sees.furthest_eq [TokenSource σ] {s stop : Reader (Metered σ)} {ts : List Token}
    {last : Except LexError Token} (h : s.Sees ts last stop) :
    stop.source.furthest = max s.source.furthest (s.source.position + ts.length) := by
  induction h with
  | token s =>
      have hle := s.source.position_le
      simp only [List.length_nil]
      omega
  | fault h =>
      rw [Reader.meter_of_fault h]
      rfl
  | @pass s t stop ts last hst rest ih =>
      rw [ih, Reader.meter_of_advance hst, List.length_cons]
      dsimp only [Metered.next]
      omega

/-! ### What decides how reading ends -/

namespace Outcome

variable [TokenSource σ] [TokenSource τ]

/-- The current token and so many tokens and faults after it decide how reading from the place
ends: at any place with the same ones, over the same table, `g` comes to the same. And if
reading ends with a fault, then it is the last one of them, and the only one. -/
structure DecidedBy (n : Nat) (s : Reader σ) (o : Outcome σ α) (g : Reader τ → Outcome τ α) :
    Prop where
  result_eq : ∀ t, t.vars = s.vars → t.current = s.current →
    first n t.source = first n s.source → (g t).result = o.result
  fault : ∀ fault, o.result = .error (.lexical fault) →
    ∃ ts : List Token, first n s.source = ts.map .ok ++ [.error fault]

/-- **What is looked at decides**, and the meter counts it. -/
theorem Retraced.exists_decidedBy {s : Reader (Metered σ)} {o : Outcome (Metered σ) α}
    {g : Reader τ → Outcome τ α} (h : Retraced s o g) :
    ∃ n, o.place.source.furthest = max s.source.furthest (s.source.position + n) ∧
      o.DecidedBy n s g := by
  obtain ⟨ts, last, hsees, -, hlast, hretrace⟩ := h
  refine ⟨ts.length, hsees.furthest_eq, fun t hvars hcurrent hfirst => ?_, fun fault hfault => ?_⟩
  · have ht : .ok t.current :: first ts.length t.source = ts.map .ok ++ [last] := by
      rw [hcurrent, hfirst]
      exact hsees.first_eq
    obtain ⟨stop, hstop⟩ := Reader.exists_sees_of_first ht
    rw [hretrace t stop hvars hstop, result_moveTo]
  · cases o with
    | done v u => cases hfault
    | failed e u =>
        cases hfault
        obtain rfl := hlast
        obtain ⟨us, rfl⟩ := hsees.exists_eq_cons
        exact ⟨us, (List.cons.inj hsees.first_eq).2⟩

end Outcome

end Reckon
