import Reckon.Proofs.Parsing.Completeness
import Reckon.Proofs.Parsing.Frame

/-!
What reading looks at.

From a place on, a rule passes some tokens, and then it has one more token in
front of it, or has met a fault. It looks at nothing else. So wherever the
same tokens can be passed and the same is met, over the same table, the rule
ends in the same way, whatever comes after that.

* `Reader.Sees`: from a place on, these tokens can be passed, and this is met
  behind them;
* `Outcome.Retraced`: the way to where reading ends. The names that were
  passed have values, a fault or a missing name is what was met last, and
  wherever the same is seen, the other rule ends in the same way;
* `Rule.Retraced.chainFrom`: the invariant of a chain;
* `retraced_factor`: the main statement, by induction on the number of
  parentheses that may be opened, and `retraced_comparison`, which carries it
  to the end of a text.
-/

namespace Reckon

variable {σ τ α β : Type}

/-! ### What is seen from a place -/

namespace Reader

section Sees

variable [TokenSource σ]

/-- From the place on, these tokens can be passed, and behind them this is met: a token, in
front of which the second place is, or a fault, behind which it is. -/
inductive Sees : Reader σ → List Token → Except LexError Token → Reader σ → Prop
  | token (s : Reader σ) : Sees s [] (.ok s.current) s
  | fault {s stop : Reader σ} {fault : LexError} (h : s.advance = .failed (.lexical fault) stop) :
      Sees s [s.current] (.error fault) stop
  | pass {s t stop : Reader σ} {ts : List Token} {last : Except LexError Token}
      (h : s.advance = .done () t) (rest : Sees t ts last stop) :
      Sees s (s.current :: ts) last stop

/-- The current token is the first that is seen. -/
lemma Sees.head? {s stop : Reader σ} {ts : List Token} {last : Except LexError Token}
    (h : s.Sees ts last stop) : (ts.map Except.ok ++ [last]).head? = some (.ok s.current) := by
  cases h <;> rfl

/-- A token is met where the way past the others leads. -/
lemma sees_ok_iff {s u : Reader σ} {ts : List Token} {tok : Token} :
    s.Sees ts (.ok tok) u ↔ s.Reads ts u ∧ u.current = tok := by
  constructor
  · intro h
    generalize hlast : Except.ok tok = last at h
    induction h with
    | token s =>
        cases hlast
        exact ⟨rfl, rfl⟩
    | fault h => cases hlast
    | pass h rest ih => exact ⟨⟨rfl, _, h, (ih hlast).1⟩, (ih hlast).2⟩
  · rintro ⟨hsu, rfl⟩
    induction ts generalizing s with
    | nil =>
        rw [reads_nil.1 hsu]
        exact .token u
    | cons tok ts ih =>
        obtain ⟨rfl, t, hst, htu⟩ := hsu
        exact .pass hst (ih htu)

/-- A fault is met where the way past the others leads, and going on from there fails. -/
lemma exists_of_sees_error {s stop : Reader σ} {ts : List Token} {fault : LexError}
    (h : s.Sees ts (.error fault) stop) :
    ∃ us m, ts = us ++ [m.current] ∧ s.Reads us m ∧ m.advance = .failed (.lexical fault) stop := by
  generalize hlast : Except.error fault = last at h
  induction h with
  | token s => cases hlast
  | @fault s stop _ h =>
      cases hlast
      exact ⟨[], s, rfl, rfl, h⟩
  | pass h rest ih =>
      obtain ⟨us, m, rfl, hus, hm⟩ := ih hlast
      exact ⟨_ :: us, m, rfl, ⟨rfl, _, h, hus⟩, hm⟩

/-- What is passed first comes first in what is seen. -/
lemma Reads.sees {s t stop : Reader σ} {ts us : List Token} {last : Except LexError Token}
    (hst : s.Reads ts t) (h : t.Sees us last stop) : s.Sees (ts ++ us) last stop := by
  induction ts generalizing s with
  | nil =>
      rw [reads_nil.1 hst]
      exact h
  | cons tok ts ih =>
      obtain ⟨rfl, m, hsm, hmt⟩ := hst
      exact .pass hsm (ih hmt)

/-- A place lies between two parts of what is seen, if a token stands there. -/
lemma Sees.exists_between {s stop : Reader σ} {ts us : List Token} {last : Except LexError Token}
    {tok : Token} (h : s.Sees (ts ++ us) last stop)
    (htok : (us.map Except.ok ++ [last]).head? = some (.ok tok)) :
    ∃ t, s.Reads ts t ∧ t.current = tok ∧ t.Sees us last stop := by
  induction ts generalizing s with
  | nil =>
      refine ⟨s, rfl, ?_, h⟩
      have hhead := h.head?
      rw [List.nil_append, htok] at hhead
      cases hhead
      rfl
  | cons tok' ts ih =>
      rw [List.cons_append] at h
      generalize hrest : ts ++ us = rest at h
      cases h with
      | fault hfault =>
          obtain ⟨-, rfl⟩ := List.append_eq_nil_iff.1 hrest
          cases htok
      | pass hst hrest' =>
          obtain ⟨t, ht, hcurrent, hus⟩ := ih (hrest ▸ hrest')
          exact ⟨t, ⟨rfl, _, hst, ht⟩, hcurrent, hus⟩

end Sees

end Reader

/-! ### The way to where reading ends -/

/-- The token can be passed: it is not the end, and if it is a name, then the name has a
value. -/
def Token.Passable (vars : Variables) : Token → Prop
  | eof => False
  | ident name => vars.get? name ≠ none
  | _ => True

namespace Outcome

/-- The outcome with the place where it ends put elsewhere. -/
def moveTo (o : Outcome σ α) (u : Reader τ) : Outcome τ α :=
  match o with
  | done v _ => done v u
  | failed e _ => failed e u

lemma result_moveTo (o : Outcome σ α) (u : Reader τ) : (o.moveTo u).result = o.result := by
  cases o <;> rfl

/-- What is met last accounts for how reading ends: it is a fault exactly if the fault is
reported, and if a name is reported as missing, then it is the name. -/
def AccountedBy (vars : Variables) (last : Except LexError Token) : Outcome σ α → Prop
  | failed (.lexical fault) _ => last = .error fault
  | failed (.undefined name) _ => last = .ok (.ident name) ∧ vars.get? name = none
  | _ => ∃ tok, last = .ok tok

/-- The way from `s` to where the outcome ends, and what it means that it is the way: at any
place from where the same is seen, over the same table, `g` ends in the same way. -/
def Retraced [TokenSource σ] [TokenSource τ] (s : Reader σ) (o : Outcome σ α)
    (g : Reader τ → Outcome τ α) : Prop :=
  ∃ ts last, s.Sees ts last o.place ∧ (∀ tok ∈ ts, tok.Passable s.vars) ∧
    o.AccountedBy s.vars last ∧
    ∀ t stop, t.vars = s.vars → t.Sees ts last stop → g t = o.moveTo stop

/-- A computation that fails within what it computes is accounted for by any token. -/
lemma accountedBy_ofExcept {vars : Variables} {r : Except Error α}
    (hr : FailsWithin [.domain, .zeroDivision, .overflow, .type] r) (s : Reader σ) (tok : Token) :
    (ofExcept s r).AccountedBy vars (.ok tok) := by
  cases r with
  | ok v => exact ⟨tok, rfl⟩
  | error e =>
      have hkind := hr e rfl
      cases e with
      | lexical | undefined => simp [Error.kind] at hkind
      | _ => exact ⟨tok, rfl⟩

variable [TokenSource σ] [TokenSource τ] {s : Reader σ} {o : Outcome σ α}
  {g k : Reader τ → Outcome τ α}

namespace Retraced

/-- How the other rule starts is decided by the current token and the table. -/
lemma congr (h : Retraced s o k)
    (hg : ∀ t, t.current = s.current → t.vars = s.vars → g t = k t) : Retraced s o g := by
  obtain ⟨ts, last, hsees, hpass, hlast, hretrace⟩ := h
  refine ⟨ts, last, hsees, hpass, hlast, fun t stop ht htsees => ?_⟩
  have hhead := htsees.head?.symm.trans hsees.head?
  rw [hg t (by simpa using hhead) ht]
  exact hretrace t stop ht htsees

/-- Reading ends where it starts. -/
lemma here (hplace : o.place = s) (hlast : o.AccountedBy s.vars (.ok s.current))
    (hg : ∀ t, t.current = s.current → t.vars = s.vars → g t = o.moveTo t) : Retraced s o g := by
  refine ⟨[], .ok s.current, ?_, by simp, hlast, fun t stop ht htsees => ?_⟩
  · rw [hplace]
    exact .token s
  · obtain ⟨htstop, hcurrent⟩ := Reader.sees_ok_iff.1 htsees
    obtain rfl := Reader.reads_nil.1 htstop
    exact hg t hcurrent ht

/-- A token that can be passed. -/
lemma advance (hs : s.current.Passable s.vars) :
    Retraced s s.advance (Reader.advance : Reader τ → Outcome τ Unit) := by
  have hpass : ∀ tok ∈ [s.current], tok.Passable s.vars := by simpa using hs
  cases hst : s.advance with
  | done u t =>
      refine ⟨[s.current], .ok t.current, .pass hst (.token t), hpass, ⟨_, rfl⟩, ?_⟩
      intro m stop _ hm
      obtain ⟨⟨-, n, hmn, hstop⟩, -⟩ := Reader.sees_ok_iff.1 hm
      rw [hmn, Reader.reads_nil.1 hstop]
      rfl
  | failed e t =>
      obtain ⟨fault, rest, rfl, -⟩ := Reader.exists_fault_of_advance hst
      refine ⟨[s.current], .error fault, .fault hst, hpass, rfl, ?_⟩
      intro m stop _ hm
      obtain ⟨us, n, hus, hmn, hstop⟩ := Reader.exists_of_sees_error hm
      obtain ⟨rfl, -⟩ := List.append_eq_singleton_iff.1 hus.symm |>.resolve_right (by simp)
      rw [Reader.reads_nil.1 hmn, hstop]
      rfl

/-- **Composition**: the second way starts where the first one ends. -/
lemma bind {f : α → Reader σ → Outcome σ β} {f' : α → Reader τ → Outcome τ β}
    (h : Retraced s o g) (hf : ∀ v u, o = .done v u → Retraced u (f v u) (f' v)) :
    Retraced s (o.bind f) (fun t => (g t).bind f') := by
  obtain ⟨ts, last, hsees, hpass, hlast, hretrace⟩ := h
  cases o with
  | failed e stop =>
      refine ⟨ts, last, hsees, hpass, ?_, fun t stop' ht htsees => ?_⟩
      · cases e <;> exact hlast
      · show (g t).bind f' = _
        rw [hretrace t stop' ht htsees]
        rfl
  | done v u =>
      obtain ⟨tok, rfl⟩ := hlast
      obtain ⟨hsu, rfl⟩ := Reader.sees_ok_iff.1 hsees
      obtain ⟨us, last', husees, huspass, hlast', hretrace'⟩ := hf v u rfl
      have huvars : u.vars = s.vars := Reader.vars_of_reads hsu
      rw [huvars] at huspass hlast' hretrace'
      refine ⟨ts ++ us, last', hsu.sees husees, ?_, hlast', fun t stop ht htsees => ?_⟩
      · intro tok htok
        rcases List.mem_append.1 htok with htok | htok
        · exact hpass tok htok
        · exact huspass tok htok
      · -- The first way ends at a token, so it can be cut off from what is seen from `t`.
        obtain ⟨m, htm, hcurrent, hmsees⟩ := htsees.exists_between husees.head?
        show (g t).bind f' = (f v u).moveTo stop
        rw [hretrace t m ht (Reader.sees_ok_iff.2 ⟨htm, hcurrent⟩)]
        exact hretrace' m stop ((Reader.vars_of_reads htm).trans ht) hmsees

lemma map (f : α → β) (h : Retraced s o g) : Retraced s (o.map f) (fun t => (g t).map f) := by
  obtain ⟨ts, last, hsees, hpass, hlast, hretrace⟩ := h
  refine ⟨ts, last, ?_, hpass, ?_, fun t stop ht htsees => ?_⟩
  · cases o <;> exact hsees
  · cases o with
    | done v u => exact hlast
    | failed e stop => cases e <;> exact hlast
  · show (g t).map f = _
    rw [hretrace t stop ht htsees]
    cases o <;> rfl

/-- A computation reads nothing. -/
lemma ofExcept {r : Except Error α}
    (hr : FailsWithin [.domain, .zeroDivision, .overflow, .type] r) :
    Retraced s (ofExcept s r) (fun t : Reader τ => Outcome.ofExcept t r) := by
  refine here ?_ (accountedBy_ofExcept hr s s.current) fun t _ _ => ?_
  · cases r <;> rfl
  · cases r <;> rfl

end Retraced

end Outcome

open Outcome

variable [TokenSource σ] [TokenSource τ] {s : Reader σ}

/-! ### Rules -/

/-- Every way of the rule can be retraced by the other one. -/
def Rule.Retraced (rule : Rule σ α) (rule' : Rule τ α) : Prop :=
  ∀ s, Outcome.Retraced s (rule.run s) rule'.run

namespace Rule

lemma retraced_accept (hs : s.current.Passable s.vars) (v : α) :
    Outcome.Retraced s (accept s v) (fun t : Reader τ => accept t v) :=
  (Outcome.Retraced.advance hs).map _

lemma retraced_close (v : α) (s : Reader σ) :
    Outcome.Retraced s (close v s) (close v : Reader τ → Outcome τ α) := by
  by_cases hs : s.current = .rparen
  · rw [close, if_pos hs]
    refine (retraced_accept (by simp [hs, Token.Passable]) v).congr fun t ht _ => ?_
    rw [close, if_pos (ht.trans hs)]
  · rw [close, if_neg hs]
    refine .here rfl ⟨_, rfl⟩ fun t ht _ => ?_
    rw [close, if_neg (ht ▸ hs), ht]
    rfl

namespace Retraced

variable {operator? : Token → Option ArithOp}

lemma enclosed {rule : Rule σ α} {rule' : Rule τ α} (hrule : rule.Retraced rule')
    (hs : s.current.Passable s.vars) :
    Outcome.Retraced s (enclosed rule s) (Rule.enclosed rule' : Reader τ → Outcome τ α) := by
  refine (Outcome.Retraced.advance hs).bind fun _ t _ => ?_
  exact (hrule t).bind fun v u _ => retraced_close v u

/-- **The invariant of a chain**: every step of it, an operator and an operand, leads from
one place to the next, and can be retraced. -/
lemma chainFrom (hpass : ∀ {tok op}, operator? tok = some op → ∀ vars, tok.Passable vars)
    {operand : Rule σ Value} {operand' : Rule τ Value} (hoperand : operand.Retraced operand')
    (left : Value) (s : Reader σ) :
    Outcome.Retraced s (Rule.chainFrom operator? operand left s)
      (Rule.chainFrom operator? operand' left) := by
  induction hn : s.remaining using Nat.strongRecOn generalizing left s with
  | _ n ih =>
    rw [Rule.chainFrom_eq]
    cases hop : operator? s.current with
    | none =>
        refine .here rfl ⟨_, rfl⟩ fun t ht _ => ?_
        rw [Rule.chainFrom_eq, ht, hop]
        rfl
    | some op =>
        refine Outcome.Retraced.congr (k := fun t => t.advance.bind fun _ u =>
          (operand'.run u).bind fun right w => (Outcome.ofExcept w (left.apply op right)).bind
            (Rule.chainFrom operator? operand')) ?_ fun t ht _ => ?_
        · refine (Outcome.Retraced.advance (hpass hop _)).bind fun _ t hst => ?_
          refine (hoperand t).bind fun right u htu => ?_
          refine (Outcome.Retraced.ofExcept ((failsWithin_apply op left right).mono (by simp))).bind
            fun w x hux => ?_
          obtain ⟨-, rfl⟩ := ofExcept_eq_done_iff.1 hux
          have hopen := Reader.remaining_le_of_advance hst
          have hshort := operand.shortens htu
          exact ih _ (by omega) w u rfl
        · rw [Rule.chainFrom_eq, ht, hop]

lemma chain (hpass : ∀ {tok op}, operator? tok = some op → ∀ vars, tok.Passable vars)
    {operand : Rule σ Value} {operand' : Rule τ Value} (hoperand : operand.Retraced operand') :
    (Rule.chain operator? operand).Retraced (Rule.chain operator? operand') := by
  intro s
  exact (hoperand s).bind fun left t _ => chainFrom hpass hoperand left t

end Retraced

end Rule

namespace Parsing

open Rule

/-- A factor, if the way through its parentheses can be retraced. -/
lemma retraced_factorWith {inner : Option (Rule σ Value)} {inner' : Option (Rule τ Value)}
    (hinner : Option.Rel Rule.Retraced inner inner') :
    (factorWith inner).Retraced (factorWith inner') := by
  intro s
  show Outcome.Retraced s (readFactor inner s) (readFactor inner')
  cases hs : s.current with
  | int n =>
      simp only [readFactor, hs]
      refine (retraced_accept (by simp [hs, Token.Passable]) _).congr fun t ht _ => ?_
      simp only [readFactor, ht, hs]
  | float x =>
      simp only [readFactor, hs]
      refine (retraced_accept (by simp [hs, Token.Passable]) _).congr fun t ht _ => ?_
      simp only [readFactor, ht, hs]
  | ident name =>
      cases hv : s.vars.get? name with
      | some v =>
          simp only [readFactor, hs, Variables.get, hv]
          refine (retraced_accept (by simp [hs, Token.Passable, hv]) v).congr fun t ht hvars => ?_
          simp only [readFactor, ht, hs, Variables.get, hvars, hv]
      | none =>
          simp only [readFactor, hs, Variables.get, hv]
          refine .here rfl ⟨by rw [hs], hv⟩ fun t ht hvars => ?_
          simp only [readFactor, ht, hs, Variables.get, hvars, hv]
          rfl
  | lparen =>
      cases hinner with
      | none =>
          simp only [readFactor, hs]
          refine .here rfl ⟨_, rfl⟩ fun t ht _ => ?_
          simp only [readFactor, ht, hs]
          rfl
      | some hrule =>
          simp only [readFactor, hs]
          refine (Rule.Retraced.enclosed hrule (by simp [hs, Token.Passable])).congr
            fun t ht _ => ?_
          simp only [readFactor, ht, hs]
  | _ =>
      simp only [readFactor, hs]
      refine .here rfl ⟨_, rfl⟩ fun t ht _ => ?_
      simp only [readFactor, ht, hs]
      rfl

lemma retraced_finish (v : Value) (s : Reader σ) :
    Outcome.Retraced s (finish v s) (finish v : Reader τ → Outcome τ Value) := by
  by_cases hs : s.current = .eof
  · rw [finish, if_pos hs]
    refine .here rfl ⟨_, rfl⟩ fun t ht _ => ?_
    rw [finish, if_pos (ht.trans hs)]
    rfl
  · rw [finish, if_neg hs]
    refine .here rfl ⟨_, rfl⟩ fun t ht _ => ?_
    rw [finish, if_neg (ht ▸ hs), ht]
    rfl

variable [FloatFunctions]

lemma retraced_application {rule : Rule σ Value} {rule' : Rule τ Value}
    (hrule : rule.Retraced rule') : (application rule).Retraced (application rule') := by
  intro s
  show Outcome.Retraced s (readApplication rule s) (readApplication rule')
  by_cases hs : ∃ f, s.current = .function f
  · obtain ⟨f, hs⟩ := hs
    refine Outcome.Retraced.congr (k := fun t => t.advance.bind fun _ u =>
      (rule'.run u).bind fun v w => .ofExcept w (applyFunction f v)) ?_ fun t ht _ => ?_
    · simp only [readApplication, hs]
      refine (Outcome.Retraced.advance (by simp [hs, Token.Passable])).bind fun _ t _ => ?_
      exact (hrule t).bind fun v u _ => .ofExcept (failsWithin_applyFunction f v)
    · simp only [readApplication, ht, hs]
  · have hne : ∀ f, s.current ≠ .function f := fun f hf => hs ⟨f, hf⟩
    rw [readApplication_of_ne_function hne]
    exact (hrule s).congr fun t ht _ => readApplication_of_ne_function (ht ▸ hne)

lemma retraced_expressionWith {rule : Rule σ Value} {rule' : Rule τ Value}
    (hrule : rule.Retraced rule') :
    (expressionWith rule).Retraced (expressionWith rule') := by
  have hmultiplicative : ∀ {tok op}, Token.multiplicative? tok = some op →
      ∀ vars, tok.Passable vars := by
    intro tok op h vars
    obtain ⟨op', rfl⟩ := Token.exists_arith_of_multiplicative? h
    trivial
  have hadditive : ∀ {tok op}, Token.additive? tok = some op → ∀ vars, tok.Passable vars := by
    intro tok op h vars
    obtain ⟨op', rfl⟩ := Token.exists_arith_of_additive? h
    trivial
  have hterm : (term rule).Retraced (term rule') :=
    Rule.Retraced.chain hmultiplicative (retraced_application hrule)
  exact Rule.Retraced.chain hadditive hterm

/-- **Reading depends on what it looks at**: the way of a factor, to its end or to its error,
can be retraced wherever the same is seen. -/
theorem retraced_factor (depth : Nat) :
    (factor depth : Rule σ Value).Retraced (factor depth : Rule τ Value) := by
  induction depth with
  | zero => exact retraced_factorWith .none
  | succ depth ih => exact retraced_factorWith (.some (retraced_expressionWith ih))

lemma retraced_expression (depth : Nat) :
    (expression depth : Rule σ Value).Retraced (expression depth : Rule τ Value) :=
  retraced_expressionWith (retraced_factor depth)

/-- The way of a clause can be retraced. -/
theorem retraced_comparison (s : Reader σ) :
    Outcome.Retraced s (comparison s) (comparison : Reader τ → Outcome τ Value) := by
  refine (retraced_expression maxNesting s).bind fun left t _ => ?_
  cases ht : t.current with
  | comparison op =>
      refine Outcome.Retraced.congr (k := fun u => u.advance.bind fun _ w =>
        ((expression maxNesting).run w).bind fun right x =>
          (Outcome.ofExcept x (left.compare op right)).bind finish) ?_ fun u hu _ => ?_
      · refine (Outcome.Retraced.advance (by simp [ht, Token.Passable])).bind fun _ u _ => ?_
        refine (retraced_expression maxNesting u).bind fun right w _ => ?_
        refine (Outcome.Retraced.ofExcept ((failsWithin_compare op left right).mono (by simp))).bind
          fun v x _ => ?_
        exact retraced_finish v x
      · simp only [hu, ht]
  | _ => exact (retraced_finish left t).congr fun u hu _ => by simp only [hu, ht]

end Parsing

end Reckon
