import Reckon.Proofs.Parsing.Contract
import Reckon.Proofs.Parsing.Reads

/-!
Places that no rule can tell apart.

A rule knows a place only through its current token, through the value of
the variable that this token names, and through the places that follow it.
So two places that agree in all of these are read alike, even if they
belong to different sources or to different tables.

* `Outcome.Related`: the same value at related places, or the same error;
* `Simulation`: a relation of places that rules cannot tell apart;
* `Simulation.factor`: the main statement, by induction on the number of
  parentheses that may be opened, with `Simulation.comparison`, which carries
  it to the end of a text, and `Simulation.statementWith` for statements over
  other rules;
* `Alike`: the same tokens and faults are upcoming, and the tables agree in
  the names among them. `simulation_alike` says that this is a simulation.
-/

namespace Reckon

variable {σ τ α β : Type}

/-! ### Outcomes at related places -/

/-- The outcomes have the same value at related places, or the same error. -/
inductive Outcome.Related (R : Reader σ → Reader τ → Prop) : Outcome σ α → Outcome τ α → Prop
  | done (v : α) {s : Reader σ} {t : Reader τ} (h : R s t) : Related R (.done v s) (.done v t)
  | failed (e : Error) (s : Reader σ) (t : Reader τ) : Related R (.failed e s) (.failed e t)

namespace Outcome.Related

variable {R R' : Reader σ → Reader τ → Prop}

lemma bind {o : Outcome σ α} {p : Outcome τ α} {f : α → Reader σ → Outcome σ β}
    {g : α → Reader τ → Outcome τ β} (h : o.Related R p)
    (hfg : ∀ v s t, o = .done v s → R s t → (f v s).Related R' (g v t)) :
    (o.bind f).Related R' (p.bind g) := by
  cases h with
  | done v hst => exact hfg v _ _ rfl hst
  | failed e s t => exact .failed e s t

lemma map {o : Outcome σ α} {p : Outcome τ α} (f : α → β) (h : o.Related R p) :
    (o.map f).Related R (p.map f) := by
  cases h with
  | done v hst => exact .done (f v) hst
  | failed e s t => exact .failed e s t

lemma ofExcept {s : Reader σ} {t : Reader τ} (r : Except Error α) (h : R s t) :
    (ofExcept s r).Related R (ofExcept t r) := by
  cases r with
  | ok v => exact .done v h
  | error e => exact .failed e s t

lemma mono {o : Outcome σ α} {p : Outcome τ α} (h : o.Related R p)
    (hRR' : ∀ s t, R s t → R' s t) : o.Related R' p := by
  cases h with
  | done v hst => exact .done v (hRR' _ _ hst)
  | failed e s t => exact .failed e s t

/-- Related outcomes are both of the same kind. -/
lemma eq_done_or_failed {o : Outcome σ α} {p : Outcome τ α} (h : o.Related R p) :
    (∃ v s t, o = .done v s ∧ p = .done v t ∧ R s t) ∨
      ∃ e s t, o = .failed e s ∧ p = .failed e t := by
  cases h with
  | done v hst => exact .inl ⟨v, _, _, rfl, rfl, hst⟩
  | failed e s t => exact .inr ⟨e, s, t, rfl, rfl⟩

/-- Related outcomes have the same result. -/
lemma result_eq {o : Outcome σ α} {p : Outcome τ α} (h : o.Related R p) :
    o.result = p.result := by
  cases h <;> rfl

/-- Nor do they differ in the table that they leave, if related places do not, and errors leave
this one. -/
lemma result_vars_eq {o : Outcome σ α} {p : Outcome τ α} {vars : Variables} (h : o.Related R p)
    (hR : ∀ s t, R s t → t.vars = s.vars) (ho : ∀ e stop, o = .failed e stop → stop.vars = vars)
    (hp : ∀ e stop, p = .failed e stop → stop.vars = vars) :
    (p.result, p.place.vars) = (o.result, o.place.vars) := by
  cases h with
  | done v hst => exact Prod.ext rfl (hR _ _ hst)
  | failed e s t => exact Prod.ext rfl ((hp e t rfl).trans (ho e s rfl).symm)

end Outcome.Related

open Outcome TokenSource

variable [TokenSource σ] [TokenSource τ] {R : Reader σ → Reader τ → Prop}

/-! ### Rules at related places -/

/-- Related places have the same current token and the same value for the variable that
it names, and what comes next is related again. -/
structure Simulation (R : Reader σ → Reader τ → Prop) : Prop where
  current : ∀ {s t}, R s t → s.current = t.current
  get : ∀ {s t name}, R s t → s.current = .ident name → s.vars.get name = t.vars.get name
  advance : ∀ {s t}, R s t → s.current ≠ .eof → s.advance.Related R t.advance

/-- At related places the two rules end alike. -/
def Rule.Simulates (R : Reader σ → Reader τ → Prop) (rule : Rule σ α) (rule' : Rule τ α) : Prop :=
  ∀ ⦃s : Reader σ⦄ ⦃t : Reader τ⦄, R s t → (rule.run s).Related R (rule'.run t)

namespace Simulation

variable {s : Reader σ} {t : Reader τ} {operator? : Token → Option ArithOp}

lemma accept (hR : Simulation R) (h : R s t) (hs : s.current ≠ .eof) (v : α) :
    (Rule.accept s v).Related R (Rule.accept t v) :=
  (hR.advance h hs).map _

lemma close (hR : Simulation R) (v : α) (h : R s t) :
    (Rule.close v s).Related R (Rule.close v t) := by
  rw [Rule.close, Rule.close, ← hR.current h]
  split_ifs with hs
  · exact hR.accept h (by simp [hs]) v
  · exact .failed _ s t

lemma enclosed (hR : Simulation R) {rule : Rule σ α} {rule' : Rule τ α}
    (hrule : rule.Simulates R rule') (h : R s t) (hs : s.current ≠ .eof) :
    (Rule.enclosed rule s).Related R (Rule.enclosed rule' t) := by
  refine (hR.advance h hs).bind fun _ m m' _ hm => ?_
  exact (hrule hm).bind fun v u u' _ hu => hR.close v hu

/-- **The invariant of a chain**: after each operator and its operand, the values so far
are the same, and the places are related. -/
lemma chainFrom (hR : Simulation R) (heof : operator? .eof = none) {operand : Rule σ Value}
    {operand' : Rule τ Value} (hoperand : operand.Simulates R operand') {left : Value}
    (h : R s t) :
    (Rule.chainFrom operator? operand left s).Related R
      (Rule.chainFrom operator? operand' left t) := by
  induction hn : s.remaining using Nat.strongRecOn generalizing left s t with
  | _ n ih =>
    rw [Rule.chainFrom_eq, Rule.chainFrom_eq, ← hR.current h]
    cases hop : operator? s.current with
    | none => exact .done left h
    | some op =>
        have hs : s.current ≠ .eof := by
          intro hs
          rw [hs, heof] at hop
          cases hop
        refine (hR.advance h hs).bind fun _ m m' hsm hm => ?_
        refine (hoperand hm).bind fun right u u' hmu hu => ?_
        refine (Related.ofExcept _ hu).bind fun w x x' hux hx => ?_
        obtain ⟨-, rfl⟩ := ofExcept_eq_done_iff.1 hux
        have hopen := Reader.remaining_le_of_advance hsm
        have hshort := operand.shortens hmu
        exact ih _ (by omega) hx rfl

lemma chain (hR : Simulation R) (heof : operator? .eof = none) {operand : Rule σ Value}
    {operand' : Rule τ Value} (hoperand : operand.Simulates R operand') :
    (Rule.chain operator? operand).Simulates R (Rule.chain operator? operand') := by
  intro s t h
  exact (hoperand h).bind fun left m m' _ hm => hR.chainFrom heof hoperand hm

/-- A factor, if the rules for what stands in its parentheses end alike. -/
lemma factorWith (hR : Simulation R) {inner : Option (Rule σ Value)}
    {inner' : Option (Rule τ Value)} (hinner : Option.Rel (Rule.Simulates R) inner inner') :
    (Parsing.factorWith inner).Simulates R (Parsing.factorWith inner') := by
  intro s t h
  show (Parsing.readFactor inner s).Related R (Parsing.readFactor inner' t)
  rw [Parsing.readFactor.eq_def, Parsing.readFactor.eq_def, ← hR.current h]
  cases hs : s.current with
  | int n => exact hR.accept h (by simp [hs]) _
  | float x => exact hR.accept h (by simp [hs]) _
  | ident name =>
      dsimp only
      rw [← hR.get h hs]
      cases s.vars.get name with
      | ok v => exact hR.accept h (by simp [hs]) v
      | error e => exact .failed e s t
  | lparen =>
      cases hinner with
      | none => exact .failed _ s t
      | some hrule => exact hR.enclosed hrule h (by simp [hs])
  | _ => exact .failed _ s t

lemma finish (hR : Simulation R) (v : Value) (h : R s t) :
    (Parsing.finish v s).Related R (Parsing.finish v t) := by
  rw [Parsing.finish, Parsing.finish, ← hR.current h]
  split_ifs
  · exact .done v h
  · exact .failed _ s t

/-- A clause over rules that end alike. -/
lemma comparisonWith (hR : Simulation R) {rule : Rule σ Value} {rule' : Rule τ Value}
    (hrule : rule.Simulates R rule') (h : R s t) :
    (Parsing.comparisonWith rule s).Related R (Parsing.comparisonWith rule' t) := by
  refine (hrule h).bind fun left m m' _ hm => ?_
  rw [← hR.current hm]
  split
  case h_1 op hop =>
    refine (hR.advance hm (by simp [hop])).bind fun _ u u' _ hu => ?_
    refine (hrule hu).bind fun right w w' _ hw => ?_
    exact (Related.ofExcept _ hw).bind fun v x x' _ hx => hR.finish v hx
  case h_2 => exact hR.finish left hm

/-- **Statements**: over rules that end alike, they end alike, if reading again does, and stored
values do not matter. -/
theorem statementWith {σ τ : Type} [RereadableSource σ] [RereadableSource τ]
    {R R' : Reader σ → Reader τ → Prop} (hR : Simulation R) {rule : Rule σ Value}
    {rule' : Rule τ Value} (hrule : rule.Simulates R rule')
    (hrescan : ∀ s t, R s t → s.rescan.Related R t.rescan) (hdone : ∀ s t, R s t → R' s t)
    (hstore : ∀ s t name v, R s t → R' (s.store name v) (t.store name v))
    {s : Reader σ} {t : Reader τ} (h : R s t) :
    (Parsing.statementWith rule s).Related R' (Parsing.statementWith rule' t) := by
  have hclause : ∀ {m m'}, R m m' → ((Parsing.comparisonWith rule m).map some).Related R'
      ((Parsing.comparisonWith rule' m').map some) :=
    fun hm => ((hR.comparisonWith hrule hm).map some).mono hdone
  rw [Parsing.statementWith.eq_def, Parsing.statementWith.eq_def, ← hR.current h]
  split
  case h_1 name hname =>
    refine (hR.advance h (by simp [hname])).bind fun _ m m' _ hm => ?_
    rw [← hR.current hm]
    split_ifs with hassign
    · refine (hR.advance hm (by simp [hassign])).bind fun _ u u' _ hu => ?_
      refine (hR.comparisonWith hrule hu).bind fun v w w' _ hw => ?_
      exact .done none (hstore w w' name v hw)
    · exact (hrescan m m' hm).bind fun _ u u' _ hu => hclause hu
  case h_2 => exact hclause h

variable [FloatFunctions]

lemma application (hR : Simulation R) {rule : Rule σ Value} {rule' : Rule τ Value}
    (hrule : rule.Simulates R rule') :
    (Parsing.application rule).Simulates R (Parsing.application rule') := by
  intro s t h
  show (Parsing.readApplication rule s).Related R (Parsing.readApplication rule' t)
  rw [Parsing.readApplication.eq_def, Parsing.readApplication.eq_def, ← hR.current h]
  cases hs : s.current with
  | function f =>
      refine (hR.advance h (by simp [hs])).bind fun _ m m' _ hm => ?_
      exact (hrule hm).bind fun v u u' _ hu => .ofExcept _ hu
  | _ => exact hrule h

lemma expressionWith (hR : Simulation R) {rule : Rule σ Value} {rule' : Rule τ Value}
    (hrule : rule.Simulates R rule') :
    (Parsing.expressionWith rule).Simulates R (Parsing.expressionWith rule') := by
  have hterm : (Parsing.term rule).Simulates R (Parsing.term rule') :=
    hR.chain rfl (hR.application hrule)
  exact hR.chain rfl hterm

/-- **Related places are read alike**: a factor comes to the same value at places that are
related again, or fails with the same error. -/
theorem factor (hR : Simulation R) (depth : Nat) :
    (Parsing.factor depth : Rule σ Value).Simulates R (Parsing.factor depth) := by
  induction depth with
  | zero => exact hR.factorWith .none
  | succ depth ih => exact hR.factorWith (.some (hR.expressionWith ih))

lemma expression (hR : Simulation R) (depth : Nat) :
    (Parsing.expression depth : Rule σ Value).Simulates R (Parsing.expression depth) :=
  hR.expressionWith (hR.factor depth)

/-- Related places are read alike up to the end of the text. -/
theorem comparison (hR : Simulation R) (h : R s t) :
    (Parsing.comparison s).Related R (Parsing.comparison t) := by
  rw [Parsing.comparison_eq, Parsing.comparison_eq]
  exact hR.comparisonWith (hR.expression maxNesting) h

end Simulation

/-! ### The same tokens and faults -/

/-- Places where the same is upcoming have the same current token, and their sources have
the same tokens and faults unless it is the end. -/
lemma Reader.current_of_upcoming_eq {s : Reader σ} {t : Reader τ} (h : s.upcoming = t.upcoming) :
    s.current = t.current ∧ (s.current ≠ .eof → outcomes s.source = outcomes t.source) := by
  by_cases hs : s.current = .eof <;> by_cases ht : t.current = .eof
  · exact ⟨hs.trans ht.symm, fun hne => absurd hs hne⟩
  · rw [upcoming_of_eof hs, upcoming_of_ne_eof ht] at h
    cases h
  · rw [upcoming_of_ne_eof hs, upcoming_of_eof ht] at h
    cases h
  · rw [upcoming_of_ne_eof hs, upcoming_of_ne_eof ht, List.cons.injEq, Except.ok.injEq] at h
    exact ⟨h.1, fun _ => h.2⟩

/-- The name stands in front of the first fault. -/
def Lexer.Mentions (outcomes : List (Except LexError Token)) (name : String) : Prop :=
  Token.ident name ∈ (untilFault outcomes).1

/-- What stands in front of the first fault still does so if a token is put in front. -/
lemma Lexer.Mentions.cons {outcomes : List (Except LexError Token)} {name : String}
    (h : Mentions outcomes name) {tok : Token} : Mentions (.ok tok :: outcomes) name :=
  List.mem_cons_of_mem tok h

/-- The tables have the same value, or none, for each of these names. -/
def Variables.AgreeOn (names : String → Prop) (vars vars' : Variables) : Prop :=
  ∀ name, names name → vars.get? name = vars'.get? name

/-- From the two places on, the same tokens and faults are upcoming, and these two tables
agree in the names in front of the first fault. -/
structure Alike (vars vars' : Variables) (s : Reader σ) (t : Reader τ) : Prop where
  upcoming_eq : s.upcoming = t.upcoming
  vars_left : s.vars = vars
  vars_right : t.vars = vars'
  agree : vars.AgreeOn (Lexer.Mentions s.upcoming) vars'

namespace Alike

variable {vars vars' : Variables} {s : Reader σ} {t : Reader τ}

/-- Sources with the same tokens and faults start with the same fault, or at places that are
alike. -/
lemma start_cases {src : σ} {src' : τ} (h : outcomes src = outcomes src')
    (hagree : vars.AgreeOn (Lexer.Mentions (outcomes src)) vars') :
    (∃ e, Reader.start src vars = .error e ∧ Reader.start src' vars' = .error e) ∨
      ∃ s t, Reader.start src vars = .ok s ∧ Reader.start src' vars' = .ok t ∧
        Alike vars vars' s t := by
  rcases Reader.start_cases src vars with ⟨e, rest, hs, hsrc⟩ | ⟨s, hs, hsrc⟩ <;>
    rcases Reader.start_cases src' vars' with ⟨e', rest', ht, hsrc'⟩ | ⟨t, ht, hsrc'⟩ <;>
    rw [hsrc, hsrc'] at h
  case inl.inl =>
    cases h
    exact .inl ⟨e, hs, ht⟩
  case inl.inr => exact absurd h.symm (t.upcoming_ne_fault e rest)
  case inr.inl => exact absurd h (s.upcoming_ne_fault e' rest')
  case inr.inr =>
    rw [hsrc] at hagree
    exact .inr ⟨s, t, hs, ht, h, Reader.vars_of_start hs, Reader.vars_of_start ht,
      hagree⟩

lemma current_eq (h : Alike vars vars' s t) : s.current = t.current :=
  (Reader.current_of_upcoming_eq h.upcoming_eq).1

/-- What is next is alike again. -/
lemma advance (h : Alike vars vars' s t) (hs : s.current ≠ .eof) :
    s.advance.Related (Alike vars vars') t.advance := by
  have hsource : outcomes s.source = outcomes t.source :=
    (Reader.current_of_upcoming_eq h.upcoming_eq).2 hs
  have hagree : s.vars.AgreeOn (Lexer.Mentions (outcomes s.source)) t.vars := by
    intro name hname
    rw [h.vars_left, h.vars_right]
    refine h.agree name ?_
    rw [Reader.upcoming_of_ne_eof hs]
    exact hname.cons
  rcases start_cases hsource hagree with ⟨e, hm, hm'⟩ | ⟨m, m', hm, hm', halike⟩
  · obtain ⟨stop, hstop⟩ := Reader.advance_of_start_error hm
    obtain ⟨stop', hstop'⟩ := Reader.advance_of_start_error hm'
    rw [hstop, hstop']
    exact .failed _ stop stop'
  · rw [Reader.advance_of_start_ok hm, Reader.advance_of_start_ok hm', ← h.vars_left,
      ← h.vars_right]
    exact .done () halike

end Alike

/-- **Places where the same is upcoming** cannot be told apart, if the tables agree in the
names that are upcoming. -/
theorem simulation_alike (vars vars' : Variables) :
    Simulation (Alike vars vars' : Reader σ → Reader τ → Prop) where
  current h := h.current_eq
  get {s t name} h hs := by
    have hname : Lexer.Mentions s.upcoming name := by
      rw [Reader.upcoming_of_ne_eof (by simp [hs]), hs]
      exact List.mem_cons_self
    rw [Variables.get, Variables.get, h.vars_left, h.vars_right, h.agree name hname]
  advance h hs := h.advance hs

namespace Alike

variable {vars vars' : Variables} {s : Reader σ} {t : Reader τ}

variable [FloatFunctions]

/-- Clauses at places that are alike come to the same, and leave the tables as they are. -/
lemma clause (h : Alike vars vars' s t) :
    ((Parsing.comparison s).map some).Related (fun u u' => u.vars = vars ∧ u'.vars = vars')
      ((Parsing.comparison t).map some) := by
  refine (((simulation_alike vars vars').comparison h).map some).mono fun u u' hu => ?_
  exact ⟨hu.vars_left, hu.vars_right⟩

/-- Behind assignment signs at places that are alike, the same value is stored. -/
lemma assignment (h : Alike vars vars' s t) (hs : s.current = .assign) (name : String) :
    (s.advance.bind fun _ u => (Parsing.comparison u).bind fun v w =>
        .done (none : Option Value) (w.store name v)).Related
      (fun u u' => ∃ v, u.vars = vars.set name v ∧ u'.vars = vars'.set name v)
      (t.advance.bind fun _ u => (Parsing.comparison u).bind fun v w =>
        .done none (w.store name v)) := by
  refine (h.advance (by simp [hs])).bind fun _ u u' _ hu => ?_
  refine ((simulation_alike vars vars').comparison hu).bind fun v w w' _ hw => ?_
  refine .done none ⟨v, ?_, ?_⟩
  · exact congrArg (·.set name v) hw.vars_left
  · exact congrArg (·.set name v) hw.vars_right

end Alike

end Reckon
