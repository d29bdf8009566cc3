import Reckon.Proofs.Parsing.Completeness
import Reckon.Proofs.Parsing.Simulation

/-!
Rules that keep account of their calls.

The rules of expressions do not count parentheses: how many may still be
opened is a part of the rule. Here the same rules are put together over a
source with a counter, which goes up in front of a parenthesis and down behind
the one that closes it, and which alone decides whether a parenthesis is one
too many. The source also knows which rules are active, and writes down what is
known whenever one of them is entered.

* `unclosed`: the parentheses that are opened and not yet closed;
* `Activation`, `Entry` and `Traced`: active calls, what is written down about
  a call, and a source that does so;
* `Rule.entered`: a rule whose calls are written down;
* `Parsing.tracedRule`: the rules with a counter. Their definition also bounds
  how deep they call each other;
* `simulates_tracedRule`: they read like the rules without a counter, whatever
  that bound is, as long as it allows for what the counter allows for;
* `Reversible`: what a call and a parenthesis change in the account, and what is
  taken back behind them. `Reversible.tracedRule` carries it to all the rules;
* `stands_of_tracedRule`: the rules leave the counter as they find it;
* `written_of_tracedRule`: no call of them is left out of what is written down.
-/

namespace Reckon

variable {σ α β : Type}

/-! ### Parentheses that are not yet closed -/

/-- How many parentheses are open behind a token, if `n` are open in front of it. -/
def Token.openBehind (n : Nat) : Token → Nat
  | lparen => n + 1
  | rparen => n - 1
  | _ => n

/-- How many parentheses are opened and not yet closed in the tokens. -/
def unclosed (ts : List Token) : Nat := ts.foldl Token.openBehind 0

lemma Token.openBehind_of_ne {tok : Token} (hl : tok ≠ .lparen) (hr : tok ≠ .rparen) (n : Nat) :
    tok.openBehind n = n := by
  cases tok <;> first | rfl | contradiction

lemma unclosed_concat (ts : List Token) (tok : Token) :
    unclosed (ts ++ [tok]) = tok.openBehind (unclosed ts) := by
  simp [unclosed]

/-- Behind tokens that close all that they open, the count starts again. -/
lemma unclosed_append {ts : List Token} (h : unclosed ts = 0) (us : List Token) :
    unclosed (ts ++ us) = unclosed us := by
  rw [unclosed, unclosed] at *
  rw [List.foldl_append, h]

/-! ### Sources that keep account -/

/-- A call of a rule that has not come back yet. -/
structure Activation where
  rule : Level
  /-- The call has opened a parenthesis, and waits for what stands in it. -/
  waits : Bool
deriving DecidableEq

/-- What is known when a rule is entered. -/
structure Entry where
  rule : Level
  /-- The tokens in front of the current one, from the start of the source on. -/
  consumed : List Token
  /-- Where the counter stands. -/
  depth : Nat
  /-- The calls that are active, the innermost one first, and without the one that is entered. -/
  callers : List Activation
deriving DecidableEq

/-- A source that keeps account of what is read of it, and of the rules that do so. -/
structure Traced (σ : Type) where
  source : σ
  /-- The tokens that were handed out since the start, of which the last one is current. -/
  handed : List Token
  /-- Counts the parentheses that are open. -/
  depth : Nat
  active : List Activation
  /-- What is known of each call, in order. -/
  entries : List Entry

namespace Traced

/-- A source of which nothing was read. -/
def ofSource (src : σ) : Traced σ := ⟨src, [], 0, [], []⟩

/-- The next token, which is written down, or the next fault. -/
def next [TokenSource σ] (src : Traced σ) : Except LexError Token × Traced σ :=
  match TokenSource.next src.source with
  | (.ok tok, rest) => (.ok tok, { src with source := rest, handed := src.handed ++ [tok] })
  | (.error fault, rest) => (.error fault, { src with source := rest })

lemma next_fst [TokenSource σ] (src : Traced σ) :
    src.next.1 = (TokenSource.next src.source).1 := by
  rw [next]
  split <;> rename_i h <;> rw [h]

lemma source_next_snd [TokenSource σ] (src : Traced σ) :
    src.next.2.source = (TokenSource.next src.source).2 := by
  rw [next]
  split <;> rename_i h <;> rw [h]

instance [TokenSource σ] : TokenSource (Traced σ) where
  next := next
  left src := TokenSource.left src.source
  left_of_end src h := by
    rw [source_next_snd]
    exact TokenSource.left_of_end src.source (src.next_fst ▸ h)
  left_of_not_end src h := by
    rw [source_next_snd]
    exact TokenSource.left_of_not_end src.source (src.next_fst ▸ h)

instance [RereadableSource σ] : RereadableSource (Traced σ) where
  reset src := { src with source := RereadableSource.reset src.source, handed := [] }

/-- A token is the last one of those that were handed out; a fault is none of them. -/
lemma next_cases [TokenSource σ] (src : Traced σ) :
    (∃ tok rest, TokenSource.next src.source = (.ok tok, rest) ∧
      TokenSource.next src =
        (.ok tok, { src with source := rest, handed := src.handed ++ [tok] })) ∨
      ∃ fault rest, TokenSource.next src.source = (.error fault, rest) ∧
        TokenSource.next src = (.error fault, { src with source := rest }) := by
  have hnext : TokenSource.next src = src.next := rfl
  rcases hsource : TokenSource.next src.source with ⟨fault | tok, rest⟩
  · exact .inr ⟨fault, rest, rfl, by rw [hnext, next, hsource]⟩
  · exact .inl ⟨tok, rest, rfl, by rw [hnext, next, hsource]⟩

/-- A rule is entered. -/
def enter (level : Level) (src : Traced σ) : Traced σ :=
  { src with
    active := ⟨level, false⟩ :: src.active
    entries := src.entries ++ [⟨level, src.handed.dropLast, src.depth, src.active⟩] }

/-- The innermost call comes back. -/
def leave (src : Traced σ) : Traced σ := { src with active := src.active.tail }

/-- The innermost call goes on inside of a parenthesis. -/
def deepen (src : Traced σ) : Traced σ :=
  { src with
    depth := src.depth + 1
    active := src.active.modifyHead ({ · with waits := true }) }

/-- The innermost call goes on behind a parenthesis. -/
def rise (src : Traced σ) : Traced σ :=
  { src with
    depth := src.depth - 1
    active := src.active.modifyHead ({ · with waits := false }) }

lemma active_deepen {src : Traced σ} {call : Activation} {callers : List Activation}
    (h : src.active = call :: callers) :
    src.deepen.active = { call with waits := true } :: callers := by
  rw [deepen, h]
  rfl

lemma active_rise {src : Traced σ} {call : Activation} {callers : List Activation}
    (h : src.active = call :: callers) :
    src.rise.active = { call with waits := false } :: callers := by
  rw [rise, h]
  rfl

end Traced

/-! ### Places in such a source -/

namespace Reader

/-- Changes what the source keeps account of. -/
def account (s : Reader (Traced σ)) (f : Traced σ → Traced σ) : Reader (Traced σ) :=
  { s with source := f s.source }

/-- The place without the account. -/
def untraced (s : Reader (Traced σ)) : Reader σ := ⟨⟨s.current, s.source.source⟩, s.vars⟩

/-- **Reading a token**: the token becomes the current one and the last of those that were handed
out, and apart from that the account stays what it is. -/
lemma read_cases [TokenSource σ] (s : Reader (Traced σ)) (src : Traced σ) :
    (∃ tok rest, TokenSource.next src.source = (.ok tok, rest) ∧
      s.read src = .done () { s with
        current := tok
        source := { src with source := rest, handed := src.handed ++ [tok] } }) ∨
      ∃ fault rest, TokenSource.next src.source = (.error fault, rest) ∧
        s.read src = .failed (.lexical fault) { s with source := { src with source := rest } } := by
  rcases src.next_cases with ⟨tok, rest, hsource, hsrc⟩ | ⟨fault, rest, hsource, hsrc⟩
  · exact .inl ⟨tok, rest, hsource, by rw [read, hsrc]⟩
  · exact .inr ⟨fault, rest, hsource, by rw [read, hsrc]⟩

end Reader

/-! ### Rules that keep account -/

/-- The rule, whose calls are written down. -/
def Rule.entered [TokenSource σ] (level : Level) (rule : Rule (Traced σ) α) :
    Rule (Traced σ) α where
  run s := (rule.run (s.account (Traced.enter level))).bind fun v t =>
    .done v (t.account Traced.leave)
  shortens h := by
    obtain ⟨w, t, ht, h⟩ := Outcome.bind_eq_done_iff.1 h
    cases h
    have hshort := rule.shortens ht
    exact hshort

namespace Parsing

variable [TokenSource σ]

/-- Reads a factor. A parenthesis is opened if the counter allows it. -/
def countedFactor (inner : Option (Rule (Traced σ) Value)) (s : Reader (Traced σ)) :
    Outcome (Traced σ) Value :=
  if s.current = .lparen then
    if s.source.depth = maxNesting then .failed (.syntactic .nestedTooDeeply) s
    else
      match inner with
      | some rule => (rule.enclosed (s.account Traced.deepen)).bind fun v t =>
          .done v (t.account Traced.rise)
      | none => .failed (.syntactic .nestedTooDeeply) s
  else readFactor none s

lemma remaining_lt_of_countedFactor {inner : Option (Rule (Traced σ) Value)}
    {s next : Reader (Traced σ)} {v : Value} (h : countedFactor inner s = .done v next) :
    next.remaining < s.remaining := by
  rw [countedFactor.eq_def] at h
  split_ifs at h
  · cases inner with
    | none => cases h
    | some rule =>
        obtain ⟨w, t, ht, h⟩ := Outcome.bind_eq_done_iff.1 h
        cases h
        have hshort := Rule.remaining_lt_of_enclosed ht
        exact hshort
  · exact remaining_lt_of_readFactor h

/-- The rule for factors, with the rule for what stands in parentheses. -/
def countedFactorWith (inner : Option (Rule (Traced σ) Value)) : Rule (Traced σ) Value where
  run := countedFactor inner
  shortens := remaining_lt_of_countedFactor

variable [FloatFunctions]

/-- Applications of which every call is written down. -/
def tracedApplication (factor : Rule (Traced σ) Value) : Rule (Traced σ) Value :=
  (application factor).entered .application

/-- Terms of which every call is written down. -/
def tracedTerm (factor : Rule (Traced σ) Value) : Rule (Traced σ) Value :=
  (Rule.chain Token.multiplicative? (tracedApplication factor)).entered .term

/-- Expressions of which every call is written down. -/
def tracedExpression (factor : Rule (Traced σ) Value) : Rule (Traced σ) Value :=
  (Rule.chain Token.additive? (tracedTerm factor)).entered .expression

/-- Factors of which every call is written down, and in which they call each other at most so
often. -/
def tracedFactor : Nat → Rule (Traced σ) Value
  | 0 => (countedFactorWith none).entered .factor
  | bound + 1 =>
      (countedFactorWith (some (tracedExpression (tracedFactor bound)))).entered .factor

/-- The rule for each kind of expression. -/
def tracedRule (bound : Nat) : Level → Rule (Traced σ) Value
  | .factor => tracedFactor bound
  | .application => tracedApplication (tracedFactor bound)
  | .term => tracedTerm (tracedFactor bound)
  | .expression => tracedExpression (tracedFactor bound)

/-- What may stand in the parentheses of a factor. -/
def tracedInner : Nat → Option (Rule (Traced σ) Value)
  | 0 => none
  | bound + 1 => some (tracedExpression (tracedFactor bound))

/-- What a rule does once it is entered. -/
def enteredRule (bound : Nat) : Level → Rule (Traced σ) Value
  | .factor => countedFactorWith (tracedInner bound)
  | .application => application (tracedFactor bound)
  | .term => Rule.chain Token.multiplicative? (tracedApplication (tracedFactor bound))
  | .expression => Rule.chain Token.additive? (tracedTerm (tracedFactor bound))

lemma tracedFactor_eq (bound : Nat) :
    (tracedFactor bound : Rule (Traced σ) Value) =
      (countedFactorWith (tracedInner bound)).entered .factor := by
  cases bound <;> rfl

lemma tracedRule_eq (bound : Nat) (level : Level) :
    (tracedRule bound level : Rule (Traced σ) Value) = (enteredRule bound level).entered level := by
  cases level with
  | factor => exact tracedFactor_eq bound
  | _ => rfl

end Parsing

/-! ### Nothing but the account is added -/

/-- The second place is the first one with an account, in which the counter stands at `k`. -/
def Mirrors (k : Nat) (s : Reader σ) (t : Reader (Traced σ)) : Prop :=
  t.untraced = s ∧ t.source.depth = k

variable [TokenSource σ] {k : Nat} {s : Reader σ} {t : Reader (Traced σ)}

lemma Mirrors.read (src : Traced σ) (h : Mirrors k s t) (hsrc : src.depth = k) :
    (s.read src.source).Related (Mirrors k) (t.read src) := by
  obtain ⟨rfl, -⟩ := h
  rcases t.read_cases src with ⟨tok, rest, hnext, hread⟩ | ⟨fault, rest, hnext, hread⟩
  · rw [hread, Reader.read, hnext]
    exact .done () ⟨rfl, hsrc⟩
  · rw [hread, Reader.read, hnext]
    exact .failed _ _ _

/-- A source starts with a fault, or at the same place with and without an account. -/
lemma Mirrors.start_cases (src : σ) (vars : Variables) :
    (∃ e, Reader.start src vars = .error e ∧
        Reader.start (Traced.ofSource src) vars = .error e) ∨
      ∃ s t, Reader.start src vars = .ok s ∧ Reader.start (Traced.ofSource src) vars = .ok t ∧
        Mirrors 0 s t := by
  rcases (Traced.ofSource src).next_cases with ⟨tok, rest, hsource, hsrc⟩ | ⟨e, rest, hsource, hsrc⟩
  · let t : Reader (Traced σ) := ⟨⟨tok, ⟨rest, [tok], 0, [], []⟩⟩, vars⟩
    exact .inr ⟨t.untraced, t, Reader.start_eq_ok_iff.2 ⟨hsource, rfl⟩,
      Reader.start_eq_ok_iff.2 ⟨hsrc, rfl⟩, rfl, rfl⟩
  · exact .inl ⟨e, Reader.start_eq_error_iff.2 (congrArg Prod.fst hsource),
      Reader.start_eq_error_iff.2 (congrArg Prod.fst hsrc)⟩

lemma simulation_mirrors (k : Nat) :
    Simulation (Mirrors k : Reader σ → Reader (Traced σ) → Prop) where
  current h := by
    obtain ⟨rfl, -⟩ := h
    rfl
  get h _ := by
    obtain ⟨rfl, -⟩ := h
    rfl
  advance {s t} h _ := by
    have hsource : t.source.source = s.source := by
      obtain ⟨rfl, -⟩ := h
      rfl
    rw [Reader.advance, Reader.advance, ← hsource]
    exact h.read t.source h.2

omit [TokenSource σ] in
/-- A last step that reads nothing. -/
lemma Outcome.Related.account {R R' : Reader σ → Reader (Traced σ) → Prop} {o : Outcome σ α}
    {p : Outcome (Traced σ) α} {f : Traced σ → Traced σ} (h : o.Related R p)
    (hf : ∀ s t, R s t → R' s (t.account f)) :
    o.Related R' (p.bind fun v t => .done v (t.account f)) := by
  cases h with
  | done v h => exact .done v (hf _ _ h)
  | failed e s t => exact .failed e s t

lemma Rule.Simulates.entered {rule : Rule σ α} {rule' : Rule (Traced σ) α}
    (h : rule.Simulates (Mirrors k) rule') (level : Level) :
    rule.Simulates (Mirrors k) (rule'.entered level) := by
  intro s t hst
  have hentered : Mirrors k s (t.account (Traced.enter level)) := hst
  exact (h hentered).account fun _ _ hst => hst

namespace Parsing

lemma readFactor_of_ne_lparen {inner : Option (Rule σ Value)} (hs : s.current ≠ .lparen) :
    readFactor inner s = readFactor none s := by
  rw [readFactor.eq_def, readFactor.eq_def]
  cases hc : s.current with
  | lparen => exact absurd hc hs
  | _ => rfl

variable [FloatFunctions]

lemma simulates_tracedExpression {rule : Rule σ Value} {rule' : Rule (Traced σ) Value}
    (h : rule.Simulates (Mirrors k) rule') :
    (expressionWith rule).Simulates (Mirrors k) (tracedExpression rule') := by
  have happlication := ((simulation_mirrors k).application h).entered .application
  have hterm : (term rule).Simulates (Mirrors k) (tracedTerm rule') :=
    ((simulation_mirrors k).chain rfl happlication).entered .term
  exact ((simulation_mirrors k).chain rfl hterm).entered .expression

/-- A factor, if the rules for what stands in its parentheses read alike as long as the counter
allows parentheses. -/
lemma simulates_countedFactorWith {inner : Option (Rule (Traced σ) Value)} (hk : k ≤ maxNesting)
    (hinner : k < maxNesting → ∃ rule, inner = some rule ∧
      (expression (maxNesting - (k + 1))).Simulates (Mirrors (k + 1)) rule) :
    (factor (maxNesting - k)).Simulates (Mirrors k)
      ((countedFactorWith inner).entered .factor) := by
  refine Rule.Simulates.entered (fun s t hst => ?_) .factor
  have hcurrent : s.current = t.current := (simulation_mirrors k).current hst
  show Outcome.Related _ _ (countedFactor inner t)
  rw [run_factor, countedFactor.eq_def]
  split_ifs with hl hdepth
  · have hfull : maxNesting - k = 0 := by
      have hcounter := hst.2
      omega
    rw [hfull, readFactor.eq_def, hcurrent, hl]
    exact .failed _ s t
  · have hlt : k < maxNesting := by
      have hcounter := hst.2
      omega
    obtain ⟨rule, rfl, hrule⟩ := hinner hlt
    have hmore : maxNesting - k = maxNesting - (k + 1) + 1 := by omega
    have hdeepened : Mirrors (k + 1) s (t.account Traced.deepen) :=
      ⟨hst.1, congrArg (· + 1) hst.2⟩
    have hs : s.current ≠ .eof := by simp [hcurrent, hl]
    rw [hmore, readFactor.eq_def, hcurrent, hl]
    refine ((simulation_mirrors (k + 1)).enclosed hrule hdeepened hs).account fun m u hmu => ?_
    exact ⟨hmu.1, congrArg (· - 1) hmu.2⟩
  · rw [readFactor_of_ne_lparen (by rwa [hcurrent])]
    exact (simulation_mirrors k).factorWith .none hst

/-- **The counter is the rule**: where the counter stands at `k`, the factors with a counter read
like those in which the rest of 256 parentheses may still be opened. -/
theorem simulates_tracedFactor {bound : Nat} (hk : k ≤ maxNesting)
    (hbound : maxNesting ≤ bound + k) :
    (factor (maxNesting - k) : Rule σ Value).Simulates (Mirrors k) (tracedFactor bound) := by
  induction bound generalizing k with
  | zero => exact simulates_countedFactorWith hk fun hlt => absurd hlt (by omega)
  | succ bound ih =>
      refine simulates_countedFactorWith hk fun hlt => ⟨_, rfl, ?_⟩
      exact simulates_tracedExpression (ih hlt (by omega))

end Parsing

/-! ### What the account of a call is good for -/

/-- A factor keeps a property up, if a parenthesis leads back to it once the counter has gone down
again, and if the error where none may be opened is in the relation. -/
lemma Parsing.ends_countedFactor {P Q : Reader (Traced σ) → Prop}
    {E : Error → Reader (Traced σ) → Prop} {inner : Option (Rule (Traced σ) Value)}
    {s : Reader (Traced σ)} (h : FlatContract P E) (hs : P s)
    (hfull : s.current = .lparen → s.source.depth = maxNesting ∨ inner = none →
      E (.syntactic .nestedTooDeeply) s)
    (henclosed : s.current = .lparen → s.source.depth ≠ maxNesting → ∀ rule, inner = some rule →
      (rule.enclosed (s.account Traced.deepen)).Ends Q E)
    (hrise : ∀ t, Q t → P (t.account Traced.rise)) : (countedFactor inner s).Ends P E := by
  rw [countedFactor.eq_def]
  split_ifs with hl hdepth
  · exact hfull hl (.inl hdepth)
  · cases inner with
    | none => exact hfull hl (.inr rfl)
    | some rule => exact (henclosed hl hdepth rule rfl).bind fun _ t _ ht => hrise t ht
  · exact h.readFactor hs hl

/-- A property of places for each state of the account. Tokens keep it up; in a call it is that of
the called state, and behind the parenthesis that a factor opens that of the waiting state, from
which it comes back. -/
structure Reversible {ι : Type} (P : ι → Reader (Traced σ) → Prop) (called : Level → ι → ι)
    (waiting : ι → ι) (E : Error → Reader (Traced σ) → Prop) : Prop where
  contract : ∀ i, Contract (P i) E
  enter : ∀ {level i s}, P i s → P (called level i) (s.account (Traced.enter level))
  leave : ∀ {level i s}, P (called level i) s → P i (s.account Traced.leave)
  deepen : ∀ {i s}, P (called .factor i) s → P (waiting i) (s.account Traced.deepen)
  rise : ∀ {i s}, P (waiting i) s → P (called .factor i) (s.account Traced.rise)

namespace Reversible

variable {ι : Type} {P : ι → Reader (Traced σ) → Prop} {called : Level → ι → ι} {waiting : ι → ι}
  {E : Error → Reader (Traced σ) → Prop}

lemma entered (h : Reversible P called waiting E) {level : Level} {rule : Rule (Traced σ) α} {i : ι}
    (hrule : rule.Ensures (P (called level i)) E) : (rule.entered level).Ensures (P i) E :=
  fun _ hs => (hrule (h.enter hs)).bind fun _ _ _ ht => h.leave ht

lemma countedFactorWith (h : Reversible P called waiting E)
    {inner : Option (Rule (Traced σ) Value)}
    (hinner : ∀ rule, inner = some rule → ∀ i, rule.Ensures (P i) E) (i : ι) :
    (Parsing.countedFactorWith inner).Ensures (P (called .factor i)) E := by
  intro s hs
  refine Parsing.ends_countedFactor (h.contract _).toFlatContract hs
    (fun hl _ => (h.contract _).nested hs hl) (fun hl _ rule hrule => ?_) fun t ht => h.rise ht
  exact Rule.ends_enclosed ((h.contract _).parenthesis (h.deepen hs) (.inl hl))
    (hinner rule hrule (waiting i)) (fun t ht hr => (h.contract _).parenthesis ht (.inr hr))
    fun t ht => (h.contract _).misplaced ht (by simp)

variable [FloatFunctions]

lemma tracedApplication (h : Reversible P called waiting E) {factor : Rule (Traced σ) Value}
    (hfactor : ∀ i, factor.Ensures (P i) E) (i : ι) :
    (Parsing.tracedApplication factor).Ensures (P i) E :=
  h.entered ((h.contract _).application (hfactor _))

lemma tracedTerm (h : Reversible P called waiting E) {factor : Rule (Traced σ) Value}
    (hfactor : ∀ i, factor.Ensures (P i) E) (i : ι) :
    (Parsing.tracedTerm factor).Ensures (P i) E :=
  h.entered ((h.contract _).chain Token.exists_arith_of_multiplicative?
    (h.tracedApplication hfactor _))

lemma tracedExpression (h : Reversible P called waiting E) {factor : Rule (Traced σ) Value}
    (hfactor : ∀ i, factor.Ensures (P i) E) (i : ι) :
    (Parsing.tracedExpression factor).Ensures (P i) E :=
  h.entered ((h.contract _).chain Token.exists_arith_of_additive? (h.tracedTerm hfactor _))

lemma tracedInner (h : Reversible P called waiting E) (bound : Nat) :
    ∀ rule, Parsing.tracedInner bound = some rule → ∀ i, rule.Ensures (P i) E := by
  induction bound with
  | zero => exact fun rule hrule => by cases hrule
  | succ bound ih =>
      intro rule hrule
      cases hrule
      refine h.tracedExpression fun i => ?_
      rw [Parsing.tracedFactor_eq]
      exact h.entered (h.countedFactorWith ih i)

lemma tracedFactor (h : Reversible P called waiting E) (bound : Nat) (i : ι) :
    (Parsing.tracedFactor bound).Ensures (P i) E := by
  rw [Parsing.tracedFactor_eq]
  exact h.entered (h.countedFactorWith (h.tracedInner bound) i)

lemma enteredRule (h : Reversible P called waiting E) (bound : Nat) (level : Level) (i : ι) :
    (Parsing.enteredRule bound level).Ensures (P (called level i)) E := by
  have hfactor := h.tracedFactor bound
  cases level with
  | factor => exact h.countedFactorWith (h.tracedInner bound) i
  | application => exact (h.contract _).application (hfactor _)
  | term =>
      exact (h.contract _).chain Token.exists_arith_of_multiplicative?
        (h.tracedApplication hfactor _)
  | expression =>
      exact (h.contract _).chain Token.exists_arith_of_additive? (h.tracedTerm hfactor _)

/-- **Every rule comes back**: behind a rule, the account is in the same state as in front of
it. -/
theorem tracedRule (h : Reversible P called waiting E) (bound : Nat) (level : Level) (i : ι) :
    (Parsing.tracedRule bound level).Ensures (P i) E := by
  rw [Parsing.tracedRule_eq]
  exact h.entered (h.enteredRule bound level i)

end Reversible

/-! ### The counter -/

/-- The counter stands at `depth`, and these are the active calls. -/
def Stands (depth : Nat) (active : List Activation) (s : Reader (Traced σ)) : Prop :=
  s.source.depth = depth ∧ s.source.active = active

/-- What is counted in front of a parenthesis and of a call is taken back behind it. -/
lemma reversible_stands :
    Reversible (fun i (s : Reader (Traced σ)) => Stands i.1 i.2 s)
      (fun level i => (i.1, ⟨level, false⟩ :: i.2)) (fun i => (i.1 + 1, ⟨.factor, true⟩ :: i.2))
      fun _ _ => True where
  contract i := by
    have hadvance : ∀ {s : Reader (Traced σ)}, Stands i.1 i.2 s →
        s.advance.Ends (Stands i.1 i.2) fun _ _ => True := by
      intro s hs
      rw [Reader.advance]
      rcases s.read_cases s.source with ⟨tok, rest, -, hread⟩ | ⟨fault, rest, -, hread⟩
      · rw [hread]
        exact hs
      · rw [hread]
        trivial
    exact
      { advance := fun hs _ _ _ => hadvance hs
        undefined := fun _ _ => trivial
        misplaced := fun _ _ => trivial
        computed := fun _ _ => trivial
        parenthesis := fun hs _ => hadvance hs
        nested := fun _ _ => trivial }
  enter hs := ⟨hs.1, congrArg (_ :: ·) hs.2⟩
  leave hs := ⟨hs.1, congrArg List.tail hs.2⟩
  deepen hs := ⟨congrArg (· + 1) hs.1, Traced.active_deepen hs.2⟩
  rise hs := ⟨congrArg (· - 1) hs.1, Traced.active_rise hs.2⟩

/-- **The counter is restored**: a rule that succeeds leaves it where it was, and no other call is
active than before. -/
theorem stands_of_tracedRule [FloatFunctions] {bound : Nat} {level : Level}
    {s t : Reader (Traced σ)} {v : Value}
    (h : (Parsing.tracedRule bound level).run s = .done v t) :
    t.source.depth = s.source.depth ∧ t.source.active = s.source.active := by
  have hends := reversible_stands.tracedRule bound level (s.source.depth, s.source.active)
    (show Stands _ _ s from ⟨rfl, rfl⟩)
  rwa [h] at hends

/-! ### What is written down -/

/-- This was written down first. -/
def Written (log : List Entry) (s : Reader (Traced σ)) : Prop := log <+: s.source.entries

lemma contract_written (log : List Entry) :
    Contract (Written log : Reader (Traced σ) → Prop) fun _ => Written log := by
  have hadvance : ∀ {s : Reader (Traced σ)}, Written log s →
      s.advance.Ends (Written log) fun _ => Written log := by
    intro s hs
    rw [Reader.advance]
    rcases s.read_cases s.source with ⟨tok, rest, -, hread⟩ | ⟨fault, rest, -, hread⟩ <;>
      rw [hread] <;> exact hs
  exact
    { advance := fun hs _ _ _ => hadvance hs
      undefined := fun hs _ => hs
      misplaced := fun hs _ => hs
      computed := fun hs _ => hs
      parenthesis := fun hs _ => hadvance hs
      nested := fun hs _ => hs }

lemma reversible_written (log : List Entry) :
    Reversible (fun (_ : Unit) (s : Reader (Traced σ)) => Written log s) (fun _ i => i) id
      fun _ => Written log where
  contract _ := contract_written log
  enter hs := hs.trans (List.prefix_append _ _)
  leave hs := hs
  deepen hs := hs
  rise hs := hs

/-- **Every call is written down**: behind what was written down before, with all that is known
when the rule is entered, and wherever reading ends, it stays written down. -/
theorem written_of_tracedRule [FloatFunctions] (bound : Nat) (level : Level)
    (s : Reader (Traced σ)) :
    s.source.entries ++ [⟨level, s.source.handed.dropLast, s.source.depth, s.source.active⟩] <+:
      ((Parsing.tracedRule bound level).run s).place.source.entries := by
  have hentered := (reversible_written _).enteredRule bound level ()
    (List.prefix_refl (s.account (Traced.enter level)).source.entries)
  have hends : (((Parsing.enteredRule bound level).entered level).run s).Ends
      (Written (s.account (Traced.enter level)).source.entries)
      fun _ => Written (s.account (Traced.enter level)).source.entries :=
    hentered.bind fun _ _ _ ht => ht
  rw [Parsing.tracedRule_eq]
  exact hends.place (fun _ hs => hs) fun _ _ hs => hs

end Reckon
