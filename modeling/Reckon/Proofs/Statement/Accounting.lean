import Reckon.Proofs.Grammar.Replacement
import Reckon.Proofs.Parsing.Traced
import Reckon.Proofs.Statement.Evaluation

/-!
The account of the parentheses that are open.

Whenever a rule is entered, the counter of the source shows how many of the
tokens in front of the place are parentheses that are not yet closed. It also
shows how many factors are waiting for what stands in their parentheses, and
it never goes beyond 256. So the rules never call each other deeper than that
allows, however long the text is, and only parentheses inside of each other
can be one too many.

* `tracedEvaluate`: evaluation over a source that keeps account;
* `Entry.Balances`: what is true of each call that is written down;
* `Accounted`: the invariant between two tokens, and `Refused`, what is left
  of it where reading fails;
* `KeepsAccount.tracedFactor`: the rules keep the invariant up, by induction on how
  deep they call each other;
* `tracedEvaluate_eq`: the account changes nothing;
* `evaluate_accounts`: the main statement.
-/

namespace Reckon

open Parsing

/-- What the statement in a text shows, the table after it, and what is written down of the
calls, where the rules may call each other so often. -/
def tracedEvaluate [FloatFunctions] (bound : Nat) (text : String) (vars : Variables) :
    (Except Error (Option Value) × Variables) × List Entry :=
  match Reader.start (Traced.ofSource (Lexer.ofText text)) vars with
  | .error e => ((.error (.lexical e), vars), [])
  | .ok s =>
      let outcome := statementWith (tracedRule bound .expression) s
      ((outcome.result, outcome.place.vars), outcome.place.source.entries)

/-- The call comes behind these tokens of the text. The counter shows how many parentheses are
not yet closed in them, and how many factors wait for what stands in a parenthesis. There are
at most 256 of them, and with the one that may be entered, at most 257 factors are active. -/
structure Entry.Balances (text : String) (entry : Entry) : Prop where
  consumed : entry.consumed.map .ok <+: Lexer.outcomes text.toList
  depth_eq_unclosed : entry.depth = unclosed entry.consumed
  depth_eq_waiting : entry.depth = entry.callers.count ⟨.factor, true⟩
  depth_le : entry.depth ≤ 256
  active_le : (entry.rule :: entry.callers.map (·.rule)).count .factor ≤ 257

/-- So many factors are active, all of them wait for what stands in a parenthesis, and there are
at most 256. -/
structure Waiting (callers : List Activation) (depth : Nat) : Prop where
  active : (callers.map (·.rule)).count .factor = depth
  waiting : callers.count ⟨.factor, true⟩ = depth
  le : depth ≤ 256

lemma Waiting.nil : Waiting [] 0 := ⟨rfl, rfl, by decide⟩

/-- A call of another rule is no factor. -/
lemma Waiting.cons {callers : List Activation} {depth : Nat} (h : Waiting callers depth)
    {level : Level} (hlevel : level ≠ .factor) : Waiting (⟨level, false⟩ :: callers) depth where
  active := by rw [List.map_cons, List.count_cons_of_ne hlevel, h.active]
  waiting := by rw [List.count_cons_of_ne (by simp), h.waiting]
  le := h.le

/-- A factor that opens a parenthesis waits. -/
lemma Waiting.deepen {callers : List Activation} {depth : Nat} (h : Waiting callers depth)
    (hlt : depth < 256) : Waiting (⟨.factor, true⟩ :: callers) (depth + 1) where
  active := by rw [List.map_cons, List.count_cons_self, h.active]
  waiting := by rw [List.count_cons_self, h.waiting]
  le := hlt

/-- One more factor may be active, which does not wait yet. -/
lemma Waiting.active_le {callers : List Activation} {depth : Nat} (h : Waiting callers depth)
    (level : Level) : (level :: callers.map (·.rule)).count .factor ≤ 257 := by
  have hle := h.le
  rw [List.count_cons, h.active]
  split_ifs <;> omega

/-! ### Between two tokens -/

/-- At some place in the text, 256 parentheses are open, and one more is opened. -/
def Overfull (text : String) : Prop :=
  ∃ ts, (ts ++ [Token.lparen]).map .ok <+: Lexer.outcomes text.toList ∧ unclosed ts = 256

/-- What is written down so far is right, these are the active calls, the counter stands at
`counter`, and behind the tokens that were gone past so many parentheses are open. -/
structure Accounted (text : String) (vars : Variables) (active : List Activation)
    (counter opened : Nat) (s : Reader (Traced Lexer)) : Prop where
  text_eq : s.source.source.text = text.toList
  consumed : ∃ ts, s.source.handed = ts ++ [s.current] ∧ unclosed ts = opened ∧
    Lexer.outcomes text.toList = ts.map .ok ++ s.untraced.upcoming
  depth_eq : s.source.depth = counter
  active_eq : s.source.active = active
  entries : ∀ entry ∈ s.source.entries, entry.Balances text
  vars_eq : s.vars = vars

/-- What is written down is right, and nothing is refused for its nesting unless one parenthesis
is too many. -/
structure Refused (text : String) (vars : Variables) (e : Error) (stop : Reader (Traced Lexer)) :
    Prop where
  entries : ∀ entry ∈ stop.source.entries, entry.Balances text
  vars_eq : stop.vars = vars
  overfull : e = .syntactic .nestedTooDeeply → Overfull text

namespace Accounted

variable {text : String} {vars : Variables} {active : List Activation} {counter opened : Nat}
  {s : Reader (Traced Lexer)}

lemma refused (h : Accounted text vars active counter opened s) {e : Error}
    (he : e ≠ .syntactic .nestedTooDeeply) : Refused text vars e s :=
  ⟨h.entries, h.vars_eq, fun hnested => absurd hnested he⟩

/-- The first token of the text. -/
lemma of_read {src : Traced Lexer} (hsource : src.source = Lexer.ofText text)
    (hhanded : src.handed = []) (hentries : ∀ entry ∈ src.entries, entry.Balances text)
    (hvars : s.vars = vars) :
    (s.read src).Ends (Accounted text vars src.active src.depth 0) (Refused text vars) := by
  rcases s.read_cases src with ⟨tok, rest, hnext, hread⟩ | ⟨fault, rest, hnext, hread⟩
  · rw [hsource] at hnext
    have hrest : (Lexer.next (Lexer.ofText text)).2 = rest := congrArg Prod.snd hnext
    rw [hread]
    exact
      { text_eq := by
          rw [← hrest, Lexer.next_snd]
          rfl
        consumed := by
          refine ⟨[], by rw [hhanded], rfl, ?_⟩
          have hupcoming := Reader.outcomes_eq_upcoming (t := ⟨⟨tok, rest⟩, vars⟩) hnext
          rw [Lexer.outcomes_eq] at hupcoming
          exact hupcoming
        depth_eq := rfl
        active_eq := rfl
        entries := hentries
        vars_eq := hvars }
  · rw [hread]
    exact ⟨hentries, hvars, fun hnested => by cases hnested⟩

/-- **One token more**: the parentheses that are open behind it are those that are open in front
of it, but for the token itself. -/
lemma advance (h : Accounted text vars active counter opened s) (heof : s.current ≠ .eof) :
    s.advance.Ends (Accounted text vars active counter (s.current.openBehind opened))
      (Refused text vars) := by
  obtain ⟨ts, hhanded, hopened, houtcomes⟩ := h.consumed
  rw [Reader.advance]
  rcases s.read_cases s.source with ⟨tok, rest, hnext, hread⟩ | ⟨fault, rest, hnext, hread⟩
  · have hrest : (Lexer.next s.source.source).2 = rest := congrArg Prod.snd hnext
    have hupcoming := Reader.outcomes_eq_upcoming (t := ⟨⟨tok, rest⟩, s.vars⟩) hnext
    rw [hread]
    exact
      { text_eq := by
          rw [← hrest, Lexer.next_snd]
          exact h.text_eq
        consumed := by
          refine ⟨ts ++ [s.current], by rw [hhanded], by rw [unclosed_concat, hopened], ?_⟩
          rw [houtcomes, Reader.upcoming_of_ne_eof (s := s.untraced) heof, List.map_append,
            List.append_assoc]
          exact congrArg (fun more => ts.map .ok ++ .ok s.current :: more) hupcoming
        depth_eq := h.depth_eq
        active_eq := h.active_eq
        entries := h.entries
        vars_eq := h.vars_eq }
  · rw [hread]
    exact ⟨h.entries, h.vars_eq, fun hnested => by cases hnested⟩

/-- Where 256 parentheses are open, one more is too many. -/
lemma overfull (h : Accounted text vars active counter 256 s) (hl : s.current = .lparen) :
    Overfull text := by
  obtain ⟨ts, -, hopened, houtcomes⟩ := h.consumed
  have hne : s.untraced.current ≠ .eof := fun heof => by cases hl.symm.trans heof
  refine ⟨ts, ⟨TokenSource.outcomes s.untraced.source, ?_⟩, hopened⟩
  rw [houtcomes, Reader.upcoming_of_ne_eof hne, ← hl, List.map_append, List.append_assoc]
  rfl

/-- Entering a rule: what is written down is right. -/
lemma enter (h : Accounted text vars active counter counter s) (hwaiting : Waiting active counter)
    (level : Level) :
    Accounted text vars (⟨level, false⟩ :: active) counter counter
      (s.account (Traced.enter level)) where
  text_eq := h.text_eq
  consumed := h.consumed
  depth_eq := h.depth_eq
  active_eq := congrArg (_ :: ·) h.active_eq
  vars_eq := h.vars_eq
  entries := by
    intro entry hentry
    rcases List.mem_append.1 hentry with hentry | hentry
    · exact h.entries entry hentry
    · obtain rfl := List.mem_singleton.1 hentry
      obtain ⟨ts, hhanded, hopened, houtcomes⟩ := h.consumed
      have hconsumed : s.source.handed.dropLast = ts := by rw [hhanded, List.dropLast_concat]
      exact
        { consumed := by
            rw [hconsumed, houtcomes]
            exact List.prefix_append _ _
          depth_eq_unclosed := by rw [hconsumed, hopened, h.depth_eq]
          depth_eq_waiting := by rw [h.depth_eq, h.active_eq, hwaiting.waiting]
          depth_le := by
            rw [h.depth_eq]
            exact hwaiting.le
          active_le := by
            rw [h.active_eq]
            exact hwaiting.active_le level }

/-- Coming back from a rule. -/
lemma leave {call : Activation} (h : Accounted text vars (call :: active) counter counter s) :
    Accounted text vars active counter counter (s.account Traced.leave) :=
  { h with active_eq := congrArg List.tail h.active_eq }

/-- A factor counts the parenthesis that it opens. -/
lemma deepen {call : Activation} (h : Accounted text vars (call :: active) counter opened s) :
    Accounted text vars ({ call with waits := true } :: active) (counter + 1) opened
      (s.account Traced.deepen) :=
  { h with
    depth_eq := congrArg (· + 1) h.depth_eq
    active_eq := Traced.active_deepen h.active_eq }

/-- A factor no longer counts the parenthesis that is closed. -/
lemma rise {call : Activation} (h : Accounted text vars (call :: active) counter opened s) :
    Accounted text vars ({ call with waits := false } :: active) (counter - 1) opened
      (s.account Traced.rise) :=
  { h with
    depth_eq := congrArg (· - 1) h.depth_eq
    active_eq := Traced.active_rise h.active_eq }

/-- Between parentheses, the account is kept up by every token. -/
lemma contract (text : String) (vars : Variables) (active : List Activation)
    (counter opened : Nat) :
    FlatContract (Accounted text vars active counter opened) (Refused text vars) where
  advance {s} hs heof hl hr := by
    have hadvance := hs.advance heof
    rwa [Token.openBehind_of_ne hl hr] at hadvance
  undefined hs _ := hs.refused (by simp)
  misplaced {s cause} hs hcause := by
    refine hs.refused fun hnested => ?_
    obtain rfl := Error.syntactic.inj hnested
    simp at hcause
  computed {s e} hs hkind := by
    refine hs.refused fun hnested => ?_
    subst hnested
    simp [Error.kind] at hkind

end Accounted

/-! ### Rules -/

/-- The rule keeps the account, wherever the parentheses that are open are those that factors
wait for. -/
def KeepsAccount (text : String) (vars : Variables) (active : List Activation) (counter : Nat)
    (rule : Rule (Traced Lexer) Value) : Prop :=
  rule.Ensures (Accounted text vars active counter counter) (Refused text vars)

namespace KeepsAccount

variable {text : String} {vars : Variables} {active : List Activation} {counter : Nat}
  {rule factor : Rule (Traced Lexer) Value}

lemma entered {level : Level} (h : KeepsAccount text vars (⟨level, false⟩ :: active) counter rule)
    (hwaiting : Waiting active counter) :
    KeepsAccount text vars active counter (rule.entered level) :=
  fun _ hs => (h (hs.enter hwaiting level)).bind fun _ _ _ ht => ht.leave

/-- A factor keeps the account, if what stands in its parentheses does, which is needed as long as
the counter allows parentheses. -/
lemma countedFactorWith {inner : Option (Rule (Traced Lexer) Value)}
    (hwaiting : Waiting active counter)
    (hinner : counter < 256 → ∃ rule, inner = some rule ∧
      KeepsAccount text vars (⟨.factor, true⟩ :: active) (counter + 1) rule) :
    KeepsAccount text vars active counter ((countedFactorWith inner).entered .factor) := by
  have hsome : counter ≠ 256 → ∃ rule, inner = some rule ∧
      KeepsAccount text vars (⟨.factor, true⟩ :: active) (counter + 1) rule :=
    fun hne => hinner (Nat.lt_of_le_of_ne hwaiting.le hne)
  have hrise : ∀ t : Reader (Traced Lexer),
      Accounted text vars (⟨.factor, true⟩ :: active) (counter + 1) counter t →
      Accounted text vars (⟨.factor, false⟩ :: active) counter counter (t.account Traced.rise) :=
    fun _ ht => ht.rise
  refine entered (fun s hs => ?_) hwaiting
  refine ends_countedFactor (Accounted.contract _ _ _ _ _) hs (fun hl hfull => ?_)
    (fun hl hdepth rule hrule => ?_) hrise
  · obtain rfl : counter = 256 := by
      rcases hfull with hdepth | hnone
      · exact hs.depth_eq.symm.trans hdepth
      · by_contra hne
        obtain ⟨rule, hrule, -⟩ := hsome hne
        cases hnone.symm.trans hrule
    exact ⟨hs.entries, hs.vars_eq, fun _ => hs.overfull hl⟩
  · obtain ⟨rule', hrule', hkeeps⟩ := hsome fun h => hdepth (hs.depth_eq.trans h)
    obtain rfl := Option.some.inj (hrule'.symm.trans hrule)
    have hopen : (s.account Traced.deepen).advance.Ends
        (Accounted text vars (⟨.factor, true⟩ :: active) (counter + 1) (counter + 1))
        (Refused text vars) := by
      have hadvance := hs.deepen.advance (by simp [Reader.account, hl])
      rwa [show (s.account Traced.deepen).current = .lparen from hl] at hadvance
    have hclose : ∀ t : Reader (Traced Lexer),
        Accounted text vars (⟨.factor, true⟩ :: active) (counter + 1) (counter + 1) t →
        t.current = .rparen → t.advance.Ends
          (Accounted text vars (⟨.factor, true⟩ :: active) (counter + 1) counter)
          (Refused text vars) := by
      intro t ht hr
      have hadvance := ht.advance (by simp [hr])
      rwa [hr] at hadvance
    exact Rule.ends_enclosed hopen hkeeps hclose fun t ht => ht.refused (by simp)

variable [FloatFunctions]

/-- Expressions keep the account, if factors do that are entered with more calls active. -/
lemma tracedExpression (hwaiting : Waiting active counter)
    (hfactor : ∀ calls, Waiting (calls ++ active) counter →
      KeepsAccount text vars (calls ++ active) counter factor) :
    KeepsAccount text vars active counter (tracedExpression factor) := by
  have hexpression : Waiting (⟨.expression, false⟩ :: active) counter := hwaiting.cons (by simp)
  have hterm : Waiting (⟨.term, false⟩ :: ⟨.expression, false⟩ :: active) counter :=
    hexpression.cons (by simp)
  have happlication : Waiting (⟨.application, false⟩ :: ⟨.term, false⟩ :: ⟨.expression, false⟩ ::
      active) counter := hterm.cons (by simp)
  have hcall := hfactor [⟨.application, false⟩, ⟨.term, false⟩, ⟨.expression, false⟩] happlication
  refine entered ((Accounted.contract _ _ _ _ _).chain Token.exists_arith_of_additive? ?_) hwaiting
  refine entered ((Accounted.contract _ _ _ _ _).chain Token.exists_arith_of_multiplicative? ?_)
    hexpression
  exact entered ((Accounted.contract _ _ _ _ _).application hcall) hterm

/-- **Factors keep the account**, if they may call each other as deep as the counter allows. -/
theorem tracedFactor (bound : Nat) (hwaiting : Waiting active counter)
    (hbound : 256 ≤ bound + counter) :
    KeepsAccount text vars active counter (tracedFactor bound) := by
  induction bound generalizing active counter with
  | zero => exact countedFactorWith hwaiting fun hlt => absurd hlt (by omega)
  | succ bound ih =>
      refine countedFactorWith hwaiting fun hlt => ⟨_, rfl, ?_⟩
      exact tracedExpression (hwaiting.deepen hlt) fun calls hcalls => ih hcalls (by omega)

end KeepsAccount

/-! ### Groups side by side -/

variable {text : String} {vars : Variables} {bound : Nat}

/-- If each of the pieces closes all that it opens, then side by side no more parentheses are open
than in one of them. -/
lemma unclosed_le_of_prefix_flatten {n : Nat} {pieces : List (List Token)}
    (h : ∀ p ∈ pieces, unclosed p = 0 ∧ ∀ ps, ps <+: p → unclosed ps ≤ n) {ps : List Token}
    (hps : ps <+: pieces.flatten) : unclosed ps ≤ n := by
  induction pieces generalizing ps with
  | nil =>
      rw [List.prefix_nil.1 hps]
      exact Nat.zero_le n
  | cons p pieces ih =>
      obtain ⟨hclosed, hopen⟩ := h p List.mem_cons_self
      rcases start_append_cases hps with hps | ⟨qs, hqs, rfl⟩
      · exact hopen ps hps
      · rw [unclosed_append hclosed]
        exact ih (fun q hq => h q (List.mem_cons_of_mem p hq)) hqs

lemma not_overfull_of_pieces {pieces : List (List Token)}
    (htext : Lexer.outcomes text.toList = pieces.flatten.map .ok)
    (h : ∀ p ∈ pieces, unclosed p = 0 ∧ ∀ ps, ps <+: p → unclosed ps ≤ 256) :
    ¬ Overfull text := by
  rintro ⟨ts, hts, hopened⟩
  rw [htext] at hts
  have hprefix : ts ++ [.lparen] <+: pieces.flatten :=
    (List.prefix_map_iff_of_injective fun _ _ h => Except.ok.inj h).1 hts
  have hle := unclosed_le_of_prefix_flatten h hprefix
  rw [unclosed_concat, hopened] at hle
  exact absurd hle (by decide)

/-! ### Statements -/

/-- Where a text starts, nothing is written down yet. -/
lemma accounted_of_start {t : Reader (Traced Lexer)}
    (ht : Reader.start (Traced.ofSource (Lexer.ofText text)) vars = .ok t) :
    Accounted text vars [] 0 0 t := by
  have hread : t.read (Traced.ofSource (Lexer.ofText text)) = .done () t :=
    Reader.read_eq_done_iff.2 ⟨(Reader.start_eq_ok_iff.1 ht).1, rfl⟩
  have hends : (t.read (Traced.ofSource (Lexer.ofText text))).Ends (Accounted text vars [] 0 0)
      (Refused text vars) :=
    Accounted.of_read rfl rfl (fun entry hentry => by cases hentry) (Reader.vars_of_start ht)
  rwa [hread] at hends

variable [FloatFunctions]

/-- A statement keeps the account up to its end. -/
lemma ends_tracedStatement (hbound : 256 ≤ bound) {s : Reader (Traced Lexer)}
    (hs : Accounted text vars [] 0 0 s) :
    (statementWith (tracedRule bound .expression) s).Ends
      (fun t => ∀ entry ∈ t.source.entries, entry.Balances text) (Refused text vars) := by
  have hexpression : KeepsAccount text vars [] 0 (tracedRule bound .expression) := by
    refine KeepsAccount.tracedExpression .nil fun calls hcalls => ?_
    exact KeepsAccount.tracedFactor bound hcalls (Nat.le_add_right_of_le hbound)
  refine (Accounted.contract _ _ _ _ _).statementWith hexpression (fun t ht => ?_)
    (fun _ ht => ht.entries) (fun _ _ _ ht => ht.entries) hs
  have hreset : Lexer.reset t.source.source = Lexer.ofText text := by
    rw [Lexer.reset, ht.text_eq]
    rfl
  have hread : t.rescan.Ends (Accounted text vars t.source.active t.source.depth 0)
      (Refused text vars) := Accounted.of_read hreset rfl ht.entries ht.vars_eq
  rwa [ht.active_eq, ht.depth_eq] at hread

/-- With an account, a statement comes to the same. -/
lemma related_tracedStatement (hbound : 256 ≤ bound) {s : Reader Lexer} {t : Reader (Traced Lexer)}
    (h : Mirrors 0 s t) :
    (statement s).Related (fun m u => u.vars = m.vars)
      (statementWith (tracedRule bound .expression) t) := by
  have hvars : ∀ (m : Reader Lexer) (u : Reader (Traced Lexer)), Mirrors 0 m u →
      u.vars = m.vars := by
    rintro m u ⟨rfl, -⟩
    rfl
  have hexpression : (expression maxNesting).Simulates (Mirrors 0)
      (tracedRule bound .expression : Rule (Traced Lexer) Value) :=
    simulates_tracedExpression (simulates_tracedFactor (Nat.zero_le _) hbound)
  rw [statement_eq]
  refine (simulation_mirrors 0).statementWith hexpression (fun m u hmu => ?_) hvars
    (fun m u name v hmu => congrArg (·.set name v) (hvars m u hmu)) h
  obtain ⟨rfl, hdepth⟩ := hmu
  exact Mirrors.read (RereadableSource.reset u.source) ⟨rfl, hdepth⟩ hdepth

lemma tracedEvaluate_of_start {t : Reader (Traced Lexer)}
    (ht : Reader.start (Traced.ofSource (Lexer.ofText text)) vars = .ok t) :
    tracedEvaluate bound text vars =
      (((statementWith (tracedRule bound .expression) t).result,
          (statementWith (tracedRule bound .expression) t).place.vars),
        (statementWith (tracedRule bound .expression) t).place.source.entries) := by
  rw [tracedEvaluate, ht]

/-- **The account changes nothing**: with it, every text comes to the same, and leaves the same
table. -/
theorem tracedEvaluate_eq (hbound : 256 ≤ bound) (text : String) (vars : Variables) :
    (tracedEvaluate bound text vars).1 = evaluate text vars := by
  rcases Mirrors.start_cases (Lexer.ofText text) vars with ⟨e, hs, ht⟩ | ⟨s, t, hs, ht, hst⟩
  · rw [tracedEvaluate, ht, evaluate, hs]
  · have hends := ends_tracedStatement hbound (accounted_of_start ht)
    have hrelated := related_tracedStatement hbound hst
    rw [tracedEvaluate_of_start ht, evaluate_of_start hs]
    refine hrelated.result_vars_eq (fun _ _ hvars => hvars)
      (fun e stop hfailed => vars_of_statement_failed hs hfailed) fun e stop hfailed => ?_
    rw [hfailed] at hends
    exact hends.vars_eq

/-- What is written down of the calls is right. -/
theorem balances_of_mem_tracedEvaluate (hbound : 256 ≤ bound) {entry : Entry}
    (hentry : entry ∈ (tracedEvaluate bound text vars).2) : entry.Balances text := by
  rcases Mirrors.start_cases (Lexer.ofText text) vars with ⟨e, -, ht⟩ | ⟨s, t, -, ht, -⟩
  · rw [tracedEvaluate, ht] at hentry
    cases hentry
  · have hends := ends_tracedStatement hbound (accounted_of_start ht)
    rw [tracedEvaluate_of_start ht] at hentry
    exact hends.place (fun _ hs => hs) (fun _ _ hrefused => hrefused.entries) entry hentry

/-- A text is refused for its nesting only if one parenthesis in it is too many. -/
theorem overfull_of_nested (h : (evaluate text vars).1 = .error (.syntactic .nestedTooDeeply)) :
    Overfull text := by
  rw [← tracedEvaluate_eq (Nat.le_refl 256)] at h
  rcases Mirrors.start_cases (Lexer.ofText text) vars with ⟨e, -, ht⟩ | ⟨s, t, -, ht, -⟩
  · rw [tracedEvaluate, ht] at h
    cases h
  · have hends := ends_tracedStatement (Nat.le_refl 256) (accounted_of_start ht)
    rw [tracedEvaluate_of_start ht] at h
    exact (hends.of_result h).overfull rfl

/-- **The account of the parentheses**: a counter that goes up in front of a parenthesis and down
behind it, and that alone decides whether one more may be opened, does not change what any text
comes to. Every call of a rule is written down, and whenever a rule is entered, the counter shows
how many parentheses are opened and not yet closed, and how many factors wait for what stands in a
parenthesis, which are at most 256. Every rule that succeeds leaves the counter as it found it. So
at most 257 factors are ever active, a text is refused for its nesting only where 257 parentheses
are open at once, and never because of groups that stand side by side. -/
theorem evaluate_accounts (text : String) (vars : Variables) (extra : Nat) :
    (tracedEvaluate (256 + extra) text vars).1 = evaluate text vars ∧
      (∀ (bound : Nat) (level : Level) (s : Reader (Traced Lexer)),
        s.source.entries ++ [⟨level, s.source.handed.dropLast, s.source.depth, s.source.active⟩] <+:
          ((tracedRule bound level).run s).place.source.entries) ∧
      (∀ entry ∈ (tracedEvaluate (256 + extra) text vars).2, entry.Balances text) ∧
      (∀ (bound : Nat) (level : Level) (s t : Reader (Traced Lexer)) (v : Value),
        (tracedRule bound level).run s = .done v t →
          t.source.depth = s.source.depth ∧ t.source.active = s.source.active) ∧
      ((evaluate text vars).1 = .error (.syntactic .nestedTooDeeply) →
        ∃ ts, (ts ++ [Token.lparen]).map .ok <+: Lexer.outcomes text.toList ∧
          unclosed ts = 256) ∧
      ∀ pieces : List (List Token), Lexer.outcomes text.toList = pieces.flatten.map .ok →
        (∀ p ∈ pieces, unclosed p = 0 ∧ ∀ ps, ps <+: p → unclosed ps ≤ 256) →
        (evaluate text vars).1 ≠ .error (.syntactic .nestedTooDeeply) := by
  have hbound : 256 ≤ 256 + extra := Nat.le_add_right 256 extra
  exact ⟨tracedEvaluate_eq hbound text vars, written_of_tracedRule,
    fun entry => balances_of_mem_tracedEvaluate hbound,
    fun bound level s t v hrun => stands_of_tracedRule hrun, overfull_of_nested,
    fun pieces htext hpieces hnested =>
      not_overfull_of_pieces htext hpieces (overfull_of_nested hnested)⟩

/-- The calls in a text with one group, and where the counter stands at each. -/
example :
    (tracedEvaluate 256 "(1) + 2" .empty).2.map (fun entry => (entry.rule, entry.depth)) =
      [(.expression, 0), (.term, 0), (.application, 0), (.factor, 0),
        (.expression, 1), (.term, 1), (.application, 1), (.factor, 1),
        (.term, 0), (.application, 0), (.factor, 0)] := by
  with_unfolding_all rfl

end Reckon
