import Mathlib.Algebra.BigOperators.Group.Finset.Basic
import Mathlib.Algebra.BigOperators.Group.Finset.Piecewise
import Mathlib.Data.Fintype.BigOperators
import Mathlib.Tactic.Ring
import Reckon.Proofs.Lexer.Splitting
import Reckon.Proofs.Shared.Independence
import Reckon.Proofs.Statement.Assignment

/-!
A counter that several threads count up.

Every thread adds the same number to one variable, as often as it likes. No
addition is lost: under the lock they are made one after another, and since
the number is not negative, they succeed as long as the sum is an integer of
64 bits, and fail from then on, without a change to the counter.

* `increment`: the statement, with `evaluate_increment_of_fits` and
  `evaluate_increment_of_overflow` for what it does to a table;
* `successes`: how many of the additions succeed;
* `performAll_replicate`: additions one after another, by induction on their
  number;
* `sum_countP_repliesOf`: every reply belongs to one thread;
* `no_lost_update`: the main statement, for all runs.
-/

namespace Reckon

open Shared

/-! ### The statement -/

/-- The digits denote the integer, any number of zeros in front. -/
structure Denotes (literal : String) (n : Int64) : Prop where
  ne_empty : literal ≠ ""
  digits : ∀ d ∈ literal.toList, d.isDigit = true
  value : n.toInt = Nat.ofDigitChars 10 literal.toList 0

/-- The statement that adds a number to a variable. -/
def increment (name literal : String) : String := name ++ " = " ++ (name ++ " + " ++ literal)

variable {name literal : String} {n c m : Int64} {vars table : Variables}

/-- Digits are read as the integer that they denote. -/
lemma Denotes.outcomes_eq (h : Denotes literal c) :
    Lexer.outcomes literal.toList = [.ok (.int c)] := by
  have hpoint : '.' ∉ literal.toList := fun hmem => by cases h.digits '.' hmem
  have hle : c.toInt ≤ 9223372036854775807 := c.toInt_le
  have hvalue := h.value
  have hrun : Lexer.LongestRun Lexer.isNumberPart literal.toList [] :=
    ⟨by simpa using h.ne_empty, fun d hd => Lexer.isNumberPart_of_isDigit (h.digits d hd), by simp⟩
  exact Lexer.outcomes_of_lexeme (.number hrun (.int hpoint (by omega) hvalue))

/-- An addition of a name and a number, written with blanks. -/
lemma outcomes_sum (hname : Text.IsWord name) (hliteral : Denotes literal c) :
    Lexer.outcomes (name ++ " + " ++ literal).toList =
      [.ok (.ident name), .ok (.arith .add), .ok (.int c)] := by
  have hblank : Text.isBlank ' ' = true := by decide
  have hends : Lexer.EndsWord (' ' :: '+' :: ' ' :: literal.toList) := by
    intro d hd
    cases hd
    decide +kernel
  have htext : (name ++ " + " ++ literal).toList =
      name.toList ++ ' ' :: '+' :: ' ' :: literal.toList := by
    simp
  have hsign : Lexer.outcomes ('+' :: ' ' :: literal.toList) =
      .ok (.arith .add) :: Lexer.outcomes (' ' :: literal.toList) :=
    Lexer.outcomes_operator_append .add _
  rw [htext, Lexer.outcomes_word_append (by simpa using hname.ne_empty) hname.letters hends,
    String.ofList_toList, Lexer.outcomes_cons_of_blank hblank, hsign,
    Lexer.outcomes_cons_of_blank hblank, hliteral.outcomes_eq]

/-- The statement stores the sum. -/
lemma parses_increment (hname : Text.IsWord name) (hliteral : Denotes literal c) :
    Parses (increment name literal)
      (.assignment name (.value (.binary .add (.ident name) (.int c)))) := by
  have hsum : Derives .expression 0 [.ident name, .arith .add, .int c]
      (.binary .add (.ident name) (.int c)) :=
    .sum (.ofTerm (.ofApplication (.ofFactor (.ident name)))) (.inl rfl)
      (.ofApplication (.ofFactor (.int c)))
  refine ⟨0, _, ?_, .assignment name (.value hsum), Nat.zero_le 256⟩
  rw [increment, outcomes_assignment hname.ne_empty hname.letters, outcomes_sum hname hliteral]
  rfl

section Evaluation

variable [FloatFunctions]

/-- What the statement does is decided by the sum of the two integers. -/
lemma evaluate_increment (hname : Text.IsWord name) (hliteral : Denotes literal c)
    (hn : vars.get? name = some (.int n)) :
    evaluate (increment name literal) vars =
      (fit? (n.toInt + c.toInt)).elim (.error (.integerOverflow n .add c), vars)
        fun m => (.ok none, vars.set name (.int m)) := by
  have hget : vars.get name = .ok (.int n) := Variables.get_eq_ok_iff.2 hn
  have hvalue : (Clause.value (.binary .add (.ident name) (.int c))).eval vars =
      (ArithOp.applyInt .add n c).map Value.int := by
    rw [Clause.eval, Expr.eval, Expr.eval, Expr.eval, hget]
    rfl
  rw [evaluate_of_parses (parses_increment hname hliteral), StatementTree.run, hvalue,
    ArithOp.applyInt, if_neg (by simp), ArithOp.exact]
  cases fit? (n.toInt + c.toInt) <;> rfl

/-- A sum of 64 bits is stored. -/
lemma evaluate_increment_of_fits (hname : Text.IsWord name) (hliteral : Denotes literal c)
    (hn : vars.get? name = some (.int n)) (hm : m.toInt = n.toInt + c.toInt) :
    evaluate (increment name literal) vars = (.ok none, vars.set name (.int m)) := by
  rw [evaluate_increment hname hliteral hn, fit?_eq_some_iff.2 hm, Option.elim_some]

/-- A sum beyond 64 bits is refused. -/
lemma evaluate_increment_of_overflow (hname : Text.IsWord name) (hliteral : Denotes literal c)
    (hn : vars.get? name = some (.int n)) (hlarge : 2 ^ 63 - 1 < n.toInt + c.toInt) :
    evaluate (increment name literal) vars = (.error (.integerOverflow n .add c), vars) := by
  have hfit : fit? (n.toInt + c.toInt) = none := by
    rw [Option.eq_none_iff_forall_ne_some]
    intro m hm
    have hle : m.toInt ≤ 9223372036854775807 := m.toInt_le
    have hsum := fit?_eq_some_iff.1 hm
    omega
  rw [evaluate_increment hname hliteral hn, hfit, Option.elim_none]

end Evaluation

/-! ### Additions one after another -/

/-- How many of `k` additions of `c` to `n` succeed: all of them if all of them together stay
within 64 bits, and else as many as there is room for. -/
def successes (n c : Int) (k : Nat) : Nat :=
  if n + k * c ≤ 2 ^ 63 - 1 then k else ((2 ^ 63 - 1 - n) / c).toNat

section Successes

variable {i j : Int} {k : Nat}

lemma successes_zero (hi : i ≤ 2 ^ 63 - 1) : successes i j 0 = 0 :=
  if_pos (by omega)

/-- After an addition that succeeds, the others start from its sum. -/
lemma successes_succ_of_le (hj : 0 ≤ j) (h : i + j ≤ 2 ^ 63 - 1) :
    successes i j (k + 1) = successes (i + j) j k + 1 := by
  have hsum : i + (k + 1 : Nat) * j = i + j + k * j := by
    push_cast
    ring
  rw [successes, successes, hsum]
  split_ifs with hall
  · rfl
  · have hpositive : j ≠ 0 := by
      rintro rfl
      simp only [Int.mul_zero, Int.add_zero] at h hall
      exact hall h
    have hroom : (2 ^ 63 - 1 - i) / j = (2 ^ 63 - 1 - (i + j)) / j + 1 := by
      have hsplit : 2 ^ 63 - 1 - i = 2 ^ 63 - 1 - (i + j) + 1 * j := by ring
      rw [hsplit, Int.add_mul_ediv_right _ _ hpositive]
    have hnonneg : 0 ≤ (2 ^ 63 - 1 - (i + j)) / j := Int.ediv_nonneg (by omega) hj
    rw [hroom]
    omega

/-- After an addition that fails, no other one succeeds. -/
lemma successes_of_lt (hi : i ≤ 2 ^ 63 - 1) (h : 2 ^ 63 - 1 < i + j) : successes i j k = 0 := by
  cases k with
  | zero => exact successes_zero hi
  | succ k =>
      have hmore : 0 ≤ k * j := Int.mul_nonneg (Int.natCast_nonneg k) (by omega)
      have hsum : i + (k + 1 : Nat) * j = i + j + k * j := by
        push_cast
        ring
      rw [successes, if_neg (by omega), Int.ediv_eq_zero_of_lt (by omega) (by omega)]
      rfl

end Successes

/-- A variable that is given the value that it has stays as it is. -/
lemma Variables.set_of_get? {v : Value} (h : vars.get? name = some v) :
    vars.set name v = vars := by
  refine ext fun other => ?_
  rw [get?_set]
  split_ifs with hname
  · rw [← hname, h]
  · rfl

/-- Of two values that a variable is given, the second one counts. -/
lemma Variables.set_set (vars : Variables) (name : String) (v w : Value) :
    (vars.set name v).set name w = vars.set name w := by
  refine ext fun other => ?_
  simp only [get?_set]
  split_ifs <;> rfl

/-- **Additions one after another**: as long as there is room they succeed, and from then on they
fail and leave the sum as it is. -/
lemma performAll_replicate [FloatFunctions] (hname : Text.IsWord name)
    (hliteral : Denotes literal c) (k : Nat) (hn : table.get? name = some (.int n)) :
    ∃ m : Int64, m.toInt = n.toInt + successes n.toInt c.toInt k * c.toInt ∧
      performAll (List.replicate k (.evaluate (increment name literal))) table =
        (List.replicate (successes n.toInt c.toInt k) (.result (.ok none)) ++
          List.replicate (k - successes n.toInt c.toInt k)
            (.result (.error (.integerOverflow m .add c))),
          table.set name (.int m)) := by
  have hc : 0 ≤ c.toInt := by
    rw [hliteral.value]
    exact Int.natCast_nonneg _
  induction k generalizing n table with
  | zero =>
      have hle : n.toInt ≤ 2 ^ 63 - 1 := n.toInt_le
      refine ⟨n, by simp [successes_zero hle], ?_⟩
      rw [successes_zero hle, Variables.set_of_get? hn]
      rfl
  | succ k ih =>
      have hle : n.toInt ≤ 2 ^ 63 - 1 := n.toInt_le
      rw [List.replicate_succ, performAll_evaluate]
      by_cases hroom : n.toInt + c.toInt ≤ 2 ^ 63 - 1
      · have hleast : -2 ^ 63 ≤ n.toInt := n.le_toInt
        obtain ⟨m, hm⟩ : ∃ m : Int64, m.toInt = n.toInt + c.toInt :=
          ⟨Int64.ofInt (n.toInt + c.toInt), Int64.toInt_ofInt_of_le (by omega) (by omega)⟩
        obtain ⟨v, hv, hall⟩ := ih (table.get?_set_self name (.int m))
        rw [hm] at hv hall
        rw [evaluate_increment_of_fits hname hliteral hn hm, hall,
          successes_succ_of_le hc hroom, Variables.set_set]
        refine ⟨v, ?_, ?_⟩
        · rw [hv]
          push_cast
          ring
        · rw [Nat.add_sub_add_right, List.replicate_succ]
          rfl
      · have hzero : ∀ k, successes n.toInt c.toInt k = 0 := fun k =>
          successes_of_lt hle (by omega)
        obtain ⟨v, hv, hall⟩ := ih hn
        rw [hzero] at hv hall
        obtain rfl : v = n := by
          rw [← Int64.toInt_inj, hv]
          simp
        rw [evaluate_increment_of_overflow hname hliteral hn (by omega), hall, hzero]
        exact ⟨v, by simp, rfl⟩

/-! ### The replies to all threads -/

namespace Shared

/-- The call succeeded. -/
def succeeded : Reply → Bool
  | .result (.ok _) => true
  | _ => false

/-- The call was refused because of an overflow. -/
def overflowed : Reply → Bool
  | .result (.error e) => e.kind = .overflow
  | _ => false

variable {ι : Type} [DecidableEq ι] [Fintype ι] {order : List (ι × Call)}

/-- **Every reply belongs to one thread**, so those of all threads can be counted at once. -/
lemma sum_countP_repliesOf (p : Reply → Bool) {replies : List Reply}
    (h : replies.length = order.length) :
    ∑ i, (repliesOf i order replies).countP p = replies.countP p := by
  induction order generalizing replies with
  | nil =>
      obtain rfl := List.length_eq_zero_iff.1 h
      simp [repliesOf]
  | cons first rest ih =>
      obtain ⟨j, call⟩ := first
      cases replies with
      | nil => cases h
      | cons reply more =>
          have hrest := ih (Nat.succ.inj h)
          have hcount : ∀ i, (repliesOf i ((j, call) :: rest) (reply :: more)).countP p =
              (repliesOf i rest more).countP p +
                if j = i then if p reply = true then 1 else 0 else 0 := by
            intro i
            rw [repliesOf_cons]
            split_ifs with hj hp <;> simp [*]
          simp only [hcount, Finset.sum_add_distrib, hrest, Finset.sum_ite_eq, Finset.mem_univ,
            if_true, List.countP_cons]

/-- Every call belongs to one thread. -/
lemma sum_length_callsOf (order : List (ι × Call)) :
    ∑ i, (callsOf i order).length = order.length := by
  induction order with
  | nil => simp [callsOf, callsIn]
  | cons first rest ih =>
      obtain ⟨j, call⟩ := first
      have hcount : ∀ i, (callsOf i ((j, call) :: rest)).length =
          (callsOf i rest).length + if j = i then 1 else 0 := by
        intro i
        rw [callsOf_cons]
        split_ifs <;> rfl
      simp only [hcount, Finset.sum_add_distrib, ih, Finset.sum_ite_eq, Finset.mem_univ, if_true,
        List.length_cons]

/-- If all threads make the same call, there is nothing to choose but how often. -/
lemma callsIn_eq_replicate {call : Call} {times : ι → Nat}
    (h : ∀ i, callsOf i order = List.replicate (times i) call) :
    callsIn order = List.replicate (∑ i, times i) call := by
  rw [List.eq_replicate_iff]
  constructor
  · rw [callsIn, List.length_map, ← sum_length_callsOf order]
    exact Finset.sum_congr rfl fun i _ => by rw [h i, List.length_replicate]
  · intro other hother
    obtain ⟨p, hp, rfl⟩ := List.mem_map.1 hother
    have hown : p.2 ∈ callsOf p.1 order :=
      List.mem_map_of_mem (List.mem_filter.2 ⟨hp, by simp⟩)
    rw [h p.1] at hown
    exact List.eq_of_mem_replicate hown

/-! ### All runs -/

/-- **No addition is lost**: if any number of threads, in any order of their steps, add the same
number to a variable, so often all together, then as many additions succeed as there is room for,
all others are refused because of an overflow, and at the end the variable holds the sum of those
that succeeded. No other variable changes. -/
theorem no_lost_update [FloatFunctions] (hname : Text.IsWord name) (hliteral : Denotes literal c)
    (hn : table.get? name = some (.int n)) {times : ι → Nat} {final : System ι}
    (run : Steps
      (System.start table fun i => List.replicate (times i) (.evaluate (increment name literal)))
      order final)
    (hfinished : final.Finished) :
    let k := ∑ i, times i
    let s := successes n.toInt c.toInt k
    s ≤ k ∧
      ∑ i, (final.threads i).replies.countP succeeded = s ∧
      ∑ i, (final.threads i).replies.countP overflowed = k - s ∧
      (∃ m : Int64, m.toInt = n.toInt + s * c.toInt ∧
        final.table.get? name = some (.int m)) ∧
      ∀ other, other ≠ name → final.table.get? other = table.get? other := by
  intro k s
  obtain ⟨hcalls, hreplies, htable⟩ := sequential_of_finished run hfinished
  have hin : callsIn order = List.replicate k (.evaluate (increment name literal)) :=
    callsIn_eq_replicate hcalls
  obtain ⟨m, hm, hall⟩ := performAll_replicate hname hliteral k hn
  have hlength : (performAll (callsIn order) table).1.length = order.length := by
    rw [length_performAll, callsIn, List.length_map]
  have hcount : ∀ p : Reply → Bool, ∑ i, (final.threads i).replies.countP p =
      (performAll (callsIn order) table).1.countP p := by
    intro p
    simp only [hreplies]
    exact sum_countP_repliesOf p hlength
  have hsk : s ≤ k := by
    have hk := length_performAll (List.replicate k (.evaluate (increment name literal))) table
    rw [hall] at hk
    simp only [List.length_append, List.length_replicate] at hk
    omega
  rw [hcount, hcount, htable, hin, hall]
  refine ⟨hsk, ?_, ?_, ⟨m, hm, Variables.get?_set_self _ _ _⟩, fun other hother =>
    Variables.get?_set_of_ne hother.symm _ _⟩
  · simp [List.countP_replicate, succeeded, s]
  · simp [List.countP_replicate, overflowed, Error.kind, s]

section Machine

attribute [local instance] FloatFunctions.native

/-- Two threads, and room for one of their three additions. -/
theorem no_lost_update_two_threads :
    Text.IsWord "n" ∧ Denotes "1" 1 ∧
      ∃ order final, Steps
          (System.start (Variables.empty.set "n" (.int 9223372036854775806)) fun first =>
            List.replicate (cond first 2 1) (.evaluate (increment "n" "1")))
          order final ∧
        final.Finished ∧
        ∑ first, (final.threads first).replies.countP succeeded = 1 ∧
        ∑ first, (final.threads first).replies.countP overflowed = 2 ∧
        final.table.get? "n" = some (.int 9223372036854775807) := by
  have hname : Text.IsWord "n" := by
    refine ⟨by decide, fun c hc => ?_⟩
    obtain rfl : c = 'n' := by simpa using hc
    exact Text.isLetter_of_isAlpha (by decide)
  have hdigits : "1".toList.all Char.isDigit = true := by decide
  have hliteral : Denotes "1" 1 := ⟨by decide, List.all_eq_true.1 hdigits, by decide⟩
  obtain ⟨final, run, hfinished⟩ : ∃ final, Steps
      (System.start (Variables.empty.set "n" (.int 9223372036854775806)) fun first =>
        List.replicate (cond first 2 1) (.evaluate (increment "n" "1")))
      [(true, .evaluate (increment "n" "1")), (false, .evaluate (increment "n" "1")),
        (true, .evaluate (increment "n" "1"))] final ∧ final.Finished :=
    ⟨_, .step (.acquire (i := true) rfl rfl) <| .step (.compute rfl) <| .step (.store rfl) <|
      .step (.release rfl) <| .step (.acquire (i := false) rfl rfl) <| .step (.compute rfl) <|
      .step (.store rfl) <| .step (.release rfl) <| .step (.acquire (i := true) rfl rfl) <|
      .step (.compute rfl) <| .step (.store rfl) <| .step (.release rfl) <| .refl _,
      rfl, Bool.rec rfl rfl⟩
  obtain ⟨-, hsucceeded, hoverflowed, ⟨m, hm, htable⟩, -⟩ :=
    no_lost_update hname hliteral (Variables.get?_set_self _ _ _) run hfinished
  have hmax : m = 9223372036854775807 := by
    rw [← Int64.toInt_inj, hm]
    decide
  rw [hmax] at htable
  exact ⟨hname, hliteral, _, final, run, hfinished, hsucceeded, hoverflowed, htable⟩

end Machine

end Shared

end Reckon
