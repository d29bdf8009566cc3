import Mathlib.Data.List.Induction
import Reckon.Proofs.Lexer.Calls

/-!
Runs of a lexer.

A caller asks for one token after the other, and at any time he may have the
text read again from its start, also right behind a fault. All that matters of
such a run is how many calls there were since the last reset. So every call
comes to what a call on a fresh lexer comes to, and whoever goes on calling
comes to the end of the text, whatever faults are on the way.

* `Operation`, `run` and `answers`: what a lexer can be asked for, the lexer
  behind a run, and what the calls in a run come to;
* `sinceReset`: the number of calls since the last reset;
* `run_eq_after`: the lexer behind a run is one that was called so often;
* `countP_answers_le`: calls without a reset pay for what they come to with
  the characters that are left;
* `run_answers`: the main statement.
-/

namespace Reckon.Lexer

/-- What a lexer can be asked for. -/
inductive Operation where
  /-- The next token. -/
  | next
  /-- The text from its start. -/
  | reset
deriving DecidableEq

/-- The lexer after an operation. -/
def perform (l : Lexer) : Operation → Lexer
  | .next => l.next.2
  | .reset => l.reset

/-- The lexer behind a run. -/
def run (l : Lexer) (ops : List Operation) : Lexer := ops.foldl perform l

/-- What the calls in a run come to, in order. -/
def answers (l : Lexer) : List Operation → List (Except LexError Token)
  | [] => []
  | .next :: ops => l.next.1 :: l.next.2.answers ops
  | .reset :: ops => l.reset.answers ops

/-- The number of calls since the last reset, or since the start if there was none. -/
def sinceReset (ops : List Operation) : Nat := (ops.reverse.takeWhile (· = .next)).length

variable {ops : List Operation}

/-! ### The lexer behind a run -/

lemma run_append (l : Lexer) (ops more : List Operation) :
    l.run (ops ++ more) = (l.run ops).run more := List.foldl_append

lemma answers_append (l : Lexer) (ops more : List Operation) :
    l.answers (ops ++ more) = l.answers ops ++ (l.run ops).answers more := by
  induction ops generalizing l with
  | nil => rfl
  | cons op ops ih =>
      cases op with
      | next => exact congrArg (l.next.1 :: ·) (ih l.next.2)
      | reset => exact ih l.reset

lemma sinceReset_concat_next (ops : List Operation) :
    sinceReset (ops ++ [.next]) = sinceReset ops + 1 := by
  rw [sinceReset, List.reverse_concat, List.takeWhile_cons_of_pos (by rfl), List.length_cons]
  rfl

lemma sinceReset_concat_reset (ops : List Operation) : sinceReset (ops ++ [.reset]) = 0 := by
  rw [sinceReset, List.reverse_concat, List.takeWhile_cons_of_neg (by decide), List.length_nil]

/-- No operation changes the text. -/
lemma text_run (l : Lexer) (ops : List Operation) : (l.run ops).text = l.text := by
  induction ops generalizing l with
  | nil => rfl
  | cons op ops ih =>
      show ((l.perform op).run ops).text = l.text
      rw [ih]
      cases op <;> rfl

/-- **What matters of a run** is the number of calls since the last reset. -/
lemma run_eq_after (text : String) (ops : List Operation) :
    (ofText text).run ops = (ofText text).after (sinceReset ops) := by
  induction ops using List.reverseRecOn with
  | nil => rfl
  | append_singleton ops op ih =>
      rw [run_append]
      cases op with
      | next =>
          rw [sinceReset_concat_next, after, ← ih]
          rfl
      | reset =>
          rw [sinceReset_concat_reset]
          show ((ofText text).run ops).reset = ofText text
          rw [reset, text_run]
          rfl

/-! ### What calls use up -/

/-- Anything but the end has at least one character, which is not left after it. -/
lemma exists_consumed {l : Lexer} (h : l.next.1 ≠ .ok .eof) :
    ∃ consumed, consumed ≠ [] ∧ l.rest = consumed ++ l.next.2.rest := by
  obtain ⟨consumed, hconsumed⟩ := scan_suffix l.rest
  refine ⟨consumed, fun hnil => ?_, hconsumed.symm⟩
  have hshort : (scan l.rest).2.length < l.rest.length := scan_shortens h
  rw [hnil, List.nil_append] at hconsumed
  rw [hconsumed] at hshort
  exact Nat.lt_irrefl _ hshort

/-- **Calls are paid for with characters**: each one that does not come to the end uses up at
least one of those that are left. -/
lemma countP_answers_le (l : Lexer) (h : .reset ∉ ops) :
    (l.answers ops).countP (!isEnd ·) + (l.run ops).rest.length ≤ l.rest.length := by
  induction ops generalizing l with
  | nil => exact Nat.le_of_eq (Nat.zero_add _)
  | cons op ops ih =>
      cases op with
      | reset => exact absurd List.mem_cons_self h
      | next =>
          have hrest := ih l.next.2 fun hmem => h (List.mem_cons_of_mem _ hmem)
          have hle : l.next.2.rest.length ≤ l.rest.length := length_scan_le l.rest
          show (l.next.1 :: l.next.2.answers ops).countP _ + (l.next.2.run ops).rest.length ≤ _
          by_cases hend : l.next.1 = .ok .eof
          · rw [List.countP_cons_of_neg (by simpa using hend)]
            exact hrest.trans hle
          · have hlt : l.next.2.rest.length < l.rest.length := scan_shortens hend
            rw [List.countP_cons_of_pos (by simpa [Bool.eq_false_iff] using hend)]
            omega

/-- Where nothing is left, all calls come to the end. -/
lemma eq_eof_of_mem_answers {l : Lexer} (hl : l.rest = []) (h : .reset ∉ ops) :
    ∀ o ∈ l.answers ops, o = .ok .eof := by
  have hcount := countP_answers_le l h
  rw [hl, List.length_nil] at hcount
  have hzero : (l.answers ops).countP (!isEnd ·) = 0 := by omega
  intro o ho
  simpa using List.countP_eq_zero.1 hzero o ho

/-- A text has no more tokens and faults than characters. -/
lemma length_outcomes_le (text : List Char) : (outcomes text).length ≤ text.length := by
  induction hn : text.length using Nat.strongRecOn generalizing text with
  | _ n ih =>
    by_cases hend : (scan text).1 = .ok .eof
    · rw [outcomes_of_end hend]
      exact Nat.zero_le n
    · have hshort := scan_shortens hend
      have hrest := ih _ (hn ▸ hshort) (scan text).2 rfl
      rw [outcomes_of_not_end hend, List.length_cons]
      omega

/-- **Runs of a lexer**: wherever a call stands in a run, it comes to what the call with the same
number comes to on a fresh lexer, counted from the last reset, whatever was found before it. Of
the calls between two resets at most as many as the text has characters come to anything but the
end, and each of these has at least one character, which is not left after it. Once a call comes
to the end, all calls do so up to the next reset. -/
theorem run_answers (text : String) (before : List Operation) :
    (∀ behind, (ofText text).answers (before ++ .next :: behind) =
        (ofText text).answers before ++ (ofText text).call (sinceReset before) ::
          ((ofText text).run (before ++ [.next])).answers behind) ∧
      (∀ calls, .reset ∉ calls →
        (((ofText text).run before).answers calls).countP (!isEnd ·) ≤ text.length) ∧
      ((ofText text).call (sinceReset before) ≠ .ok .eof →
        ∃ consumed, consumed ≠ [] ∧ ((ofText text).run before).rest =
          consumed ++ ((ofText text).run (before ++ [.next])).rest) ∧
      ((ofText text).call (sinceReset before) = .ok .eof → ∀ calls, .reset ∉ calls →
        ∀ o ∈ ((ofText text).run (before ++ [.next])).answers calls, o = .ok .eof) := by
  have hcall : ((ofText text).run before).next.1 = (ofText text).call (sinceReset before) := by
    rw [run_eq_after, call]
  have hnext : (ofText text).run (before ++ [.next]) = ((ofText text).run before).next.2 :=
    run_append _ before [.next]
  refine ⟨fun behind => ?_, fun calls hcalls => ?_, fun hne => ?_, fun hend calls hcalls => ?_⟩
  · rw [answers_append, hnext, ← hcall]
    rfl
  · have hcount := countP_answers_le ((ofText text).run before) hcalls
    have hrest : ((ofText text).run before).rest.length ≤ text.length := by
      rw [run_eq_after, ← String.length_toList]
      exact (after_rest_suffix (ofText text) (sinceReset before)).length_le
    omega
  · rw [hnext]
    exact exists_consumed (hcall.trans_ne hne)
  · rw [hnext]
    exact eq_eof_of_mem_answers (scan_snd_of_end (hcall.trans hend)) hcalls

/-- A run with a reset behind a fault. -/
example : (ofText "1 $ 2").answers [.next, .next, .reset, .next, .next, .next, .next, .next] =
    [.ok (.int 1), .error (.unexpectedCharacter '$'), .ok (.int 1),
      .error (.unexpectedCharacter '$'), .ok (.int 2), .ok .eof, .ok .eof] := by
  with_unfolding_all rfl

end Reckon.Lexer
