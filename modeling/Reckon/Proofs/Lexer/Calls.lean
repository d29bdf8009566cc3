import Reckon.Proofs.Lexer.Splitting

/-!
The lexer called again and again.

Faults do not stop the lexer: every call goes on where the one before it
ended, and past the last token every call comes to the end. So the calls on
a text come to its tokens and faults in order, and then to the end. Where
blanks stand between two texts, the calls on the whole come to what they
come to on the first text, and then to what they come to on the second.

* `after` and `call`: the lexer after some calls, and what the next one
  comes to;
* `call_eq` and `call_eq_eof_iff`: the calls hand out the tokens and faults
  of the text, and then the end;
* `outcomes_append_of_blanks`: blanks keep two texts apart;
* `call_blank_separated`: the main statement.
-/

namespace Reckon.Lexer

open Text

/-- The lexer after this number of calls. -/
def after (l : Lexer) : Nat → Lexer
  | 0 => l
  | k + 1 => (l.after k).next.2

/-- What the call after this number of calls comes to. -/
def call (l : Lexer) (k : Nat) : Except LexError Token := (l.after k).next.1

/-! ### Calls and outcomes -/

/-- What is left after a token is the end of the text. -/
lemma scan_suffix (text : List Char) : (scan text).2 <:+ text := by
  rcases scan_eq_iff.1 (Prod.eta (scan text)).symm with
    ⟨-, hrest, -⟩ | ⟨blanks, lexeme, htext, -, -⟩
  · rw [hrest]
    exact List.nil_suffix
  · exact ⟨blanks ++ lexeme, htext.symm⟩

lemma after_succ (l : Lexer) (k : Nat) : l.after (k + 1) = l.next.2.after k := by
  induction k with
  | zero => rfl
  | succ k ih => rw [after, ih, after]

/-- The calls never go back in the text. -/
lemma after_rest_suffix (l : Lexer) (k : Nat) : (l.after k).rest <:+ l.rest := by
  induction k with
  | zero => exact List.suffix_refl l.rest
  | succ k ih => exact (scan_suffix (l.after k).rest).trans ih

lemma call_succ (l : Lexer) (k : Nat) : l.call (k + 1) = l.next.2.call k := by
  rw [call, after_succ, call]

/-- **The calls on a text** come to its tokens and faults in order, and past them to the end. -/
lemma call_eq (l : Lexer) (k : Nat) : l.call k = (outcomes l.rest)[k]?.getD (.ok .eof) := by
  induction k generalizing l with
  | zero =>
      show (scan l.rest).1 = _
      by_cases hend : (scan l.rest).1 = .ok .eof
      · rw [outcomes_of_end hend, hend]
        rfl
      · rw [outcomes_of_not_end hend]
        rfl
  | succ k ih =>
      rw [call_succ, ih, next_snd]
      by_cases hend : (scan l.rest).1 = .ok .eof
      · rw [scan_snd_of_end hend, outcomes_nil, outcomes_of_end hend]
        rfl
      · rw [outcomes_of_not_end hend, List.getElem?_cons_succ]

lemma Splits.eof_notMem {text : List Char} {os : List (Except LexError Token)}
    (h : Splits text os) : .ok .eof ∉ os := by
  induction h with
  | nil allBlank => simp
  | cons allBlank first others ih => exact List.not_mem_cons_of_ne_of_not_mem first.ne_eof.symm ih

/-- The end is not among the tokens of a text. -/
lemma eof_notMem_outcomes (text : List Char) : .ok .eof ∉ outcomes text :=
  (splits_outcomes text).eof_notMem

/-- The calls come to the end when all tokens and faults were handed out. -/
lemma call_eq_eof_iff (l : Lexer) (k : Nat) :
    l.call k = .ok .eof ↔ (outcomes l.rest).length ≤ k := by
  rw [call_eq]
  constructor
  · intro hend
    by_contra hlt
    rw [List.getElem?_eq_getElem (Nat.lt_of_not_le hlt), Option.getD_some] at hend
    exact eof_notMem_outcomes l.rest (hend ▸ List.getElem_mem _)
  · intro hle
    rw [List.getElem?_eq_none hle, Option.getD_none]

/-! ### Blanks between two texts -/

variable {a b blanks : List Char}

/-- Blanks separate, whatever they stand in front of. -/
lemma separates_blanks_append (hne : blanks ≠ []) (hblanks : ∀ c ∈ blanks, isBlank c = true)
    (b : List Char) : Separates (blanks ++ b) := by
  cases blanks with
  | nil => exact absurd rfl hne
  | cons c more => exact separates_cons_of_blank (hblanks c List.mem_cons_self) (more ++ b)

/-- Blanks keep two texts apart. -/
lemma outcomes_append_of_blanks (a b : List Char) (hne : blanks ≠ [])
    (hblanks : ∀ c ∈ blanks, isBlank c = true) :
    outcomes (a ++ (blanks ++ b)) = outcomes a ++ outcomes b := by
  rw [outcomes_append a (separates_blanks_append hne hblanks b), outcomes_blanks_append hblanks]

/-- Blanks behind a text do not matter. -/
lemma outcomes_append_blanks (a : List Char) (hblanks : ∀ c ∈ blanks, isBlank c = true) :
    outcomes (a ++ blanks) = outcomes a := by
  by_cases hne : blanks = []
  · rw [hne, List.append_nil]
  · have happend := outcomes_append_of_blanks a [] hne hblanks
    rwa [List.append_nil, outcomes_nil, List.append_nil] at happend

/-- **Texts with blanks between them**: the tokens and faults of the whole text are those of
the first part and then those of the second part. So the calls on the whole text come to what
the calls on the first part come to, until those come to the end, and from there on to what
the calls on the second part come to. -/
theorem call_blank_separated (a b : String) {blanks : String} (hne : blanks ≠ "")
    (hblanks : ∀ c ∈ blanks.toList, isBlank c = true) :
    outcomes (a ++ blanks ++ b).toList = outcomes a.toList ++ outcomes b.toList ∧
      ∃ n, (∀ k, (ofText a).call k = .ok .eof ↔ n ≤ k) ∧
        ∀ k, (ofText (a ++ blanks ++ b)).call k =
          if k < n then (ofText a).call k else (ofText b).call (k - n) := by
  have htext : (a ++ blanks ++ b).toList = a.toList ++ (blanks.toList ++ b.toList) := by simp
  have houtcomes : outcomes (a ++ blanks ++ b).toList = outcomes a.toList ++ outcomes b.toList := by
    rw [htext]
    exact outcomes_append_of_blanks _ _ (by simpa using hne) hblanks
  refine ⟨houtcomes, (outcomes a.toList).length, call_eq_eof_iff (ofText a), fun k => ?_⟩
  rw [call_eq, call_eq, call_eq]
  show (outcomes (a ++ blanks ++ b).toList)[k]?.getD _ = _
  rw [houtcomes, List.getElem?_append]
  split
  case isTrue => rfl
  case isFalse => rfl

/-- The first part has a fault, and ends with a word that calls a function if the second part
comes right after it. -/
theorem call_blank_separated_word :
    "\t " ≠ "" ∧ (∀ c ∈ "\t ".toList, isBlank c = true) ∧
      outcomes ("2 $ sqrt" ++ "\t " ++ "(x").toList =
        [.ok (.int 2), .error (.unexpectedCharacter '$'), .ok (.ident "sqrt"), .ok .lparen,
          .ok (.ident "x")] ∧
      (ofText ("2 $ sqrt" ++ "\t " ++ "(x")).call 4 = .ok (.ident "x") := by
  have hne : "\t " ≠ "" := by decide
  have hblanks : ∀ c ∈ "\t ".toList, isBlank c = true := by
    have hall : "\t ".toList.all isBlank = true := by decide
    exact List.all_eq_true.1 hall
  obtain ⟨houtcomes, -⟩ := call_blank_separated "2 $ sqrt" "(x" hne hblanks
  have htokens : outcomes ("2 $ sqrt" ++ "\t " ++ "(x").toList =
      [.ok (.int 2), .error (.unexpectedCharacter '$'), .ok (.ident "sqrt"), .ok .lparen,
        .ok (.ident "x")] := houtcomes.trans (by with_unfolding_all rfl)
  refine ⟨hne, hblanks, htokens, ?_⟩
  rw [call_eq]
  show (outcomes ("2 $ sqrt" ++ "\t " ++ "(x").toList)[4]?.getD _ = _
  rw [htokens]
  rfl

end Reckon.Lexer
