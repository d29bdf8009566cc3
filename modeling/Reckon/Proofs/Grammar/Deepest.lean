import Mathlib.Order.Bounds.Basic
import Reckon.Proofs.Grammar.Derivation
import Reckon.Proofs.Lexer.Splitting

/-!
How deep parentheses are nested.

A derivation counts the parentheses that are open at once where the most are.
The same number can be read off its tokens, and off the characters of a text,
without any knowledge of the grammar: it is the most by which opening
parentheses outnumber closing ones at the start of the text.

* `deepest`: this number for any list in which something opens and something
  closes, and `isGreatest_deepest`, what it is;
* `deepest_text`: parentheses are no part of other tokens, so a text without
  faults is as deep as its tokens;
* `Derives.deepest_eq`: the number that a derivation counts.
-/

namespace Reckon

/-! ### Lists in which something opens and something closes -/

section Deepest

variable {α : Type} [DecidableEq α]

/-- The most by which the openings outnumber the closings in any list that the list starts
with. -/
def deepest (opening closing : α) : List α → Nat
  | [] => 0
  | a :: rest =>
      if a = opening then deepest opening closing rest + 1
      else if a = closing then deepest opening closing rest - 1
      else deepest opening closing rest

variable {opening closing a : α} {xs : List α}

@[simp] lemma deepest_nil : deepest opening closing [] = 0 := rfl

lemma deepest_opening (xs : List α) :
    deepest opening closing (opening :: xs) = deepest opening closing xs + 1 := if_pos rfl

lemma deepest_closing (h : opening ≠ closing) (xs : List α) :
    deepest opening closing (closing :: xs) = deepest opening closing xs - 1 := by
  rw [deepest, if_neg h.symm, if_pos rfl]

lemma deepest_other (hopen : a ≠ opening) (hclose : a ≠ closing) (xs : List α) :
    deepest opening closing (a :: xs) = deepest opening closing xs := by
  rw [deepest, if_neg hopen, if_neg hclose]

/-- What neither opens nor closes does not count. -/
lemma deepest_append_of_notMem (hopen : opening ∉ xs) (hclose : closing ∉ xs) (ys : List α) :
    deepest opening closing (xs ++ ys) = deepest opening closing ys := by
  induction xs with
  | nil => rfl
  | cons a xs ih =>
      simp only [List.mem_cons, not_or] at hopen hclose
      rw [List.cons_append, deepest_other (Ne.symm hopen.1) (Ne.symm hclose.1),
        ih hopen.2 hclose.2]

/-- An element moves the deepest place of what follows up or down, but not below the start. -/
lemma deepest_cons (h : opening ≠ closing) (a : α) (xs : List α) :
    (deepest opening closing (a :: xs) : Int) =
      max 0 (([a].count opening : Int) - [a].count closing + deepest opening closing xs) := by
  rw [deepest, List.count_singleton, List.count_singleton]
  split_ifs <;> grind

/-- **What the deepest place is**: among the lists that a list starts with, the openings
outnumber the closings by this number in one, and by more in none. -/
theorem isGreatest_deepest (h : opening ≠ closing) (xs : List α) :
    IsGreatest {n : Int | ∃ ps, ps <+: xs ∧ n = ps.count opening - ps.count closing}
      (deepest opening closing xs) := by
  induction xs with
  | nil =>
      refine ⟨⟨[], List.nil_prefix, by simp⟩, ?_⟩
      rintro n ⟨ps, hps, rfl⟩
      rw [List.prefix_nil.1 hps]
      simp
  | cons a xs ih =>
      obtain ⟨⟨qs, hqs, hmax⟩, hbound⟩ := ih
      have hcount : ∀ ps : List α, ((a :: ps).count opening : Int) - (a :: ps).count closing =
          ([a].count opening : Int) - [a].count closing +
            (ps.count opening - ps.count closing) := by
        intro ps
        rw [← List.singleton_append, List.count_append, List.count_append]
        omega
      rw [deepest_cons h]
      constructor
      · by_cases hstart : ([a].count opening : Int) - [a].count closing +
          deepest opening closing xs ≤ 0
        · exact ⟨[], List.nil_prefix, by simpa using hstart⟩
        · refine ⟨a :: qs, (List.prefix_cons_inj a).2 hqs, ?_⟩
          rw [hcount qs, ← hmax]
          omega
      · rintro n ⟨ps, hps, rfl⟩
        rcases List.prefix_cons_iff.1 hps with rfl | ⟨rs, rfl, hrs⟩
        · simp
        · have hle := hbound ⟨rs, hrs, rfl⟩
          rw [hcount rs]
          omega

end Deepest

/-! ### Texts and their tokens -/

namespace Lexer

open Text

variable {text lexeme rest : List Char} {tok : Token}

lemma notMem_of_forall {p : Char → Bool} {c : Char} {xs : List Char}
    (h : ∀ d ∈ xs, p d = true) (hc : p c = false) : c ∉ xs := by
  intro hmem
  rw [h c hmem] at hc
  cases hc

lemma deepest_append_of_blanks {blanks : List Char} (h : ∀ c ∈ blanks, isBlank c = true)
    (text : List Char) : deepest '(' ')' (blanks ++ text) = deepest '(' ')' text := by
  have hopen : isBlank '(' = false := by decide +kernel
  have hclose : isBlank ')' = false := by decide +kernel
  exact deepest_append_of_notMem (notMem_of_forall h hopen) (notMem_of_forall h hclose) text

/-- A lexeme is a parenthesis, or there is none in it. -/
lemma Lexeme.parenthesis_cases (h : Lexeme lexeme rest (.ok tok)) :
    lexeme = ['('] ∧ tok = .lparen ∨ lexeme = [')'] ∧ tok = .rparen ∨
      ('(' ∉ lexeme ∧ ')' ∉ lexeme) ∧ tok ≠ .lparen ∧ tok ≠ .rparen := by
  cases h with
  | number run reading =>
      refine .inr (.inr ⟨⟨notMem_of_forall run.all (by decide +kernel),
        notMem_of_forall run.all (by decide +kernel)⟩, ?_⟩)
      cases reading <;> exact ⟨by simp, by simp⟩
  | word run reading =>
      refine .inr (.inr ⟨⟨notMem_of_forall run.all (by decide +kernel),
        notMem_of_forall run.all (by decide +kernel)⟩, ?_⟩)
      cases reading <;> exact ⟨by simp, by simp⟩
  | symbol mem alone =>
      simp only [symbols, List.mem_cons, List.not_mem_nil, or_false, Prod.mk.injEq] at mem
      rcases mem with ⟨rfl, rfl⟩ | ⟨rfl, rfl⟩ | ⟨rfl, rfl⟩ | ⟨rfl, rfl⟩ | ⟨rfl, rfl⟩ |
        ⟨rfl, rfl⟩ | ⟨rfl, rfl⟩ | ⟨rfl, rfl⟩ | ⟨rfl, rfl⟩ | ⟨rfl, rfl⟩ | ⟨rfl, rfl⟩ |
        ⟨rfl, rfl⟩ <;> simp

/-- **A text without faults is as deep as its tokens.** -/
lemma deepest_text {ts : List Token} (h : outcomes text = ts.map .ok) :
    deepest '(' ')' text = deepest .lparen .rparen ts := by
  replace h : Splits text (ts.map .ok) := splits_iff.1 h
  generalize hos : ts.map Except.ok = os at h
  induction h generalizing ts with
  | @nil blanks allBlank =>
      obtain rfl : ts = [] := List.map_eq_nil_iff.1 hos
      rw [← List.append_nil blanks, deepest_append_of_blanks allBlank]
      rfl
  | @cons blanks lexeme rest outcome more allBlank first others ih =>
      obtain ⟨tok, us, rfl, rfl, rfl⟩ := List.map_eq_cons_iff.1 hos
      rw [List.append_assoc, deepest_append_of_blanks allBlank]
      rcases first.parenthesis_cases with ⟨rfl, rfl⟩ | ⟨rfl, rfl⟩ | ⟨⟨hopen, hclose⟩, hl, hr⟩
      · rw [List.singleton_append, deepest_opening, deepest_opening, ih rfl]
      · rw [List.singleton_append, deepest_closing (by decide), deepest_closing (by simp), ih rfl]
      · rw [deepest_append_of_notMem hopen hclose, deepest_other hl hr, ih rfl]

end Lexer

/-! ### Derivations -/

/-- The tokens of an expression are as deep as its derivation says, and whatever follows them
starts at the level at which they start. -/
lemma Derives.deepest_append {level : Level} {n : Nat} {ts : List Token} {e : Expr}
    (h : Derives level n ts e) (us : List Token) :
    deepest .lparen .rparen (ts ++ us) = max n (deepest .lparen .rparen us) := by
  induction h generalizing us with
  | int | float | ident =>
      rw [List.singleton_append, deepest_other (by simp) (by simp), Nat.zero_max]
  | parentheses inner ih =>
      rw [List.cons_append, List.append_assoc, deepest_opening, ih, List.singleton_append,
        deepest_closing (by simp)]
      omega
  | ofFactor h ih | ofApplication h ih | ofTerm h ih => exact ih us
  | call f argument ih => rw [List.cons_append, deepest_other (by simp) (by simp), ih]
  | product left hop right ihl ihr | sum left hop right ihl ihr =>
      rw [List.append_assoc, ihl, List.cons_append, deepest_other (by simp) (by simp), ihr,
        Nat.max_assoc]

/-- **What a derivation counts**: the parentheses that are open at once where the most are. -/
lemma Derives.deepest_eq {level : Level} {n : Nat} {ts : List Token} {e : Expr}
    (h : Derives level n ts e) : deepest .lparen .rparen ts = n := by
  have happend := h.deepest_append []
  rwa [List.append_nil, deepest_nil, Nat.max_zero] at happend

end Reckon
