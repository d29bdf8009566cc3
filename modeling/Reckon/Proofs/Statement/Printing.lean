import Reckon.Proofs.Lexer.Splitting
import Reckon.Proofs.Statement.Evaluation

/-!
Trees written down and read again.

A tree is written with as few parentheses as possible: only where the text
would otherwise be read as another tree. Reading the text gives the tree
back, so the text comes to what the tree comes to.

* `Expr.print`: the text of a tree;
* `Expr.Printable`: the trees that can be written down, those without
  negative integers, without doubles and with words for names;
* `NestsWithin`: nowhere in a text are more parentheses open than this;
* `Spells`: the text consists of tokens that are an expression with this
  tree, and `Spells.parentheses`, `Spells.call` and `Spells.join`, how such
  texts are put together;
* `Readable`: the main invariant, in what places a tree needs no
  parentheses. `Expr.Printable.readable` is the induction on the tree;
* `evaluate_print`: the main statement.
-/

namespace Reckon

/-! ### The text of a tree -/

namespace Expr

/-- The tree is a sum or a difference. -/
def isSum : Expr → Bool
  | binary .add _ _ => true
  | binary .sub _ _ => true
  | _ => false

/-- The tree joins two operands. -/
def isBinary : Expr → Bool
  | binary _ _ _ => true
  | _ => false

/-- The text, in parentheses if it needs them. -/
def enclosed (needed : Bool) (text : String) : String :=
  if needed then "(" ++ text ++ ")" else text

/-- The text of a tree with the fewest parentheses. -/
def print : Expr → String
  | int n => (Token.int n).render
  | float x => (Token.float x).render
  | ident name => name
  | call f argument => f.name ++ enclosed true argument.print
  | binary op left right =>
      match op with
      | .add | .sub =>
          left.print ++ " " ++ op.symbol ++ " " ++ enclosed right.isSum right.print
      | .mul | .div =>
          enclosed left.isSum left.print ++ " " ++ op.symbol ++ " " ++
            enclosed right.isBinary right.print

/-- The tree is built of integers that are not negative, of names that are words, of functions
and of operators. -/
inductive Printable : Expr → Prop
  | int {n : Int64} (nonneg : 0 ≤ n.toInt) : Printable (.int n)
  | ident {name : String} (word : Text.IsWord name) : Printable (.ident name)
  | call (f : Elementary) {argument : Expr} (h : Printable argument) : Printable (.call f argument)
  | binary (op : ArithOp) {left right : Expr} (hleft : Printable left) (hright : Printable right) :
      Printable (.binary op left right)

end Expr

/-- Nowhere in the text are more parentheses open than the limit. -/
def NestsWithin (limit : Nat) (text : String) : Prop :=
  ∀ ps, ps <+: text.toList → ps.count '(' ≤ ps.count ')' + limit

/-! ### Parentheses in a text -/

variable {m n : Nat} {as bs : List Char}

/-- All parentheses are closed again, and at some place so many of them are open. -/
structure Nests (n : Nat) (cs : List Char) : Prop where
  closed : cs.count '(' = cs.count ')'
  attained : ∃ ps, ps <+: cs ∧ ps.count '(' = ps.count ')' + n

lemma Nests.of_notMem (hl : '(' ∉ as) (hr : ')' ∉ as) : Nests 0 as where
  closed := by rw [List.count_eq_zero.2 hl, List.count_eq_zero.2 hr]
  attained := ⟨[], List.nil_prefix, rfl⟩

lemma Nests.append (has : Nests m as) (hbs : Nests n bs) : Nests (max m n) (as ++ bs) where
  closed := by
    have hclosed := has.closed
    have hclosed' := hbs.closed
    simp only [List.count_append]
    omega
  attained := by
    obtain ⟨ps, hps, hm⟩ := has.attained
    obtain ⟨qs, hqs, hn⟩ := hbs.attained
    rcases Nat.le_total n m with hle | hle
    · exact ⟨ps, hps.trans (List.prefix_append as bs), by omega⟩
    · refine ⟨as ++ qs, (List.prefix_append_right_inj as).2 hqs, ?_⟩
      have hclosed := has.closed
      simp only [List.count_append]
      omega

lemma Nests.parentheses (h : Nests n as) : Nests (n + 1) ('(' :: (as ++ [')'])) where
  closed := by
    have hclosed := h.closed
    simp [List.count_append, hclosed]
  attained := by
    obtain ⟨ps, hps, hn⟩ := h.attained
    refine ⟨'(' :: ps, ?_, ?_⟩
    · exact List.prefix_cons_inj '(' |>.2 (hps.trans (List.prefix_append as [')']))
    · simp [hn]
      omega

/-! ### Texts of expressions -/

variable {level : Level} {text left right : String} {e l r : Expr} {op : ArithOp}

/-- The text consists of tokens that are an expression of this kind with this tree, and it
nests as the tokens do. -/
def Spells (level : Level) (text : String) (e : Expr) : Prop :=
  ∃ n ts, Lexer.outcomes text.toList = ts.map .ok ∧ Derives level n ts e ∧ Nests n text.toList

lemma Spells.of_operand (h : Spells level.operand text e) : Spells level text e := by
  obtain ⟨n, ts, houtcomes, he, hnests⟩ := h
  exact ⟨n, ts, houtcomes, he.of_operand, hnests⟩

/-- A factor is an expression of every kind. -/
lemma Spells.of_factor (h : Spells .factor text e) : Spells level text e := by
  have happlication : Spells .application text e := .of_operand h
  have hterm : Spells .term text e := .of_operand happlication
  cases level with
  | factor => exact h
  | application => exact happlication
  | term => exact hterm
  | expression => exact .of_operand hterm

lemma toList_parentheses (text : String) :
    ("(" ++ text ++ ")").toList = '(' :: (text.toList ++ [')']) := by
  simp

lemma Spells.parentheses (h : Spells .expression text e) :
    Spells .factor ("(" ++ text ++ ")") e := by
  obtain ⟨n, ts, houtcomes, he, hnests⟩ := h
  rw [Spells, toList_parentheses]
  refine ⟨n + 1, _, ?_, .parentheses he, hnests.parentheses⟩
  rw [Lexer.outcomes_lparen_cons, Lexer.outcomes_append _ (Lexer.separates_rparen_cons []),
    Lexer.outcomes_rparen_cons, Lexer.outcomes_nil, houtcomes]
  simp

/-- A function with its argument, right in front of which it stands. -/
lemma Spells.call (f : Elementary) (h : Spells .expression text e) :
    Spells .application (f.name ++ ("(" ++ text ++ ")")) (.call f e) := by
  obtain ⟨n, ts, houtcomes, he, hnests⟩ := h.parentheses
  have hname : Nests 0 f.name.toList := .of_notMem (by cases f <;> decide) (by cases f <;> decide)
  rw [toList_parentheses] at houtcomes hnests
  have hnests' : Nests n (f.name.toList ++ '(' :: (text.toList ++ [')'])) := by
    have happend := hname.append hnests
    rwa [Nat.zero_max] at happend
  rw [Spells, String.toList_append, toList_parentheses]
  refine ⟨n, .function f :: ts, ?_, .call f he, hnests'⟩
  rw [Lexer.outcomes_function_append, houtcomes]
  rfl

/-- Two operands and their operator, with blanks around it. -/
lemma Spells.join (hop : level.operator? (.arith op) = some op) (hleft : Spells level left l)
    (hright : Spells level.operand right r) :
    Spells level (left ++ " " ++ op.symbol ++ " " ++ right) (.binary op l r) := by
  obtain ⟨m, ts, hts, hl, hm⟩ := hleft
  obtain ⟨n, us, hus, hr, hn⟩ := hright
  have hblank : Text.isBlank ' ' = true := by decide
  have hsymbol : Nests 0 (' ' :: (op.symbol.toList ++ [' '])) :=
    .of_notMem (by cases op <;> decide) (by cases op <;> decide)
  have htext : (left ++ " " ++ op.symbol ++ " " ++ right).toList =
      left.toList ++ (' ' :: (op.symbol.toList ++ [' ']) ++ right.toList) := by simp
  have hnests : Nests (max m n)
      (left.toList ++ (' ' :: (op.symbol.toList ++ [' ']) ++ right.toList)) := by
    have happend := hm.append (hsymbol.append hn)
    rwa [Nat.zero_max] at happend
  rw [Spells, htext]
  refine ⟨max m n, _, ?_, hl.join hop hr, hnests⟩
  rw [List.cons_append, Lexer.outcomes_append _ (Lexer.separates_cons_of_blank hblank _),
    Lexer.outcomes_cons_of_blank hblank, List.append_assoc, Lexer.outcomes_operator_append,
    List.singleton_append, Lexer.outcomes_cons_of_blank hblank, hts, hus]
  simp

/-- The digits of an integer that is not negative are read as this integer. -/
lemma spells_int {n : Int64} (h : 0 ≤ n.toInt) : Spells .factor (Token.int n).render (.int n) := by
  have htext : (Token.int n).render.toList = Decimal.natural n.toInt.natAbs := by
    rw [Token.render, String.toList_ofList, Decimal.integer, if_neg (Int.not_lt.2 h)]
  have hnone : ∀ c : Char, c.isDigit = false → c ∉ (Token.int n).render.toList := by
    intro c hc hmem
    rw [htext] at hmem
    cases hc.symm.trans (Decimal.isDigit_of_mem_natural hmem)
  exact ⟨0, [.int n], Lexer.outcomes_of_lexeme (Lexer.lexeme_int h (by simp [Lexer.Separates])),
    .int n, .of_notMem (hnone '(' (by decide)) (hnone ')' (by decide))⟩

/-- A word is read as a name. -/
lemma spells_ident {name : String} (h : Text.IsWord name) : Spells .factor name (.ident name) :=
  ⟨0, [.ident name], Lexer.outcomes_of_lexeme (Lexer.lexeme_ident h (by simp [Lexer.Separates])),
    .ident name, .of_notMem (h.notMem (by decide +kernel)) (h.notMem (by decide +kernel))⟩

/-! ### Trees -/

namespace Expr

/-- The text of a tree is an expression with this tree. It needs no parentheses as an operand
of a sum if it is no sum itself, and none as the right operand of a product if it has no
operands. -/
structure Readable (e : Expr) : Prop where
  expression : Spells .expression e.print e
  term : e.isSum = false → Spells .term e.print e
  application : e.isBinary = false → Spells .application e.print e

/-- A text in parentheses is a factor, and so an operand of every kind. -/
lemma spells_enclosed {needed : Bool} (h : Spells .expression text e)
    (hfree : needed = false → Spells level text e) : Spells level (enclosed needed text) e := by
  cases needed with
  | true => exact h.parentheses.of_factor
  | false => exact hfree rfl

/-- What is an application needs parentheses nowhere. -/
lemma Readable.of_application (h : Spells .application e.print e) : Readable e := by
  have hterm : Spells .term e.print e := .of_operand h
  exact ⟨.of_operand hterm, fun _ => hterm, fun _ => h⟩

/-- What is a product needs parentheses as a right operand of a product only. -/
lemma Readable.of_term (h : Spells .term e.print e) (hbinary : e.isBinary = true) :
    Readable e := by
  refine ⟨.of_operand h, fun _ => h, fun hfree => ?_⟩
  cases hbinary.symm.trans hfree

/-- **The text of a tree is read as the tree.** -/
lemma Printable.readable (h : Printable e) : Readable e := by
  induction h with
  | int nonneg => exact .of_application (spells_int nonneg).of_factor
  | ident word => exact .of_application (spells_ident word).of_factor
  | call f _ ih => exact .of_application (ih.expression.call f)
  | @binary op left right _ _ ihl ihr =>
      cases op with
      | add | sub =>
          exact ⟨.join rfl ihl.expression (spells_enclosed ihr.expression ihr.term), nofun, nofun⟩
      | mul | div =>
          exact .of_term (.join rfl (spells_enclosed ihl.expression ihl.term)
            (spells_enclosed ihr.expression ihr.application)) rfl

end Expr

/-- **Printing and evaluating**: if the text of a tree nests no more parentheses than may be
open, then it comes to what the tree comes to, and leaves the table as it is. -/
theorem evaluate_print [FloatFunctions] (h : e.Printable) (hnesting : NestsWithin 256 e.print)
    (vars : Variables) : evaluate e.print vars = (some <$> e.eval vars, vars) := by
  obtain ⟨n, ts, houtcomes, he, -, ps, hps, hn⟩ := h.readable.expression
  have hlimit : ps.count '(' ≤ ps.count ')' + 256 := hnesting ps hps
  have hparses : Parses e.print (.shown (.value e)) :=
    ⟨n, ts, houtcomes, .shown (.value he), by omega⟩
  rw [evaluate_of_parses hparses, StatementTree.run, Clause.eval]

section Machine

attribute [local instance] FloatFunctions.native

/-- A difference with a sum and a product behind it. -/
theorem evaluate_print_parentheses :
    (Expr.binary .sub (.ident "a") (.binary .div (.binary .add (.ident "b") (.int 1))
        (.binary .mul (.int 2) (.int 3)))).print = "a - (b + 1) / (2 * 3)" ∧
      evaluate "a - (b + 1) / (2 * 3)" ((Variables.empty.set "a" (.int 10)).set "b" (.int 11)) =
        (.ok (some (.int 8)), (Variables.empty.set "a" (.int 10)).set "b" (.int 11)) := by
  have hprint : (Expr.binary .sub (.ident "a") (.binary .div (.binary .add (.ident "b") (.int 1))
      (.binary .mul (.int 2) (.int 3)))).print = "a - (b + 1) / (2 * 3)" := by decide +kernel
  have hword : ∀ c : Char, c.isAlpha = true → Text.IsWord (String.singleton c) := by
    intro c hc
    refine ⟨by simp, fun d hd => ?_⟩
    obtain rfl : d = c := by simpa using hd
    exact Text.isLetter_of_isAlpha hc
  have ha : (Expr.ident "a").Printable := .ident (hword 'a' (by decide))
  have hb : (Expr.ident "b").Printable := .ident (hword 'b' (by decide))
  have hprintable : (Expr.binary .sub (.ident "a") (.binary .div
      (.binary .add (.ident "b") (.int 1)) (.binary .mul (.int 2) (.int 3)))).Printable :=
    .binary _ ha (.binary _ (.binary _ hb (.int (by decide)))
      (.binary _ (.int (by decide)) (.int (by decide))))
  have hnesting : NestsWithin 256 "a - (b + 1) / (2 * 3)" := by
    intro ps hps
    have hlength : ps.length ≤ "a - (b + 1) / (2 * 3)".toList.length := hps.length_le
    have hshort : "a - (b + 1) / (2 * 3)".toList.length = 21 := by decide
    have hcount : ps.count '(' ≤ ps.length := List.count_le_length
    omega
  have hevaluate := evaluate_print hprintable (by rwa [hprint])
    ((Variables.empty.set "a" (.int 10)).set "b" (.int 11))
  rw [hprint] at hevaluate
  refine ⟨hprint, hevaluate.trans ?_⟩
  with_unfolding_all rfl

end Machine

end Reckon
