import Reckon.Proofs.Decimal.Positional
import Reckon.Proofs.Lexer.Splitting
import Reckon.Proofs.Statement.Evaluation

/-!
Tokens written down and read again.

The text of a token is a lexeme that comes to this token, wherever a blank
or the end comes next. So tokens that are written with blanks between them
are read again as they are. Only a function has its parenthesis right behind
it, and is a function for that reason.

* `Token.Writable`: the tokens whose text can be read. Numbers have no sign
  and no exponent, and names are words;
* `Token.Writable.lexeme`: the text of a token is a lexeme;
* `spell` and `Called`: the text of a list of tokens, and the lists in which
  functions are called;
* `outcomes_spell`: the tokens of this text, by induction on the list;
* `tokenize_spell`: the main statement.
-/

namespace Reckon

/-! ### The text of a token -/

/-- The text of the token can be read: it has no sign and no exponent if it is a number, and it is
a word if it is a name. -/
inductive Token.Writable : Token → Prop
  | int {n : Int64} (nonneg : 0 ≤ n.toInt) : Writable (.int n)
  | float {x : Float} (positional : x = 0.0 ∨ 1e-4 ≤ x ∧ x < 1e16) : Writable (.float x)
  | ident {name : String} (word : Text.IsWord name) : Writable (.ident name)
  | function (f : Elementary) : Writable (.function f)
  | arith (op : ArithOp) : Writable (.arith op)
  | comparison (op : Comparison) : Writable (.comparison op)
  | assign : Writable .assign
  | lparen : Writable .lparen
  | rparen : Writable .rparen

variable {rest : List Char} {t : Token} {ts : List Token}

open Lexer

/-- The text of a token that is not a function is a lexeme. -/
lemma Token.Writable.lexeme (h : t.Writable) (hfunction : ∀ f, t ≠ .function f)
    (hrest : Separates rest) : Lexeme t.render.toList rest (.ok t) := by
  have hequals : rest.head? ≠ some '=' := fun hhead => (hrest '=' hhead).2.2.2 rfl
  cases h with
  | int nonneg => exact lexeme_int nonneg hrest
  | @float x positional =>
      obtain ⟨whole, fraction, v, hpointed, hnearest⟩ := Decimal.exists_pointed_float positional
      have hpoint : '.' ∉ whole ++ fraction := fun hmem => by cases hpointed.digits '.' hmem
      rw [List.mem_append, not_or] at hpoint
      have hnumber : ∀ c ∈ whole ++ '.' :: fraction, isNumberPart c = true := by
        intro c hc
        rcases List.mem_append.1 hc with hwhole | hfraction
        · exact isNumberPart_of_isDigit (hpointed.digits c (List.mem_append_left _ hwhole))
        · rcases List.mem_cons.1 hfraction with rfl | hfraction
          · rfl
          · exact isNumberPart_of_isDigit (hpointed.digits c (List.mem_append_right _ hfraction))
      have hreading : NumberReading (whole ++ '.' :: fraction)
          (.ok (.float (Float.ofScientific (Nat.ofDigitChars 10 (whole ++ fraction) 0) true
            fraction.length))) :=
        .float hpoint.1 hpoint.2 (List.append_ne_nil_of_left_ne_nil hpointed.whole_ne _)
      rw [← Decimal.nearest_neg, hnearest] at hreading
      rw [render, String.toList_ofList, hpointed.text_eq]
      exact .number ⟨by simp, hnumber, fun c hc => (hrest c hc).1⟩ hreading
  | ident word => exact lexeme_ident word hrest
  | function f => exact absurd rfl (hfunction f)
  | arith op =>
      cases op
      all_goals exact .symbol (by simp [symbols, render, ArithOp.symbol]) fun _ => hequals
  | comparison op =>
      cases op
      all_goals exact .symbol (by simp [symbols, render, Comparison.symbol]) fun _ => hequals
  | assign | lparen | rparen => exact .symbol (by simp [symbols, render]) fun _ => hequals

/-! ### The text of a list of tokens -/

/-- What stands between a token and the next one: a space, except behind a function. -/
def Token.gap : Token → String
  | function _ => ""
  | _ => " "

/-- The text of the tokens in order. -/
def spell : List Token → String
  | [] => ""
  | [t] => t.render
  | t :: u :: rest => t.render ++ t.gap ++ spell (u :: rest)

/-- Every function is followed by a parenthesis. -/
def Called (ts : List Token) : Prop :=
  ∀ before f after, ts = before ++ .function f :: after → after.head? = some .lparen

lemma called_nil : Called [] := fun before _ _ hts =>
  absurd hts (List.append_ne_nil_of_right_ne_nil before (List.cons_ne_nil _ _)).symm

lemma called_cons_iff :
    Called (t :: ts) ↔ (∀ f, t = .function f → ts.head? = some .lparen) ∧ Called ts := by
  constructor
  · intro h
    refine ⟨?_, fun before f after hts => h (t :: before) f after (congrArg (t :: ·) hts)⟩
    rintro f rfl
    exact h [] f ts rfl
  · rintro ⟨hfirst, hothers⟩ before f after hts
    cases before with
    | nil =>
        obtain ⟨rfl, rfl⟩ := List.cons.inj hts
        exact hfirst f rfl
    | cons u more => exact hothers more f after (List.cons.inj hts).2

/-- The text of a parenthesis starts with it, whatever comes next. -/
lemma exists_spell_lparen (ts : List Token) :
    ∃ rest, (spell (.lparen :: ts)).toList = '(' :: rest := by
  cases ts with
  | nil => exact ⟨[], rfl⟩
  | cons u rest => exact ⟨_, by rw [spell, String.toList_append, String.toList_append]; rfl⟩

/-- **The text of a list of tokens** is read as these tokens. The induction is on the list: the
text of the first token is a lexeme, and the text of the others starts behind it. -/
lemma outcomes_spell (h : ∀ t ∈ ts, t.Writable) (hcalled : Called ts) :
    outcomes (spell ts).toList = ts.map .ok := by
  induction ts using spell.induct with
  | case1 => exact outcomes_nil
  | case2 t =>
      have hfunction : ∀ f, t ≠ .function f := fun f hf =>
        nomatch (called_cons_iff.1 hcalled).1 f hf
      exact outcomes_of_lexeme ((h t List.mem_cons_self).lexeme hfunction (by simp [Separates]))
  | case3 t u rest ih =>
      obtain ⟨hfirst, hothers⟩ := called_cons_iff.1 hcalled
      have hrest := ih (fun v hv => h v (List.mem_cons_of_mem t hv)) hothers
      rw [spell, String.toList_append, String.toList_append, List.append_assoc]
      by_cases hfunction : ∃ f, t = .function f
      · -- The parenthesis right behind the name makes it a function.
        obtain ⟨f, rfl⟩ := hfunction
        obtain rfl : u = .lparen := Option.some.inj (hfirst f rfl)
        obtain ⟨text, htext⟩ := exists_spell_lparen rest
        rw [htext] at hrest ⊢
        exact (outcomes_function_append f text).trans (congrArg (.ok (.function f) :: ·) hrest)
      · have hplain : ∀ f, t ≠ .function f := fun f hf => hfunction ⟨f, hf⟩
        have hblank : Text.isBlank ' ' = true := by decide
        have hgap : t.gap = " " := by
          cases t with
          | function f => exact absurd rfl (hplain f)
          | _ => rfl
        have hlexeme := (h t List.mem_cons_self).lexeme hplain
          (separates_cons_of_blank hblank (spell (u :: rest)).toList)
        rw [hgap]
        exact (outcomes_lexeme_append hlexeme).trans
          (congrArg (.ok t :: ·) ((outcomes_cons_of_blank hblank _).trans hrest))

/-- Without a fault, all tokens are read up to the end. -/
lemma untilFault_map_ok (ts : List Token) : untilFault (ts.map .ok) = (ts ++ [.eof], none) := by
  induction ts with
  | nil => rfl
  | cons t rest ih => rw [List.map_cons, untilFault, ih, List.cons_append]

/-! ### Values -/

variable {e : Expr} {v : Value} {vars : Variables}

/-- The text of a token that is an expression by itself comes to the value of the expression. -/
lemma evaluate_render [FloatFunctions] (h : t.Writable) (hfunction : ∀ f, t ≠ .function f)
    (he : Derives .factor 0 [t] e) (hv : e.eval vars = .ok v) :
    evaluate t.render vars = (.ok (some v), vars) := by
  have houtcomes : outcomes t.render.toList = [t].map .ok :=
    outcomes_of_lexeme (h.lexeme hfunction (by simp [Separates]))
  have hexpression : Derives .expression 0 [t] e := .ofTerm (.ofApplication (.ofFactor he))
  have hparses : Parses t.render (.shown (.value e)) :=
    ⟨0, [t], houtcomes, .shown (.value hexpression), Nat.zero_le 256⟩
  rw [evaluate_of_parses hparses, StatementTree.run, Clause.eval, hv]
  rfl

/-- **Tokens are read as they are written**, and so is a number as a statement: it comes to its
value again. -/
theorem tokenize_spell [FloatFunctions] :
    (∀ ts, (∀ t ∈ ts, t.Writable) → Called ts → tokenize (spell ts) = (ts ++ [.eof], none)) ∧
      (∀ n, (Token.int n).Writable → ∀ vars,
        evaluate (Value.int n).render vars = (.ok (some (.int n)), vars)) ∧
      ∀ x, (Token.float x).Writable → ∀ vars,
        evaluate (Value.float x).render vars = (.ok (some (.float x)), vars) := by
  refine ⟨fun ts h hcalled => ?_, fun n h vars => ?_, fun x h vars => ?_⟩
  · rw [tokenize, outcomes_spell h hcalled, untilFault_map_ok]
  · have hrender : (Value.int n).render = (Token.int n).render := rfl
    rw [hrender]
    exact evaluate_render h (fun _ => nofun) (.int n) rfl
  · have hrender : (Value.float x).render = (Token.float x).render := rfl
    rw [hrender]
    exact evaluate_render h (fun _ => nofun) (.float x) rfl

section Machine

attribute [local instance] FloatFunctions.native

/-- A variable with the name of a function, a call of this function, and tokens that would come
together to others without the blanks. -/
theorem tokenize_spell_adjacent :
    tokenize "sin ( sin( 0.25 ) < = = 9223372036854775807" =
        ([.ident "sin", .lparen, .function .sin, .lparen, .float 0.25, .rparen,
          .comparison .less, .assign, .assign, .int 9223372036854775807, .eof], none) ∧
      evaluate "0.25" .empty = (.ok (some (.float 0.25)), .empty) := by
  have hquarter : (Token.float 0.25).Writable := .float (by decide +kernel)
  have hword : Text.IsWord "sin" := by
    have hall : "sin".toList.all Char.isAlpha = true := by decide
    exact ⟨by decide, fun c hc => Text.isLetter_of_isAlpha (List.all_eq_true.1 hall c hc)⟩
  have htokens := tokenize_spell.1 [.ident "sin", .lparen, .function .sin, .lparen, .float 0.25,
    .rparen, .comparison .less, .assign, .assign, .int 9223372036854775807]
    (by
      simp only [List.forall_mem_cons]
      exact ⟨.ident hword, .lparen, .function .sin, .lparen, hquarter, .rparen, .comparison .less,
        .assign, .assign, .int (by decide), nofun⟩)
    (by simp [called_cons_iff, called_nil])
  have hspell : spell [.ident "sin", .lparen, .function .sin, .lparen, .float 0.25, .rparen,
      .comparison .less, .assign, .assign, .int 9223372036854775807] =
        "sin ( sin( 0.25 ) < = = 9223372036854775807" := by decide +kernel
  have hvalue := tokenize_spell.2.2 0.25 hquarter .empty
  have hrender : (Value.float 0.25).render = "0.25" := by decide +kernel
  rw [hspell] at htokens
  rw [hrender] at hvalue
  exact ⟨htokens, hvalue⟩

end Machine

end Reckon
