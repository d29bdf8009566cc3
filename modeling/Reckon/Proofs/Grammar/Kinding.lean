import Reckon.Proofs.Grammar.Unambiguity

/-!
The kinds of expressions.

Whether an expression has an integer, a double or a truth value is seen from
its tree and from the kinds of its variables, without computing anything. An
expression without a kind has no value, and an expression with a kind never
fails because of a truth value in the wrong place.

* `Kind`: the kinds of values, and `Kind.joined?`, `Kind.compared?` and
  `Kind.called?`, what the operations make of them;
* `Expr.kind?` and `Clause.kind?`: the kinds of trees;
* `HasKind`: what a kind says about a computation. It goes through a
  composition;
* `Expr.hasKind_eval` and `Clause.hasKind_eval`: a tree is computed as its
  kind says;
* `DerivesClause.kind?_eq_bool_iff` and `DerivesClause.kind?_eq_float_iff`:
  the kind is seen from the tokens.
-/

namespace Reckon

/-- The kinds of values. -/
inductive Kind where
  | int
  | float
  | bool
deriving DecidableEq

namespace Kind

/-- The kind of an operation of arithmetic on values of these kinds. -/
def joined? : Kind → Kind → Option Kind
  | int, int => some int
  | bool, _ => none
  | _, bool => none
  | _, _ => some float

/-- The kind of a comparison of values of these kinds. -/
def compared? : Kind → Kind → Option Kind
  | bool, _ => none
  | _, bool => none
  | _, _ => some bool

/-- The kind of a function value at an argument of this kind. -/
def called? : Kind → Option Kind
  | bool => none
  | _ => some float

end Kind

/-- The kind of a value. -/
def Value.kind : Value → Kind
  | int _ => .int
  | float _ => .float
  | bool _ => .bool

/-- The kind of a variable, if it has a value. -/
def Variables.kind? (vars : Variables) (name : String) : Option Kind :=
  (vars.get? name).map Value.kind

/-- The kind of an expression whose variables have these kinds. -/
def Expr.kind? (kinds : String → Option Kind) : Expr → Option Kind
  | int _ => some .int
  | float _ => some .float
  | ident name => kinds name
  | call _ argument => (argument.kind? kinds).bind Kind.called?
  | binary _ left right =>
      (left.kind? kinds).bind fun k => (right.kind? kinds).bind fun k' => k.joined? k'

/-- The kind of a clause whose variables have these kinds. -/
def Clause.kind? (kinds : String → Option Kind) : Clause → Option Kind
  | value e => e.kind? kinds
  | comparison _ left right =>
      (left.kind? kinds).bind fun k => (right.kind? kinds).bind fun k' => k.compared? k'

/-! ### What a kind says about a computation -/

/-- Whatever the computation comes to is of this kind, and it does not complain about truth
values if there is a kind. -/
structure HasKind (k? : Option Kind) (r : Except Error Value) : Prop where
  of_ok : ∀ v, r = .ok v → k? = some v.kind
  of_error : ∀ e, r = .error e → e.kind = .type → k? = none

lemma hasKind_ok (v : Value) : HasKind (some v.kind) (.ok v) where
  of_ok w h := by
    cases h
    rfl
  of_error e h := by cases h

/-- Without a kind, there is only failure. -/
lemma hasKind_none (e : Error) : HasKind none (.error e) where
  of_ok v h := by cases h
  of_error _ _ _ := rfl

/-- A computation on numbers, whose result is put into a value of some kind. -/
lemma hasKind_map {α : Type} {kinds : List ErrorKind} {r : Except Error α} {f : α → Value}
    {k : Kind} (hr : FailsWithin kinds r) (hkinds : .type ∉ kinds) (hf : ∀ a, (f a).kind = k) :
    HasKind (some k) (f <$> r) where
  of_ok v h := by
    cases r with
    | ok a =>
        cases h
        rw [hf]
    | error e => cases h
  of_error e h htype := by
    cases r with
    | ok a => cases h
    | error e' =>
        cases h
        exact absurd (htype ▸ hr e rfl) hkinds

lemma HasKind.bind {k? : Option Kind} {r : Except Error Value} {f : Kind → Option Kind}
    {g : Value → Except Error Value} (h : HasKind k? r) (hg : ∀ v, HasKind (f v.kind) (g v)) :
    HasKind (k?.bind f) (r >>= g) := by
  cases r with
  | ok v =>
      rw [h.of_ok v rfl]
      exact hg v
  | error e =>
      constructor
      · intro v hv
        cases hv
      · intro e' he' htype
        cases he'
        rw [h.of_error e rfl htype]
        rfl

/-! ### Operations -/

lemma hasKind_apply (op : ArithOp) (v w : Value) :
    HasKind (v.kind.joined? w.kind) (v.apply op w) := by
  have hfloat : ∀ x y, HasKind (some .float) (Value.float <$> op.applyFloat x y) := fun x y =>
    hasKind_map (failsWithin_applyFloat op x y) (by simp) fun _ => rfl
  cases v with
  | int m =>
      cases w with
      | int n => exact hasKind_map (failsWithin_applyInt op m n) (by simp) fun _ => rfl
      | float y => exact hfloat _ y
      | bool b => exact hasKind_none _
  | float x =>
      cases w with
      | int n => exact hfloat x _
      | float y => exact hfloat x y
      | bool b => exact hasKind_none _
  | bool b => exact hasKind_none _

lemma hasKind_compare (op : Comparison) (v w : Value) :
    HasKind (v.kind.compared? w.kind) (v.compare op w) := by
  cases v with
  | int m =>
      cases w with
      | int n | float y => exact hasKind_ok (.bool _)
      | bool b => exact hasKind_none _
  | float x =>
      cases w with
      | int n | float y => exact hasKind_ok (.bool _)
      | bool b => exact hasKind_none _
  | bool b => exact hasKind_none _

lemma hasKind_get (vars : Variables) (name : String) :
    HasKind (vars.kind? name) (vars.get name) := by
  rw [Variables.kind?, Variables.get]
  cases vars.get? name with
  | some v => exact hasKind_ok v
  | none => exact hasKind_none _

section Evaluation

variable [FloatFunctions]

lemma hasKind_applyFunction (f : Elementary) (v : Value) :
    HasKind v.kind.called? (Parsing.applyFunction f v) := by
  have hfloat : ∀ x, HasKind (some .float) (Value.float <$> f.apply x) := fun x =>
    hasKind_map (failsWithin_applyWith f _ x) (by simp) fun _ => rfl
  cases v with
  | int n => exact hfloat _
  | float x => exact hfloat x
  | bool b => exact hasKind_none _

/-- **Expressions are computed as their kinds say**: the value of an expression is of the kind
of the expression, and no expression with a kind has a truth value in a wrong place. -/
theorem Expr.hasKind_eval (vars : Variables) (e : Expr) :
    HasKind (e.kind? vars.kind?) (e.eval vars) := by
  induction e with
  | int n => exact hasKind_ok (.int n)
  | float x => exact hasKind_ok (.float x)
  | ident name => exact hasKind_get vars name
  | call f argument ih =>
      rw [eval_call]
      exact ih.bind fun v => hasKind_applyFunction f v
  | binary op left right ihl ihr =>
      exact ihl.bind fun v => ihr.bind fun w => hasKind_apply op v w

/-- Clauses are computed as their kinds say. -/
theorem Clause.hasKind_eval (vars : Variables) (c : Clause) :
    HasKind (c.kind? vars.kind?) (c.eval vars) := by
  cases c with
  | value e => exact e.hasKind_eval vars
  | comparison op left right =>
      exact (left.hasKind_eval vars).bind fun v => (right.hasKind_eval vars).bind fun w =>
        hasKind_compare op v w

end Evaluation

/-! ### The tokens of an expression with a kind -/

/-- The token makes doubles of numbers: a function, a literal with a point, or the name of a
double. -/
def Token.Fractional (kinds : String → Option Kind) : Token → Prop
  | function _ => True
  | float _ => True
  | ident name => kinds name = some .float
  | _ => False

@[simp] lemma Token.fractional_function (kinds : String → Option Kind) (f : Elementary) :
    (function f).Fractional kinds := trivial

@[simp] lemma Token.fractional_float (kinds : String → Option Kind) (x : Float) :
    (float x).Fractional kinds := trivial

@[simp] lemma Token.fractional_ident {kinds : String → Option Kind} {name : String} :
    (ident name).Fractional kinds ↔ kinds name = some .float := Iff.rfl

@[simp] lemma Token.not_fractional_int (kinds : String → Option Kind) (n : Int64) :
    ¬ (int n).Fractional kinds := id

@[simp] lemma Token.not_fractional_arith (kinds : String → Option Kind) (op : ArithOp) :
    ¬ (arith op).Fractional kinds := id

@[simp] lemma Token.not_fractional_lparen (kinds : String → Option Kind) :
    ¬ lparen.Fractional kinds := id

@[simp] lemma Token.not_fractional_rparen (kinds : String → Option Kind) :
    ¬ rparen.Fractional kinds := id

@[simp] lemma Token.not_fractional_eof (kinds : String → Option Kind) :
    ¬ eof.Fractional kinds := id

/-- A name in this number of parentheses. -/
def parenthesized (m : Nat) (name : String) : List Token :=
  List.replicate m .lparen ++ .ident name :: List.replicate m .rparen

lemma parenthesized_succ (m : Nat) (name : String) :
    parenthesized (m + 1) name = .lparen :: (parenthesized m name ++ [.rparen]) := by
  simp [parenthesized, List.replicate_succ, ← List.replicate_succ']

variable {kinds kinds' : String → Option Kind} {n : Nat} {ts : List Token} {name : String}

/-- What is computed from a double is a double. -/
lemma Kind.eq_float_iff_of_joined? {k l r : Kind} (h : l.joined? r = some k) :
    k = .float ↔ l = .float ∨ r = .float := by
  cases l <;> cases r <;> cases h <;> simp

/-- A truth value is the value of a variable. -/
lemma Expr.exists_ident_of_kind?_eq_bool {e : Expr} (h : e.kind? kinds = some .bool) :
    ∃ name, e = .ident name ∧ kinds name = some .bool := by
  cases e with
  | int | float => cases h
  | ident name => exact ⟨name, rfl, h⟩
  | call f argument =>
      obtain ⟨k, -, hk⟩ := Option.bind_eq_some_iff.1 h
      cases k <;> cases hk
  | binary op left right =>
      obtain ⟨k, -, hk⟩ := Option.bind_eq_some_iff.1 h
      obtain ⟨k', -, hjoined⟩ := Option.bind_eq_some_iff.1 hk
      cases k <;> cases k' <;> cases hjoined

namespace Derives

variable {level : Level} {e : Expr} {k : Kind}

/-- The kind of an expression depends on the kinds of the names in it. -/
lemma kind?_congr (h : Derives level n ts e)
    (hkinds : ∀ name, .ident name ∈ ts → kinds name = kinds' name) :
    e.kind? kinds = e.kind? kinds' := by
  induction h with
  | int | float => rfl
  | ident name => exact hkinds name (by simp)
  | parentheses inner ih => exact ih fun name hname => hkinds name (by simp [hname])
  | ofFactor h ih | ofApplication h ih | ofTerm h ih => exact ih hkinds
  | call f argument ih =>
      rw [Expr.kind?, Expr.kind?, ih fun name hname => hkinds name (by simp [hname])]
  | product left hop right ihl ihr | sum left hop right ihl ihr =>
      rw [Expr.kind?, Expr.kind?, ihl fun name hname => hkinds name (by simp [hname]),
        ihr fun name hname => hkinds name (by simp [hname])]

/-- No comparison stands in an expression. -/
lemma comparison_notMem (h : Derives level n ts e) (op : Comparison) :
    .comparison op ∉ ts := by
  induction h with
  | int | float | ident => simp
  | parentheses inner ih => simpa using ih
  | ofFactor h ih | ofApplication h ih | ofTerm h ih => exact ih
  | call f argument ih => simpa using ih
  | product left hop right ihl ihr | sum left hop right ihl ihr => simpa using ⟨ihl, ihr⟩

/-- **Doubles**: the value is a double exactly if some token makes it one. -/
lemma kind?_eq_float_iff (h : Derives level n ts e) (hk : e.kind? kinds = some k) :
    k = .float ↔ ∃ tok ∈ ts, tok.Fractional kinds := by
  induction h generalizing k with
  | int n =>
      cases hk
      simp
  | float x =>
      cases hk
      simp
  | ident name =>
      rw [Expr.kind?] at hk
      simp [hk]
  | parentheses inner ih => simpa using ih hk
  | ofFactor h ih | ofApplication h ih | ofTerm h ih => exact ih hk
  | call f argument ih =>
      obtain ⟨l, -, hl⟩ := Option.bind_eq_some_iff.1 hk
      have hfloat : k = .float := by cases l <;> cases hl <;> rfl
      simp [hfloat]
  | @product _ _ ts us a b op left hop right ihl ihr
  | @sum _ _ ts us a b op left hop right ihl ihr =>
      obtain ⟨l, hl, hk⟩ := Option.bind_eq_some_iff.1 hk
      obtain ⟨r, hr, hjoined⟩ := Option.bind_eq_some_iff.1 hk
      calc k = .float ↔ l = .float ∨ r = .float := Kind.eq_float_iff_of_joined? hjoined
        _ ↔ (∃ tok ∈ ts, tok.Fractional kinds) ∨ ∃ tok ∈ us, tok.Fractional kinds :=
          or_congr (ihl hl) (ihr hr)
        _ ↔ ∃ tok ∈ ts ++ .arith op :: us, tok.Fractional kinds := by
          simp [or_and_right, exists_or]

/-- A name is derived only in parentheses. -/
lemma exists_parenthesized (h : Derives level n ts (.ident name)) :
    ∃ m, ts = parenthesized m name := by
  generalize he : Expr.ident name = e at h
  induction h with
  | int | float | call | product | sum => cases he
  | ident =>
      cases he
      exact ⟨0, rfl⟩
  | parentheses inner ih =>
      obtain ⟨m, rfl⟩ := ih he
      exact ⟨m + 1, (parenthesized_succ m name).symm⟩
  | ofFactor h ih | ofApplication h ih | ofTerm h ih => exact ih he

end Derives

/-- A name in parentheses is an expression. -/
lemma derives_parenthesized (m : Nat) (name : String) :
    Derives .expression m (parenthesized m name) (.ident name) := by
  have hname : Derives .expression 0 [.ident name] (.ident name) :=
    .ofTerm (.ofApplication (.ofFactor (.ident name)))
  simpa [parenthesized] using hname.inParentheses m

namespace DerivesClause

variable {c : Clause} {k : Kind}

/-- The kind of a clause depends on the kinds of the names in it. -/
lemma kind?_congr (h : DerivesClause n ts c)
    (hkinds : ∀ name, .ident name ∈ ts → kinds name = kinds' name) :
    c.kind? kinds = c.kind? kinds' := by
  cases h with
  | value h => exact h.kind?_congr hkinds
  | comparison op left right =>
      rw [Clause.kind?, Clause.kind?,
        left.kind?_congr fun name hname => hkinds name (by simp [hname]),
        right.kind?_congr fun name hname => hkinds name (by simp [hname])]

/-- **Truth values**: a clause has one exactly if it is a comparison, or the name of a truth
value in parentheses. -/
theorem kind?_eq_bool_iff (h : DerivesClause n ts c) (hk : c.kind? kinds = some k) :
    k = .bool ↔ (∃ op, .comparison op ∈ ts) ∨
      ∃ m name, ts = parenthesized m name ∧ kinds name = some .bool := by
  cases h with
  | @value _ _ e h =>
      have hnone : ¬ ∃ op, .comparison op ∈ ts := fun ⟨op, hop⟩ => h.comparison_notMem op hop
      simp only [hnone, false_or]
      constructor
      · rintro rfl
        obtain ⟨name, rfl, hname⟩ := Expr.exists_ident_of_kind?_eq_bool hk
        obtain ⟨m, rfl⟩ := h.exists_parenthesized
        exact ⟨m, name, rfl, hname⟩
      · rintro ⟨m, name, rfl, hname⟩
        obtain ⟨-, rfl⟩ := h.unique (derives_parenthesized m name)
        exact Option.some.inj (hk.symm.trans hname)
  | comparison op left right =>
      obtain ⟨l, -, hk⟩ := Option.bind_eq_some_iff.1 hk
      obtain ⟨r, -, hk⟩ := Option.bind_eq_some_iff.1 hk
      have hbool : k = .bool := by cases l <;> cases r <;> cases hk <;> rfl
      exact iff_of_true hbool (.inl ⟨op, by simp⟩)

/-- A clause that has no truth value has a double exactly if some token makes it one. -/
theorem kind?_eq_float_iff (h : DerivesClause n ts c) (hk : c.kind? kinds = some k)
    (hbool : k ≠ .bool) : k = .float ↔ ∃ tok ∈ ts, tok.Fractional kinds := by
  have hcomparison := mt (h.kind?_eq_bool_iff hk).2 hbool
  cases h with
  | value h => exact h.kind?_eq_float_iff hk
  | comparison op left right => exact absurd (.inl ⟨op, by simp⟩) hcomparison

end DerivesClause

end Reckon
