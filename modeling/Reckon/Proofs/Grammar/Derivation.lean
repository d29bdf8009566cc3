import Reckon.Proofs.Grammar.Tree

/-!
The grammar of statements.

    statement   ::= (IDENT '=')? clause
    clause      ::= expression (('<' | '<=' | '>' | '>=' | '==') expression)?
    expression  ::= term | expression ('+' | '-') term
    term        ::= application | term ('*' | '/') application
    application ::= FUNCTION? factor
    factor      ::= INT | FLOAT | IDENT | '(' expression ')'

A derivation relates the tokens to their tree. It also counts how many
parentheses are open at once where the most are.

* `Derives`, `DerivesClause` and `DerivesStatement`: the rules;
* `Parses`: a text has this tree, and at most 256 parentheses are open;
* `Valid`: a text has a tree.
-/

namespace Reckon

/-- The kinds of expressions, from the operands outwards. -/
inductive Level where
  | factor
  | application
  | term
  | expression
deriving DecidableEq

namespace Level

/-- The kind of the operands of a chain. -/
def operand : Level → Level
  | expression => term
  | term => application
  | application => factor
  | factor => factor

/-- The operators that join the operands of a chain. -/
def operator? : Level → Token → Option ArithOp
  | expression => Token.additive?
  | term => Token.multiplicative?
  | _ => fun _ => none

/-- The token does not go on with an operand of the chain. -/
def Closed (level : Level) (tok : Token) : Prop := level.operand.operator? tok = none

/-- An operator of a chain does not belong to an operand of it. -/
lemma closed_of_operator? {level : Level} {tok : Token} {op : ArithOp}
    (h : level.operator? tok = some op) : level.Closed tok := by
  cases level with
  | factor | application | term => rfl
  | expression =>
      simp only [operator?, Token.additive?] at h
      split at h <;> first | rfl | cases h

/-- The operands of operands are no chains. -/
lemma closed_operand (level : Level) (tok : Token) : level.operand.Closed tok := by
  cases level <;> rfl

end Level

/-- The tokens are an expression of this kind with this tree, and the number is
that of the parentheses that are open at once. -/
inductive Derives : Level → Nat → List Token → Expr → Prop
  | int (n : Int64) : Derives .factor 0 [.int n] (.int n)
  | float (x : Float) : Derives .factor 0 [.float x] (.float x)
  | ident (name : String) : Derives .factor 0 [.ident name] (.ident name)
  | parentheses {n : Nat} {ts : List Token} {e : Expr} (inner : Derives .expression n ts e) :
      Derives .factor (n + 1) (.lparen :: (ts ++ [.rparen])) e
  | ofFactor {n : Nat} {ts : List Token} {e : Expr} (h : Derives .factor n ts e) :
      Derives .application n ts e
  | call {n : Nat} {ts : List Token} {e : Expr} (f : Elementary)
      (argument : Derives .factor n ts e) : Derives .application n (.function f :: ts) (.call f e)
  | ofApplication {n : Nat} {ts : List Token} {e : Expr} (h : Derives .application n ts e) :
      Derives .term n ts e
  | product {m n : Nat} {ts us : List Token} {l r : Expr} {op : ArithOp}
      (left : Derives .term m ts l) (hop : op = .mul ∨ op = .div)
      (right : Derives .application n us r) :
      Derives .term (max m n) (ts ++ .arith op :: us) (.binary op l r)
  | ofTerm {n : Nat} {ts : List Token} {e : Expr} (h : Derives .term n ts e) :
      Derives .expression n ts e
  | sum {m n : Nat} {ts us : List Token} {l r : Expr} {op : ArithOp}
      (left : Derives .expression m ts l) (hop : op = .add ∨ op = .sub)
      (right : Derives .term n us r) :
      Derives .expression (max m n) (ts ++ .arith op :: us) (.binary op l r)

/-- The tokens are a clause with this tree. -/
inductive DerivesClause : Nat → List Token → Clause → Prop
  | value {n : Nat} {ts : List Token} {e : Expr} (h : Derives .expression n ts e) :
      DerivesClause n ts (.value e)
  | comparison {m n : Nat} {ts us : List Token} {l r : Expr} (op : Comparison)
      (left : Derives .expression m ts l) (right : Derives .expression n us r) :
      DerivesClause (max m n) (ts ++ .comparison op :: us) (.comparison op l r)

/-- The tokens are a statement with this tree. -/
inductive DerivesStatement : Nat → List Token → StatementTree → Prop
  | shown {n : Nat} {ts : List Token} {c : Clause} (h : DerivesClause n ts c) :
      DerivesStatement n ts (.shown c)
  | assignment {n : Nat} {ts : List Token} {c : Clause} (name : String)
      (h : DerivesClause n ts c) :
      DerivesStatement n (.ident name :: .assign :: ts) (.assignment name c)

/-- The text consists of tokens, which are a statement with this tree, and nowhere
in it more than 256 parentheses are open. -/
def Parses (text : String) (tree : StatementTree) : Prop :=
  ∃ n ts, Lexer.outcomes text.toList = ts.map .ok ∧ DerivesStatement n ts tree ∧ n ≤ 256

/-- The text has a tree. -/
def Valid (text : String) : Prop := ∃ tree, Parses text tree

/-! ### Chains and parentheses -/

lemma Token.multiplicative?_arith {op : ArithOp} (h : op = .mul ∨ op = .div) :
    (arith op).multiplicative? = some op := by
  rcases h with rfl | rfl <;> rfl

lemma Token.additive?_arith {op : ArithOp} (h : op = .add ∨ op = .sub) :
    (arith op).additive? = some op := by
  rcases h with rfl | rfl <;> rfl

/-- An operand is a chain by itself. -/
lemma Derives.of_operand {level : Level} {n : Nat} {ts : List Token} {e : Expr}
    (h : Derives level.operand n ts e) : Derives level n ts e := by
  cases level with
  | factor => exact h
  | application => exact .ofFactor h
  | term => exact .ofApplication h
  | expression => exact .ofTerm h

/-- A chain is continued by an operator of its own and one more operand. -/
lemma Derives.join {level : Level} {m n : Nat} {ts us : List Token} {l r : Expr} {tok : Token}
    {op : ArithOp} (hop : level.operator? tok = some op) (left : Derives level m ts l)
    (right : Derives level.operand n us r) :
    Derives level (max m n) (ts ++ tok :: us) (.binary op l r) := by
  cases level with
  | factor | application => cases hop
  | term =>
      simp only [Level.operator?, Token.multiplicative?] at hop
      split at hop <;> cases hop
      · exact .product left (.inl rfl) right
      · exact .product left (.inr rfl) right
  | expression =>
      simp only [Level.operator?, Token.additive?] at hop
      split at hop <;> cases hop
      · exact .sum left (.inl rfl) right
      · exact .sum left (.inr rfl) right

/-- Every pair of parentheses around an expression is one more that is open in it. -/
lemma Derives.inParentheses {n : Nat} {ts : List Token} {e : Expr}
    (h : Derives .expression n ts e) (k : Nat) :
    Derives .expression (k + n) (List.replicate k .lparen ++ ts ++ List.replicate k .rparen) e := by
  induction k with
  | zero => simpa using h
  | succ k ih =>
      have houter := Derives.ofTerm (.ofApplication (.ofFactor (.parentheses ih)))
      rw [List.replicate_succ, List.replicate_succ', Nat.add_right_comm]
      simpa using houter

/-! ### The tokens of a derivation -/

/-- A factor has a first token, which is no function. -/
lemma Derives.exists_cons {n : Nat} {ts : List Token} {e : Expr} (h : Derives .factor n ts e) :
    ∃ tok us, ts = tok :: us ∧ ∀ f, tok ≠ .function f := by
  cases h <;> exact ⟨_, _, rfl, by simp⟩

/-- Neither the end nor an assignment sign stands in an expression. -/
lemma Derives.ne_of_mem {level : Level} {n : Nat} {ts : List Token} {e : Expr}
    (h : Derives level n ts e) {tok : Token} (htok : tok ∈ ts) : tok ≠ .eof ∧ tok ≠ .assign := by
  induction h with
  | int | float | ident =>
      rw [List.mem_singleton.1 htok]
      simp
  | parentheses inner ih =>
      simp only [List.mem_cons, List.mem_append, List.not_mem_nil, or_false] at htok
      rcases htok with rfl | htok | rfl
      · simp
      · exact ih htok
      · simp
  | ofFactor h ih | ofApplication h ih | ofTerm h ih => exact ih htok
  | call f argument ih =>
      rcases List.mem_cons.1 htok with rfl | htok
      · simp
      · exact ih htok
  | product left hop right ihl ihr | sum left hop right ihl ihr =>
      simp only [List.mem_cons, List.mem_append] at htok
      rcases htok with htok | rfl | htok
      · exact ihl htok
      · simp
      · exact ihr htok

/-- Neither the end nor an assignment sign stands in a clause. -/
lemma DerivesClause.ne_of_mem {n : Nat} {ts : List Token} {c : Clause} (h : DerivesClause n ts c)
    {tok : Token} (htok : tok ∈ ts) : tok ≠ .eof ∧ tok ≠ .assign := by
  cases h with
  | value h => exact h.ne_of_mem htok
  | comparison op left right =>
      simp only [List.mem_cons, List.mem_append] at htok
      rcases htok with htok | rfl | htok
      · exact left.ne_of_mem htok
      · simp
      · exact right.ne_of_mem htok

lemma DerivesClause.eof_notMem {n : Nat} {ts : List Token} {c : Clause}
    (h : DerivesClause n ts c) : Token.eof ∉ ts :=
  fun hmem => (h.ne_of_mem hmem).1 rfl

/-- The end does not stand in a statement. -/
lemma DerivesStatement.eof_notMem {n : Nat} {ts : List Token} {tree : StatementTree}
    (h : DerivesStatement n ts tree) : Token.eof ∉ ts := by
  cases h with
  | shown h => exact h.eof_notMem
  | assignment name h =>
      have hts := h.eof_notMem
      simp [hts]

end Reckon
