import Reckon.Proofs.Grammar.Derivation

/-!
No text has two trees.

Two derivations of the same kind that start at the same place can differ
only if one of them goes on where the other stops, and a chain goes on only
with an operator of its own. So what follows a derivation decides where it
ends.

* `Continues`: how a chain goes on, operator by operator;
* `Determined`: any other derivation from the same place is longer, and
  continues this one. `determined` is the main statement, by induction on
  the derivation;
* `Derives.unique`, `DerivesClause.unique` and `DerivesStatement.unique`:
  the tokens decide the tree;
* `Parses.unique`: so does the text.
-/

namespace Reckon

/-- A chain with the first tree goes on with these tokens to the second tree. -/
inductive Continues (level : Level) : Nat → Expr → List Token → Nat → Expr → Prop
  | refl (n : Nat) (e : Expr) : Continues level n e [] n e
  | step {n k m : Nat} {e r e' : Expr} {tok : Token} {op : ArithOp} {us ts : List Token}
      (hop : level.operator? tok = some op) (operand : Derives level.operand k us r)
      (rest : Continues level (max n k) (.binary op e r) ts m e') :
      Continues level n e (tok :: (us ++ ts)) m e'

/-- A chain that goes on can go on by one more operator. -/
lemma Continues.snoc {level : Level} {n k m : Nat} {e l r : Expr} {tok : Token} {op : ArithOp}
    {us ts : List Token} (h : Continues level n e ts m l) (hop : level.operator? tok = some op)
    (hr : Derives level.operand k us r) :
    Continues level n e (ts ++ tok :: us) (max m k) (.binary op l r) := by
  induction h with
  | refl n e =>
      have h := Continues.step hop hr (.refl (max n k) (.binary op e r))
      rwa [List.append_nil] at h
  | step hop' operand rest ih =>
      rw [List.cons_append, List.append_assoc]
      exact .step hop' operand ih

/-- A chain does not go on where no operator of its own follows. -/
lemma Continues.eq_nil {level : Level} {n m : Nat} {e e' : Expr} {zs : List Token}
    (h : Continues level n e zs m e') (hzs : ∀ tok ∈ zs.head?, level.operator? tok = none) :
    zs = [] ∧ n = m ∧ e = e' := by
  cases h with
  | refl => exact ⟨rfl, rfl, rfl⟩
  | step hop operand rest =>
      rw [hzs _ rfl] at hop
      cases hop

/-- What goes on with a chain does not go on with an operand of it. -/
lemma Continues.closed_head {level : Level} {n m : Nat} {e e' : Expr} {zs : List Token}
    (h : Continues level n e zs m e') : ∀ tok ∈ zs.head?, level.Closed tok := by
  intro tok htok
  cases h with
  | refl => cases htok
  | step hop operand rest =>
      cases htok
      exact Level.closed_of_operator? hop

/-- A chain has a first operand, with which it goes on. -/
lemma Derives.exists_first {level : Level} {n : Nat} {ts : List Token} {e : Expr}
    (h : Derives level n ts e) (hlevel : level = .term ∨ level = .expression) :
    ∃ k us a zs, ts = us ++ zs ∧ Derives level.operand k us a ∧ Continues level k a zs n e := by
  induction h with
  | int | float | ident | parentheses | ofFactor | call => simp at hlevel
  | ofApplication h => exact ⟨_, _, _, [], (List.append_nil _).symm, h, .refl _ _⟩
  | ofTerm h => exact ⟨_, _, _, [], (List.append_nil _).symm, h, .refl _ _⟩
  | product left hop right ihl ihr =>
      obtain ⟨k, us, a, zs, rfl, ha, hzs⟩ := ihl hlevel
      exact ⟨k, us, a, _, List.append_assoc _ _ _, ha,
        hzs.snoc (Token.multiplicative?_arith hop) right⟩
  | sum left hop right ihl ihr =>
      obtain ⟨k, us, a, zs, rfl, ha, hzs⟩ := ihl hlevel
      exact ⟨k, us, a, _, List.append_assoc _ _ _, ha,
        hzs.snoc (Token.additive?_arith hop) right⟩

/-- Any other derivation of this kind from the same place, with nothing after it that
would continue it, continues this one. -/
def Determined (level : Level) (n : Nat) (ts : List Token) (e : Expr) : Prop :=
  ∀ ⦃m : Nat⦄ ⦃us r r' : List Token⦄ ⦃e' : Expr⦄, Derives level m us e' → ts ++ r = us ++ r' →
    (∀ tok ∈ r.head?, level.Closed tok) →
    (∀ tok ∈ r'.head?, level.Closed tok ∧ level.operator? tok = none) →
    ∃ zs, us = ts ++ zs ∧ r = zs ++ r' ∧ Continues level n e zs m e'

/-- Two derivations that nothing goes on with are the same. -/
lemma Determined.unique {level : Level} {n m : Nat} {ts us r r' : List Token} {e e' : Expr}
    (h : Determined level n ts e) (he' : Derives level m us e') (heq : ts ++ r = us ++ r')
    (hr : ∀ tok ∈ r.head?, level.Closed tok ∧ level.operator? tok = none)
    (hr' : ∀ tok ∈ r'.head?, level.Closed tok ∧ level.operator? tok = none) :
    us = ts ∧ r = r' ∧ n = m ∧ e = e' := by
  obtain ⟨zs, rfl, rfl, hzs⟩ := h he' heq (fun tok htok => (hr tok htok).1) hr'
  have hhead : ∀ tok ∈ zs.head?, level.operator? tok = none := by
    intro tok htok
    cases zs with
    | nil => cases htok
    | cons z zs => exact (hr tok htok).2
  obtain ⟨rfl, hnm, hee'⟩ := hzs.eq_nil hhead
  exact ⟨List.append_nil ts, rfl, hnm, hee'⟩

/-- The operands of a chain end where the chain goes on. -/
lemma Determined.operand_unique {level : Level} {n k j m : Nat} {ts us zs r r' : List Token}
    {e a b e' : Expr} (h : Determined level.operand n ts e) (ha : Derives level.operand k us a)
    (heq : ts ++ r = us ++ (zs ++ r')) (hr : ∀ tok ∈ r.head?, level.Closed tok)
    (hr' : ∀ tok ∈ r'.head?, level.Closed tok) (hzs : Continues level j b zs m e') :
    us = ts ∧ r = zs ++ r' ∧ n = k ∧ e = a := by
  have hnext : ∀ tok ∈ (zs ++ r').head?, level.Closed tok := by
    intro tok htok
    cases zs with
    | nil => exact hr' tok htok
    | cons z zs => exact hzs.closed_head tok htok
  exact h.unique ha heq (fun tok htok => ⟨level.closed_operand tok, hr tok htok⟩)
    fun tok htok => ⟨level.closed_operand tok, hnext tok htok⟩

/-- The first operand of a chain. -/
lemma Determined.of_operand {level : Level} {n : Nat} {ts : List Token} {e : Expr}
    (hlevel : level = .term ∨ level = .expression) (h : Determined level.operand n ts e) :
    Determined level n ts e := by
  intro m us r r' e' he' heq hr hr'
  obtain ⟨k, us, a, zs, rfl, ha, hzs⟩ := he'.exists_first hlevel
  rw [List.append_assoc] at heq
  obtain ⟨rfl, hrest, rfl, rfl⟩ :=
    h.operand_unique ha heq hr (fun tok htok => (hr' tok htok).1) hzs
  exact ⟨zs, rfl, hrest, hzs⟩

/-- One more operator and operand of a chain. -/
lemma Determined.join {level : Level} {n k : Nat} {ts us : List Token} {l e : Expr} {tok : Token}
    {op : ArithOp} (hleft : Determined level n ts l) (hop : level.operator? tok = some op)
    (hright : Determined level.operand k us e) :
    Determined level (max n k) (ts ++ tok :: us) (.binary op l e) := by
  intro m vs r r' e' he' heq hr hr'
  rw [List.append_assoc, List.cons_append] at heq
  obtain ⟨zs, rfl, hzs, hcontinues⟩ := hleft he' heq
    (fun tok' htok' => by cases htok'; exact Level.closed_of_operator? hop) hr'
  cases hcontinues with
  | refl =>
      -- The other derivation would stop in front of an operator of its own.
      rw [List.nil_append] at hzs
      have hnone := (hr' tok (by rw [← hzs]; rfl)).2
      rw [hnone] at hop
      cases hop
  | step hop' operand rest =>
      rw [List.cons_append, List.cons.injEq, List.append_assoc] at hzs
      obtain ⟨rfl, hzs⟩ := hzs
      rw [hop, Option.some.injEq] at hop'
      obtain ⟨rfl, hrest, rfl, rfl⟩ :=
        hright.operand_unique operand hzs hr (fun tok htok => (hr' tok htok).1) rest
      subst hop'
      exact ⟨_, by simp, hrest, rest⟩

/-- Nothing goes on with a derivation of a factor or an application. -/
lemma determined_of_eq {level : Level} {n : Nat} {ts : List Token} {e : Expr}
    (h : ∀ {m : Nat} {us r r' : List Token} {e' : Expr}, Derives level m us e' →
      ts ++ r = us ++ r' → us = ts ∧ r = r' ∧ n = m ∧ e = e') : Determined level n ts e := by
  intro m us r r' e' he' heq hr hr'
  obtain ⟨rfl, hrr', rfl, rfl⟩ := h he' heq
  exact ⟨[], (List.append_nil us).symm, hrr', .refl _ _⟩

/-- **Determinacy**: wherever a derivation starts, it is the only one of its kind, but for
those that go on with more operators. -/
theorem determined {level : Level} {n : Nat} {ts : List Token} {e : Expr}
    (h : Derives level n ts e) : Determined level n ts e := by
  induction h with
  | int | float | ident =>
      refine determined_of_eq fun he' heq => ?_
      cases he' <;> cases heq
      exact ⟨rfl, rfl, rfl, rfl⟩
  | parentheses inner ih =>
      refine determined_of_eq fun he' heq => ?_
      cases he' with
      | int | float | ident => cases heq
      | parentheses inner' =>
          simp only [List.cons_append, List.append_assoc, List.cons.injEq, true_and,
            List.nil_append] at heq
          have hclosing : ∀ {r : List Token}, ∀ tok ∈ (Token.rparen :: r).head?,
              Level.expression.Closed tok ∧ Level.expression.operator? tok = none := by
            intro r tok htok
            cases htok
            exact ⟨rfl, rfl⟩
          obtain ⟨rfl, hr, rfl, rfl⟩ := ih.unique inner' heq hclosing hclosing
          exact ⟨rfl, (List.cons.inj hr).2, rfl, rfl⟩
  | ofFactor h ih =>
      refine determined_of_eq fun he' heq => ?_
      cases he' with
      | ofFactor h' => exact ih.unique h' heq (fun _ _ => ⟨rfl, rfl⟩) fun _ _ => ⟨rfl, rfl⟩
      | call f argument =>
          -- Only one of the two starts with a function.
          obtain ⟨tok, vs, rfl, htok⟩ := h.exists_cons
          exact absurd (List.cons.inj heq).1 (htok f)
  | call f argument ih =>
      refine determined_of_eq fun he' heq => ?_
      cases he' with
      | ofFactor h' =>
          obtain ⟨tok, vs, rfl, htok⟩ := h'.exists_cons
          exact absurd (List.cons.inj heq).1.symm (htok f)
      | call f' argument' =>
          simp only [List.cons_append, List.cons.injEq, Token.function.injEq] at heq
          obtain ⟨rfl, heq⟩ := heq
          obtain ⟨rfl, hr, rfl, rfl⟩ :=
            ih.unique argument' heq (fun _ _ => ⟨rfl, rfl⟩) fun _ _ => ⟨rfl, rfl⟩
          exact ⟨rfl, hr, rfl, rfl⟩
  | ofApplication h ih => exact ih.of_operand (.inl rfl)
  | product left hop right ihl ihr => exact ihl.join (Token.multiplicative?_arith hop) ihr
  | ofTerm h ih => exact ih.of_operand (.inr rfl)
  | sum left hop right ihl ihr => exact ihl.join (Token.additive?_arith hop) ihr

/-! ### One tree for each text -/

/-- An expression ends where a comparison stands, or nothing. -/
lemma Derives.unique_of_append {m n : Nat} {ts us r r' : List Token} {e e' : Expr}
    (h : Derives .expression m ts e) (h' : Derives .expression n us e')
    (heq : ts ++ r = us ++ r') (hr : ∀ tok ∈ r.head?, ∃ op, tok = .comparison op)
    (hr' : ∀ tok ∈ r'.head?, ∃ op, tok = .comparison op) :
    us = ts ∧ r = r' ∧ m = n ∧ e = e' := by
  have hclosed : ∀ tok : Token, (∃ op, tok = .comparison op) →
      Level.expression.Closed tok ∧ Level.expression.operator? tok = none := by
    rintro tok ⟨op, rfl⟩
    exact ⟨rfl, rfl⟩
  exact (determined h).unique h' heq (fun tok htok => hclosed tok (hr tok htok))
    fun tok htok => hclosed tok (hr' tok htok)

/-- An expression as a whole has one tree. -/
lemma Derives.unique {m n : Nat} {ts : List Token} {e e' : Expr}
    (h : Derives .expression m ts e) (h' : Derives .expression n ts e') : m = n ∧ e = e' := by
  have heq : ts ++ [] = ts ++ [] := rfl
  obtain ⟨-, -, hmn, hee'⟩ := h.unique_of_append h' heq (by simp) (by simp)
  exact ⟨hmn, hee'⟩

/-- No expression is one with a comparison and more behind it. -/
lemma Derives.ne_comparison {m n : Nat} {ts us : List Token} {e e' : Expr} {op : Comparison}
    (h : Derives .expression m (ts ++ .comparison op :: us) e)
    (h' : Derives .expression n ts e') : False := by
  have heq : (ts ++ .comparison op :: us) ++ [] = ts ++ .comparison op :: us :=
    List.append_nil _
  obtain ⟨-, hr, -, -⟩ := h.unique_of_append h' heq (by simp) (by simp)
  cases hr

/-- A clause has one tree. -/
lemma DerivesClause.unique {m n : Nat} {ts : List Token} {c c' : Clause}
    (h : DerivesClause m ts c) (h' : DerivesClause n ts c') : m = n ∧ c = c' := by
  cases h with
  | value h =>
      cases h' with
      | value h' =>
          obtain ⟨rfl, rfl⟩ := h.unique h'
          exact ⟨rfl, rfl⟩
      | comparison op left right => exact (h.ne_comparison left).elim
  | @comparison j k us vs l r op left right =>
      generalize hts : us ++ .comparison op :: vs = ts at h'
      cases h' with
      | value h' =>
          subst hts
          exact (h'.ne_comparison left).elim
      | comparison op' left' right' =>
          obtain ⟨rfl, htail, rfl, rfl⟩ := left.unique_of_append left' hts (by simp) (by simp)
          rw [List.cons.injEq, Token.comparison.injEq] at htail
          obtain ⟨rfl, rfl⟩ := htail
          obtain ⟨rfl, rfl⟩ := right.unique right'
          exact ⟨rfl, rfl⟩

/-- A statement has one tree. -/
lemma DerivesStatement.unique {m n : Nat} {ts : List Token} {tree tree' : StatementTree}
    (h : DerivesStatement m ts tree) (h' : DerivesStatement n ts tree') : tree = tree' := by
  cases h with
  | shown h =>
      cases h' with
      | shown h' => rw [(h.unique h').2]
      | assignment name h' => exact absurd rfl (h.ne_of_mem (by simp)).2
  | assignment name h =>
      cases h' with
      | shown h' => exact absurd rfl (h'.ne_of_mem (by simp)).2
      | assignment name' h' => rw [(h.unique h').2]

/-- **Unambiguity**: no text has two trees. -/
theorem Parses.unique {text : String} {tree tree' : StatementTree} (h : Parses text tree)
    (h' : Parses text tree') : tree = tree' := by
  obtain ⟨m, ts, hts, htree, -⟩ := h
  obtain ⟨n, us, hus, htree', -⟩ := h'
  have hmap : (ts.map .ok : List (Except LexError Token)) = us.map .ok := hts.symm.trans hus
  obtain rfl : ts = us := (List.map_inj_right fun _ _ h => by cases h; rfl).1 hmap
  exact htree.unique htree'

end Reckon
