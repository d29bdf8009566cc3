import Reckon.Proofs.Grammar.Unambiguity

/-!
Factors in the place of parenthesised expressions.

Parentheses group: where a parenthesised expression stands inside of another
expression, it is a factor there. So any factor may stand in its place. If
the two have the same value, and the new one needs no more parentheses, then
the whole has the same value as before.

That the parentheses belong to each other must be seen from the tokens, so
the parentheses that are open are counted along them.

* `depth` and `Balanced`: parentheses that match;
* `Balanced.group_cases`: a token that stands between two groups separates
  them;
* `DerivesLike`: another expression that has the same value;
* `Replaceable`: the main invariant, and `Derives.replaceable`, by induction
  on the derivation;
* `DerivesStatement.replace`: the same for statements.
-/

namespace Reckon

/-! ### Matching parentheses -/

/-- The number of parentheses that are still open after the tokens. -/
def depth (ts : List Token) : Int := ts.count .lparen - ts.count .rparen

@[simp] lemma depth_nil : depth [] = 0 := rfl

@[simp] lemma depth_append (ts us : List Token) : depth (ts ++ us) = depth ts + depth us := by
  simp only [depth, List.count_append]
  omega

@[simp] lemma depth_lparen (ts : List Token) : depth (.lparen :: ts) = depth ts + 1 := by
  simp [depth]
  omega

@[simp] lemma depth_rparen (ts : List Token) : depth (.rparen :: ts) = depth ts - 1 := by
  simp [depth]
  omega

lemma depth_cons_of_ne {tok : Token} (hl : tok ≠ .lparen) (hr : tok ≠ .rparen)
    (ts : List Token) : depth (tok :: ts) = depth ts := by
  simp [depth, hl, hr]

/-- No parenthesis is open at the end, and none is ever closed that was not opened. -/
structure Balanced (ts : List Token) : Prop where
  closed : depth ts = 0
  opened : ∀ ps, ps <+: ts → 0 ≤ depth ps

variable {tok : Token} {ps qs ts us ls rs zs : List Token}

/-- What two lists start with is in the first one, or includes it. -/
lemma start_append_cases (h : ps <+: ts ++ us) :
    ps <+: ts ∨ ∃ qs, qs <+: us ∧ ps = ts ++ qs := by
  obtain ⟨rest, h⟩ := h
  rcases List.append_eq_append_iff.1 h with ⟨as, rfl, -⟩ | ⟨qs, rfl, rfl⟩
  · exact .inl (List.prefix_append ps as)
  · exact .inr ⟨qs, List.prefix_append qs rest, rfl⟩

lemma Balanced.append (hts : Balanced ts) (hus : Balanced us) : Balanced (ts ++ us) where
  closed := by rw [depth_append, hts.closed, hus.closed, Int.add_zero]
  opened := by
    intro ps hps
    rcases start_append_cases hps with hps | ⟨qs, hqs, rfl⟩
    · exact hts.opened ps hps
    · rw [depth_append, hts.closed, Int.zero_add]
      exact hus.opened qs hqs

lemma Balanced.singleton (hl : tok ≠ .lparen) (hr : tok ≠ .rparen) : Balanced [tok] where
  closed := depth_cons_of_ne hl hr []
  opened := by
    intro ps hps
    rcases List.prefix_cons_iff.1 hps with rfl | ⟨qs, rfl, hqs⟩
    · exact Int.le_refl _
    · rw [List.prefix_nil.1 hqs, depth_cons_of_ne hl hr []]
      exact Int.le_refl _

lemma Balanced.parentheses (h : Balanced ts) : Balanced (.lparen :: (ts ++ [.rparen])) where
  closed := by simp [h.closed]
  opened := by
    intro ps hps
    rcases List.prefix_cons_iff.1 hps with rfl | ⟨qs, rfl, hqs⟩
    · exact Int.le_refl _
    · rw [depth_lparen]
      rcases start_append_cases hqs with hqs | ⟨rs, hrs, rfl⟩
      · have hopened := h.opened qs hqs
        omega
      · have hlast : rs = [] ∨ rs = [.rparen] := by
          rcases List.prefix_cons_iff.1 hrs with rfl | ⟨vs, rfl, hvs⟩
          · exact .inl rfl
          · rw [List.prefix_nil.1 hvs]
            exact .inr rfl
        rcases hlast with rfl | rfl <;> simp [h.closed]

/-- The parentheses of an expression match. -/
lemma Derives.balanced {level : Level} {n : Nat} {e : Expr} (h : Derives level n ts e) :
    Balanced ts := by
  induction h with
  | int | float | ident => exact .singleton (by simp) (by simp)
  | parentheses inner ih => exact ih.parentheses
  | ofFactor h ih | ofApplication h ih | ofTerm h ih => exact ih
  | call f argument ih => exact (Balanced.singleton (by simp) (by simp)).append ih
  | product left hop right ihl ihr | sum left hop right ihl ihr =>
      exact ihl.append ((Balanced.singleton (by simp) (by simp)).append ihr)

/-- **Groups are not cut**: a token behind a balanced list is in front of a group of
parentheses or behind it, unless it is the parenthesis that opens the group. -/
lemma Balanced.group_cases (hls : Balanced ls) (hts : Balanced ts) (htok : tok ≠ .lparen)
    (h : ls ++ tok :: rs = ps ++ .lparen :: (ts ++ .rparen :: qs)) :
    (∃ zs, ps = ls ++ tok :: zs ∧ rs = zs ++ .lparen :: (ts ++ .rparen :: qs)) ∨
      ∃ zs, ls = ps ++ .lparen :: (ts ++ .rparen :: zs) ∧ qs = zs ++ tok :: rs := by
  rcases List.append_eq_append_iff.1 h with ⟨as, rfl, hgroup⟩ | ⟨bs, rfl, hgroup⟩
  · cases as with
    | nil => exact absurd (List.cons.inj hgroup).1 htok
    | cons a as =>
        obtain ⟨rfl, rfl⟩ := List.cons.inj hgroup
        exact .inl ⟨as, rfl, rfl⟩
  · cases bs with
    | nil => exact absurd (List.cons.inj hgroup).1.symm htok
    | cons b bs =>
        obtain ⟨rfl, hinside⟩ := List.cons.inj hgroup
        have hps : 0 ≤ depth ps := hls.opened ps (List.prefix_append _ _)
        have hclosed := hls.closed
        rw [depth_append, depth_lparen] at hclosed
        rcases List.append_eq_append_iff.1 hinside with ⟨cs, rfl, hclosing⟩ | ⟨cs, rfl, -⟩
        · cases cs with
          | nil =>
              -- The group would be left open.
              rw [List.append_nil, hts.closed] at hclosed
              omega
          | cons c cs =>
              obtain ⟨rfl, rfl⟩ := List.cons.inj hclosing
              exact .inr ⟨cs, rfl, rfl⟩
        · -- The balanced list would end inside of the group.
          have hbs : 0 ≤ depth bs := hts.opened bs (List.prefix_append _ _)
          omega

/-! ### Another factor in the place of a group -/

variable [FloatFunctions] {vars : Variables} {level : Level} {n m k : Nat} {x y e l r : Expr}

/-- The tokens are an expression with the value of this one, and they nest no deeper. -/
def DerivesLike (vars : Variables) (level : Level) (n : Nat) (zs : List Token) (e : Expr) :
    Prop :=
  ∃ m e', Derives level m zs e' ∧ m ≤ n ∧ e'.eval vars = e.eval vars

lemma Derives.like (h : Derives level n zs e) : DerivesLike vars level n zs e :=
  ⟨n, e, h, Nat.le_refl n, rfl⟩

lemma DerivesLike.of_operand (h : DerivesLike vars level.operand n zs e) :
    DerivesLike vars level n zs e := by
  obtain ⟨m, e', he', hm, heval⟩ := h
  exact ⟨m, e', he'.of_operand, hm, heval⟩

lemma DerivesLike.join {op : ArithOp} (hop : level.operator? tok = some op)
    (left : DerivesLike vars level m ls l) (right : DerivesLike vars level.operand n rs r) :
    DerivesLike vars level (max m n) (ls ++ tok :: rs) (.binary op l r) := by
  obtain ⟨m', l', hl', hm', hl⟩ := left
  obtain ⟨n', r', hr', hn', hr⟩ := right
  refine ⟨max m' n', .binary op l' r', hl'.join hop hr', by omega, ?_⟩
  rw [Expr.eval, Expr.eval, hl, hr]

lemma DerivesLike.call (f : Elementary) (argument : DerivesLike vars .factor n ts e) :
    DerivesLike vars .application n (.function f :: ts) (.call f e) := by
  obtain ⟨m, e', he', hm, heval⟩ := argument
  refine ⟨m, .call f e', .call f he', hm, ?_⟩
  rw [Expr.eval, Expr.eval, heval]

lemma DerivesLike.parentheses (inner : DerivesLike vars .expression n ts e) :
    DerivesLike vars .factor (n + 1) (.lparen :: (ts ++ [.rparen])) e := by
  obtain ⟨m, e', he', hm, heval⟩ := inner
  exact ⟨m + 1, e', .parentheses he', Nat.succ_le_succ hm, heval⟩

/-- Wherever the group stands among the tokens, the factor may stand instead. -/
def Replaceable (vars : Variables) (ts us : List Token) (level : Level) (n : Nat)
    (zs : List Token) (e : Expr) : Prop :=
  ∀ ps qs, zs = ps ++ .lparen :: (ts ++ .rparen :: qs) →
    DerivesLike vars level n (ps ++ us ++ qs) e

/-- Two operands and what stands between them: the group is in one of them. -/
lemma Replaceable.join {op : ArithOp} (hts : Balanced ts) (hop : level.operator? tok = some op)
    (htok : tok ≠ .lparen) (left : Derives level m ls l) (right : Derives level.operand n rs r)
    (hleft : Replaceable vars ts us level m ls l)
    (hright : Replaceable vars ts us level.operand n rs r) :
    Replaceable vars ts us level (max m n) (ls ++ tok :: rs) (.binary op l r) := by
  intro ps qs h
  rcases left.balanced.group_cases hts htok h with ⟨zs, rfl, hrs⟩ | ⟨zs, hls, rfl⟩
  · have hjoin := left.like.join hop (hright zs qs hrs)
    simpa using hjoin
  · have hjoin := (hleft ps zs hls).join hop right.like
    simpa using hjoin

/-- **A factor in the place of a group**: the tree around it stays as it is. -/
lemma Derives.replaceable (hx : Derives .expression k ts x) (hy : Derives .factor m us y)
    (hm : m ≤ k + 1) (heval : y.eval vars = x.eval vars) (h : Derives level n zs e) :
    Replaceable vars ts us level n zs e := by
  induction h with
  | int | float | ident =>
      intro ps qs h
      cases ps <;> simp at h
  | @parentheses n vs e inner ih =>
      intro ps qs h
      cases ps with
      | nil =>
          -- The group is the one that starts here, so it ends here, too.
          have hclosing : ∀ {r : List Token}, ∀ tok ∈ (Token.rparen :: r).head?,
              Level.expression.Closed tok ∧ Level.expression.operator? tok = none := by
            intro r tok htok
            cases htok
            exact ⟨rfl, rfl⟩
          obtain ⟨rfl, hqs, rfl, rfl⟩ :=
            (determined inner).unique hx (List.cons.inj h).2 hclosing hclosing
          obtain rfl : qs = [] := (List.cons.inj hqs).2.symm
          rw [List.nil_append, List.append_nil]
          exact ⟨m, y, hy, hm, heval⟩
      | cons p ps =>
          obtain ⟨rfl, hinside⟩ := List.cons.inj h
          rcases inner.balanced.group_cases hx.balanced (by simp) hinside with
            ⟨rs, -, hrs⟩ | ⟨rs, hvs, rfl⟩
          · simp at hrs
          · have hparentheses := (ih ps rs hvs).parentheses
            simpa using hparentheses
  | ofFactor h ih | ofApplication h ih | ofTerm h ih =>
      exact fun ps qs h => (ih ps qs h).of_operand
  | call f argument ih =>
      intro ps qs h
      cases ps with
      | nil => cases h
      | cons p ps =>
          obtain ⟨rfl, hargument⟩ := List.cons.inj h
          exact (ih ps qs hargument).call f
  | product left hop right ihl ihr =>
      exact Replaceable.join hx.balanced (Token.multiplicative?_arith hop) (by simp) left right ihl
        ihr
  | sum left hop right ihl ihr =>
      exact Replaceable.join hx.balanced (Token.additive?_arith hop) (by simp) left right ihl ihr

/-- A factor in the place of a group in a clause. -/
lemma DerivesClause.replace {c : Clause} (hx : Derives .expression k ts x)
    (hy : Derives .factor m us y) (hm : m ≤ k + 1) (heval : y.eval vars = x.eval vars)
    (h : DerivesClause n (ps ++ .lparen :: (ts ++ .rparen :: qs)) c) :
    ∃ n' c', DerivesClause n' (ps ++ us ++ qs) c' ∧ n' ≤ n ∧ c'.eval vars = c.eval vars := by
  generalize hzs : ps ++ .lparen :: (ts ++ .rparen :: qs) = zs at h
  cases h with
  | value h =>
      obtain ⟨n', e', he', hn', heval'⟩ := Derives.replaceable hx hy hm heval h ps qs hzs.symm
      exact ⟨n', .value e', .value he', hn', heval'⟩
  | @comparison i j ls rs l r op left right =>
      rcases left.balanced.group_cases hx.balanced (by simp) hzs.symm with
        ⟨vs, rfl, hrs⟩ | ⟨vs, hls, rfl⟩
      · obtain ⟨j', r', hr', hj', heval'⟩ := Derives.replaceable hx hy hm heval right vs qs hrs
        refine ⟨max i j', .comparison op l r', ?_, by omega, ?_⟩
        · simpa using DerivesClause.comparison op left hr'
        · rw [Clause.eval, Clause.eval, heval']
      · obtain ⟨i', l', hl', hi', heval'⟩ := Derives.replaceable hx hy hm heval left ps vs hls
        refine ⟨max i' j, .comparison op l' r, ?_, by omega, ?_⟩
        · simpa using DerivesClause.comparison op hl' right
        · rw [Clause.eval, Clause.eval, heval']

/-- **A factor in the place of a group in a statement**: the statement comes to what it came
to before. -/
theorem DerivesStatement.replace {tree : StatementTree} (hx : Derives .expression k ts x)
    (hy : Derives .factor m us y) (hm : m ≤ k + 1) (heval : y.eval vars = x.eval vars)
    (h : DerivesStatement n (ps ++ .lparen :: (ts ++ .rparen :: qs)) tree) :
    ∃ n' tree', DerivesStatement n' (ps ++ us ++ qs) tree' ∧ n' ≤ n ∧
      tree'.run vars = tree.run vars := by
  generalize hzs : ps ++ .lparen :: (ts ++ .rparen :: qs) = zs at h
  cases h with
  | shown h =>
      subst hzs
      obtain ⟨n', c', hc', hn', heval'⟩ := h.replace hx hy hm heval
      refine ⟨n', .shown c', .shown hc', hn', ?_⟩
      rw [StatementTree.run, StatementTree.run, heval']
  | assignment name h =>
      -- The group starts behind the assignment sign.
      match ps, hzs with
      | [], hzs => cases hzs
      | [_], hzs => cases hzs
      | p :: p' :: ps, hzs =>
          simp only [List.cons_append, List.cons.injEq] at hzs
          obtain ⟨rfl, rfl, rfl⟩ := hzs
          obtain ⟨n', c', hc', hn', heval'⟩ := h.replace hx hy hm heval
          refine ⟨n', .assignment name c', .assignment name hc', hn', ?_⟩
          rw [StatementTree.run, StatementTree.run, heval']

end Reckon
