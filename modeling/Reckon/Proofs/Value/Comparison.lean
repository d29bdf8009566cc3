import Reckon.Proofs.Value.Promotion

/-!
The laws of comparison.

A comparison asks which of three ways two numbers are ordered, and where one
of them is not a number they are in none of the three. So the laws of the
five comparisons are those of the sets of orderings that they stand for.

* `Comparison.swap` and `Comparison.Relates`: the comparison with its sides
  exchanged, and what it says about integers of any size;
* `Comparison.holds_swap`, `Comparison.existsUnique_holds_iff` and
  `Comparison.holds_compare_iff`: the laws for orderings;
* `Value.compare_cases`: all comparisons of two values ask for one ordering;
* `Value.compare_laws`: the main statement.
-/

namespace Reckon

/-! ### Orderings -/

namespace Comparison

/-- The comparison that says the same with its sides exchanged. -/
def swap : Comparison → Comparison
  | less => greater
  | lessEqual => greaterEqual
  | greater => less
  | greaterEqual => lessEqual
  | equal => equal

/-- What the comparison says about integers of any size. -/
def Relates : Comparison → Int → Int → Prop
  | less, m, n => m < n
  | lessEqual, m, n => m ≤ n
  | greater, m, n => n < m
  | greaterEqual, m, n => n ≤ m
  | equal, m, n => m = n

variable {o : Option Ordering}

lemma holds_swap (op : Comparison) (o : Option Ordering) :
    op.swap.holds (o.map Ordering.swap) = op.holds o := by
  cases o with
  | none => rfl
  | some o => cases op <;> cases o <;> rfl

lemma holds_lessEqual_iff :
    lessEqual.holds o = true ↔ less.holds o = true ∨ equal.holds o = true := by
  rcases o with - | - | - | - <;> decide

lemma holds_greaterEqual_iff :
    greaterEqual.holds o = true ↔ greater.holds o = true ∨ equal.holds o = true := by
  rcases o with - | - | - | - <;> decide

/-- What is ordered is so in exactly one of three ways. -/
lemma existsUnique_holds_iff :
    (∃! op, op ∈ [less, equal, greater] ∧ op.holds o = true) ↔ o ≠ none := by
  constructor
  · rintro ⟨op, ⟨-, h⟩, -⟩ rfl
    cases h
  · intro h
    obtain ⟨o, rfl⟩ := Option.ne_none_iff_exists'.1 h
    cases o with
    | lt => exact ⟨less, by decide, fun op hop => by cases op <;> simp_all [holds, admits]⟩
    | eq => exact ⟨equal, by decide, fun op hop => by cases op <;> simp_all [holds, admits]⟩
    | gt => exact ⟨greater, by decide, fun op hop => by cases op <;> simp_all [holds, admits]⟩

/-- What is not ordered is so for all comparisons. -/
lemma forall_holds_eq_false_iff : (∀ op : Comparison, op.holds o = false) ↔ o = none := by
  constructor
  · intro h
    rcases o with - | - | - | -
    · rfl
    · cases h less
    · cases h equal
    · cases h greater
  · rintro rfl op
    rfl

lemma holds_compare_iff (op : Comparison) (m n : Int) :
    op.holds (some (compare m n)) = true ↔ op.Relates m n := by
  cases op <;> simp [holds, admits, Relates, Int.compare_eq_lt, Int.compare_eq_gt]

end Comparison

/-! ### Values -/

namespace Value

variable {v w : Value} {x y : Float}

/-- The comparison has the answer that it is so. -/
def Holds (op : Comparison) (v w : Value) : Prop := v.compare op w = .ok (.bool true)

lemma ordering_doubles (h : v.IsFloat ∨ w.IsFloat) (hv : v.asFloat = .ok x)
    (hw : w.asFloat = .ok y) : v.ordering w = .ok (floatOrdering x y) := by
  cases v <;> cases w <;> cases hv <;> cases hw
  case int.int => exact (h.elim id id).elim
  all_goals rfl

lemma compare_of_isBool (op : Comparison) (h : v.IsBool ∨ w.IsBool) :
    v.compare op w = .error (.booleanCompared op) := by
  rw [compare, if_pos h]

lemma compare_of_ordering {o : Option Ordering} (op : Comparison) (h : ¬ (v.IsBool ∨ w.IsBool))
    (ho : v.ordering w = .ok o) : v.compare op w = .ok (bool (op.holds o)) := by
  rw [compare, if_neg h, ho]
  rfl

/-- Numbers have an ordering, unless one of them is not a number at all, and if the sides are
exchanged, it is turned around. -/
lemma exists_ordering (h : ¬ (v.IsBool ∨ w.IsBool)) :
    ∃ o, v.ordering w = .ok o ∧ w.ordering v = .ok (o.map Ordering.swap) ∧
      (o = none ↔ v.IsNaN ∨ w.IsNaN) := by
  cases operands v w with
  | refused h' => exact absurd h' h
  | integers m n =>
      refine ⟨some (Ord.compare m.toInt n.toInt), rfl, ?_, by simp [IsNaN]⟩
      rw [Option.map_some, ← Std.OrientedCmp.eq_swap]
      rfl
  | @doubles _ _ x y h' hv hw =>
      refine ⟨floatOrdering x y, ordering_doubles h' hv hw, ?_, ?_⟩
      · rw [ordering_doubles h'.symm hw hv, floatOrdering_swap]
      · rw [floatOrdering_eq_none_iff, isNaN_iff_isNaN hv, isNaN_iff_isNaN hw]

/-- **One ordering for all comparisons**: either a truth value is among the sides, and every
comparison refuses it, or all comparisons, whichever side comes first, ask for the same
ordering. -/
lemma compare_cases (v w : Value) :
    ((v.IsBool ∨ w.IsBool) ∧ (∀ op, v.compare op w = .error (.booleanCompared op)) ∧
        ∀ op, w.compare op v = .error (.booleanCompared op)) ∨
      ∃ o, ¬ (v.IsBool ∨ w.IsBool) ∧ (o = none ↔ v.IsNaN ∨ w.IsNaN) ∧
        (∀ op, v.compare op w = .ok (bool (op.holds o))) ∧
          ∀ op, w.compare op v = .ok (bool (op.holds (o.map Ordering.swap))) := by
  by_cases h : v.IsBool ∨ w.IsBool
  · exact .inl ⟨h, fun op => compare_of_isBool op h, fun op => compare_of_isBool op h.symm⟩
  · obtain ⟨o, ho, ho', hnan⟩ := exists_ordering h
    exact .inr ⟨o, h, hnan, fun op => compare_of_ordering op h ho,
      fun op => compare_of_ordering op (fun h' => h h'.symm) ho'⟩

lemma holds_integers_iff (op : Comparison) (m n : Int64) :
    Holds op (int m) (int n) ↔ op.Relates m.toInt n.toInt := by
  rw [Holds, compare_of_ordering op (by simp [IsBool]) rfl, Except.ok.injEq, bool.injEq]
  exact op.holds_compare_iff m.toInt n.toInt

/-- **The laws of comparison**: a comparison fails exactly if a truth value is among its sides, and
then with a type error; else its answer is a truth value. Less or equal is less, or equal, and
likewise greater or equal. With its sides exchanged a comparison has the answer of its mirror
image, also between an integer and a double. Exactly one of less, equal and greater holds if both
sides are numbers, and no comparison if one of them is a double that is not. Integers are compared
exactly. -/
theorem compare_laws (v w : Value) :
    (∀ op, Fails .type (v.compare op w) ↔ v.IsBool ∨ w.IsBool) ∧
      (∀ op, (∃ b, v.compare op w = .ok (bool b)) ↔ ¬ (v.IsBool ∨ w.IsBool)) ∧
      (Holds .lessEqual v w ↔ Holds .less v w ∨ Holds .equal v w) ∧
      (Holds .greaterEqual v w ↔ Holds .greater v w ∨ Holds .equal v w) ∧
      (∀ op b, v.compare op w = .ok (bool b) ↔ w.compare op.swap v = .ok (bool b)) ∧
      ((∃! op, op ∈ [.less, .equal, .greater] ∧ Holds op v w) ↔
        ¬ (v.IsBool ∨ w.IsBool) ∧ ¬ (v.IsNaN ∨ w.IsNaN)) ∧
      ((∀ op, v.compare op w = .ok (bool false)) ↔
        ¬ (v.IsBool ∨ w.IsBool) ∧ (v.IsNaN ∨ w.IsNaN)) ∧
      ∀ op (m n : Int64), Holds op (int m) (int n) ↔ op.Relates m.toInt n.toInt := by
  rcases compare_cases v w with ⟨hbool, hvw, hwv⟩ | ⟨o, hnumbers, hnan, hvw, hwv⟩
  · -- A truth value is among the sides, so no comparison holds.
    have hholds : ∀ op, ¬ Holds op v w := fun op h => by cases (hvw op).symm.trans h
    refine ⟨fun op => ?_, fun op => ?_, ?_, ?_, fun op b => ?_, ?_, ?_, holds_integers_iff⟩
    · rw [hvw]
      exact iff_of_true (fails_error.2 rfl) hbool
    · simp [hvw, hbool]
    · simp [hholds]
    · simp [hholds]
    · simp [hvw, hwv]
    · simp [hholds, hbool]
    · exact iff_of_false (fun h => by cases (hvw .less).symm.trans (h .less)) fun h => h.1 hbool
  · -- Both sides are numbers, so each law is the one for their ordering.
    have hholds : ∀ op, Holds op v w ↔ op.holds o = true := fun op => by
      rw [Holds, hvw, Except.ok.injEq, bool.injEq]
    refine ⟨fun op => ?_, fun op => ?_, ?_, ?_, fun op b => ?_, ?_, ?_, holds_integers_iff⟩
    · rw [hvw]
      exact iff_of_false (not_fails_ok _ _) hnumbers
    · exact iff_of_true ⟨_, hvw op⟩ hnumbers
    · rw [hholds, hholds, hholds]
      exact Comparison.holds_lessEqual_iff
    · rw [hholds, hholds, hholds]
      exact Comparison.holds_greaterEqual_iff
    · rw [hvw, hwv, op.holds_swap]
    · simp only [hholds]
      rw [Comparison.existsUnique_holds_iff, ne_eq, hnan, and_iff_right hnumbers]
    · simp only [hvw, Except.ok.injEq, bool.injEq]
      rw [Comparison.forall_holds_eq_false_iff, hnan, and_iff_right hnumbers]

/-- Two integers that are taken as the same double, and yet one is less than the other. -/
example : Float.ofInt 9007199254740992 = Float.ofInt 9007199254740993 ∧
    (int 9007199254740992).compare .less (int 9007199254740993) = .ok (bool true) := by
  decide +kernel

end Value

end Reckon
