import Mathlib.Tactic.Lemma
import Mathlib.Tactic.SplitIfs
import Reckon.Elementary.Guarded
import Reckon.Error.Report
import Reckon.Parsing.Expression
import Reckon.Value.Arithmetic

/-!
What computations fail with.

Each operation on numbers fails with errors of a few kinds only, and none of
them is about a text or about a name. That both operands are numbers is
checked before anything is computed, so an operation on numbers never
complains about a truth value.

* `FailsWithin`: whatever a computation fails with is of one of these kinds.
  It goes through a composition if each part fails within the kinds;
* `Fails`: a computation fails, with an error of this kind;
* `failsWithin_applyInt`, `failsWithin_applyFloat` and
  `failsWithin_applyWith`: the operations on numbers;
* `failsWithin_apply`, `failsWithin_compare` and `failsWithin_applyFunction`:
  the operations on values.
-/

namespace Reckon

variable {α β : Type} {kinds kinds' : List ErrorKind}

/-- Whatever the computation fails with is an error of one of these kinds. -/
def FailsWithin (kinds : List ErrorKind) (r : Except Error α) : Prop :=
  ∀ e, r = .error e → e.kind ∈ kinds

/-- The computation fails with an error of this kind. -/
def Fails (kind : ErrorKind) (r : Except Error α) : Prop := ∃ e, r = .error e ∧ e.kind = kind

@[simp] lemma fails_error {kind : ErrorKind} {e : Error} :
    Fails kind (.error e : Except Error α) ↔ e.kind = kind := by
  simp [Fails]

@[simp] lemma not_fails_ok (kind : ErrorKind) (v : α) : ¬ Fails kind (.ok v : Except Error α) := by
  simp [Fails]

lemma map_eq_ok_iff {α β : Type} {f : α → β} {r : Except Error α} {b : β} :
    f <$> r = .ok b ↔ ∃ a, r = .ok a ∧ b = f a := by
  constructor
  · intro h
    cases r with
    | ok a => exact ⟨a, rfl, (Except.ok.inj h).symm⟩
    | error e => cases h
  · rintro ⟨a, rfl, rfl⟩
    rfl

lemma fails_map {kind : ErrorKind} {r : Except Error α} {f : α → β} :
    Fails kind (f <$> r) ↔ Fails kind r := by
  cases r with
  | ok v => exact iff_of_false (not_fails_ok kind (f v)) (not_fails_ok kind v)
  | error e => exact fails_error.trans fails_error.symm

/-- A computation fails with none but its kinds. -/
lemma FailsWithin.not_fails {kind : ErrorKind} {r : Except Error α} (h : FailsWithin kinds r)
    (hkind : kind ∉ kinds) : ¬ Fails kind r := by
  rintro ⟨e, he, rfl⟩
  exact hkind (h e he)

lemma failsWithin_ok (v : α) : FailsWithin kinds (.ok v) := by
  intro e h
  cases h

lemma failsWithin_error {e : Error} (h : e.kind ∈ kinds) :
    FailsWithin kinds (.error e : Except Error α) := by
  intro e' h'
  cases h'
  exact h

namespace FailsWithin

lemma bind {r : Except Error α} {f : α → Except Error β} (h : FailsWithin kinds r)
    (hf : ∀ v, FailsWithin kinds (f v)) : FailsWithin kinds (r >>= f) := by
  cases r with
  | ok v => exact hf v
  | error e => exact failsWithin_error (h e rfl)

lemma map {r : Except Error α} (f : α → β) (h : FailsWithin kinds r) :
    FailsWithin kinds (f <$> r) := by
  cases r with
  | ok v => exact failsWithin_ok (f v)
  | error e => exact failsWithin_error (h e rfl)

lemma mono {r : Except Error α} (h : FailsWithin kinds r) (hkinds : kinds ⊆ kinds') :
    FailsWithin kinds' r :=
  fun e he => hkinds (h e he)

end FailsWithin

/-! ### Operations on numbers -/

lemma failsWithin_applyInt (op : ArithOp) (m n : Int64) :
    FailsWithin [.zeroDivision, .overflow] (op.applyInt m n) := by
  rw [ArithOp.applyInt]
  split_ifs
  · exact failsWithin_error (by simp [Error.kind])
  · cases fit? (op.exact m.toInt n.toInt) with
    | some k => exact failsWithin_ok k
    | none => exact failsWithin_error (by simp [Error.kind])

lemma failsWithin_applyFloat (op : ArithOp) (x y : Float) :
    FailsWithin [.zeroDivision] (op.applyFloat x y) := by
  rw [ArithOp.applyFloat]
  split_ifs
  · exact failsWithin_error (by simp [Error.kind])
  · exact failsWithin_ok _

lemma failsWithin_raw (f : Elementary) (lib : FloatFunctions) (x : Float) :
    FailsWithin [.domain, .zeroDivision] (f.raw lib x) := by
  cases f with
  | sin | cos | tan | pow => exact failsWithin_ok _
  | ctg | sqrt | log =>
      rw [Elementary.raw]
      split_ifs
      · exact failsWithin_error (by simp [Error.kind])
      · exact failsWithin_ok _

lemma failsWithin_applyWith (f : Elementary) (lib : FloatFunctions) (x : Float) :
    FailsWithin [.domain, .zeroDivision, .overflow] (f.applyWith lib x) := by
  rw [Elementary.applyWith]
  cases hraw : f.raw lib x with
  | error e => exact failsWithin_error ((failsWithin_raw f _ x).mono (by simp) e hraw)
  | ok y =>
      dsimp only
      split_ifs
      · exact failsWithin_error (by simp [Error.kind])
      · exact failsWithin_error (by simp [Error.kind])
      · exact failsWithin_ok y

/-! ### Operations on values -/

lemma failsWithin_asFloat (v : Value) : FailsWithin [.type] v.asFloat := by
  cases v with
  | int n => exact failsWithin_ok _
  | float x => exact failsWithin_ok x
  | bool b => exact failsWithin_error (by simp [Error.kind])

lemma failsWithin_apply (op : ArithOp) (v w : Value) :
    FailsWithin [.zeroDivision, .overflow, .type] (v.apply op w) := by
  have hmixed : FailsWithin [.zeroDivision, .overflow, .type] (do
      let x ← v.asFloat
      let y ← w.asFloat
      Value.float <$> op.applyFloat x y) := by
    refine ((failsWithin_asFloat v).mono (by simp)).bind fun x => ?_
    refine ((failsWithin_asFloat w).mono (by simp)).bind fun y => ?_
    exact ((failsWithin_applyFloat op x y).mono (by simp)).map _
  cases v with
  | int m =>
      cases w with
      | int n => exact ((failsWithin_applyInt op m n).mono (by simp)).map Value.int
      | float y => exact hmixed
      | bool b => exact hmixed
  | float x => exact hmixed
  | bool b => exact hmixed

lemma failsWithin_compare (op : Comparison) (v w : Value) :
    FailsWithin [.type] (v.compare op w) := by
  have hmixed : FailsWithin [.type] (do
      let x ← v.asFloat
      let y ← w.asFloat
      pure (floatOrdering x y)) :=
    (failsWithin_asFloat v).bind fun x => (failsWithin_asFloat w).bind fun y => failsWithin_ok _
  have hordering : FailsWithin [.type] (v.ordering w) := by
    cases v with
    | int m =>
        cases w with
        | int n => exact failsWithin_ok _
        | float y => exact hmixed
        | bool b => exact hmixed
    | float x => exact hmixed
    | bool b => exact hmixed
  rw [Value.compare]
  split_ifs
  · exact failsWithin_error (by simp [Error.kind])
  · exact hordering.map _

variable [FloatFunctions]

lemma failsWithin_applyFunction (f : Elementary) (v : Value) :
    FailsWithin [.domain, .zeroDivision, .overflow, .type] (Parsing.applyFunction f v) := by
  refine ((failsWithin_asFloat v).mono (by simp)).bind fun x => ?_
  exact ((failsWithin_applyWith f _ x).mono (by simp)).map _

end Reckon
