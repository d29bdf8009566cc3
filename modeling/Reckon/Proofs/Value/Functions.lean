import Reckon.Proofs.Value.Promotion

/-!
The guards of the functions.

Whatever the functions on doubles give, four tests stand between them and the
calculator: arguments outside of a domain, a zero of the tangent, values that
are not numbers, and infinite values of finite arguments. So each failure has
one cause, and what is not refused is harmless.

* `Elementary.unguarded`: the value without any test;
* `Elementary.Pole` and `Elementary.Outside`: the arguments that are refused
  before anything is computed;
* `Elementary.applyWith_eq`: the tests in one place and in their order;
* `finite_of_applyFunction` and `finite_of_application`: finite arguments
  have finite values, also where a statement calls a function;
* `Elementary.applyWith_guarded`: the main statement.
-/

namespace Reckon

namespace Elementary

variable {lib : FloatFunctions} {f : Elementary} {x y r : Float}

/-! ### The tests -/

/-- The value as the functions on doubles give it, without any test. -/
def unguarded (lib : FloatFunctions) (x : Float) : Elementary → Float
  | sin => lib.sin x
  | cos => lib.cos x
  | tan => lib.tan x
  | ctg => 1.0 / lib.tan x
  | sqrt => lib.sqrt x
  | pow => lib.exp2 x
  | log => lib.log x

/-- The argument is a zero of the tangent, where there is no cotangent. -/
def Pole (lib : FloatFunctions) (x : Float) (f : Elementary) : Prop :=
  f = ctg ∧ (lib.tan x == 0.0) = true

/-- The argument is outside of the domain of a square root or a logarithm. -/
def Outside (x : Float) (f : Elementary) : Prop := f = sqrt ∧ x < 0.0 ∨ f = log ∧ x ≤ 0.0

instance : Decidable (f.Pole lib x) :=
  inferInstanceAs (Decidable (f = ctg ∧ (lib.tan x == 0.0) = true))

instance : Decidable (f.Outside x) :=
  inferInstanceAs (Decidable (f = sqrt ∧ x < 0.0 ∨ f = log ∧ x ≤ 0.0))

/-- What is refused before anything is computed. -/
lemma raw_eq (lib : FloatFunctions) (f : Elementary) (x : Float) :
    f.raw lib x =
      if f.Pole lib x then .error (.cotangentPole x)
      else if f.Outside x then .error (.outsideDomain f x)
      else .ok (f.unguarded lib x) := by
  cases f <;> simp [raw, Pole, Outside, unguarded]

/-- **The tests, in their order.** -/
lemma applyWith_eq (lib : FloatFunctions) (f : Elementary) (x : Float) :
    f.applyWith lib x =
      if f.Pole lib x then .error (.cotangentPole x)
      else if f.Outside x ∨ (f.unguarded lib x).isNaN ∧ ¬ x.isNaN then .error (.outsideDomain f x)
      else if (f.unguarded lib x).isInf ∧ x.isFinite then .error (.functionOverflow f x)
      else .ok (f.unguarded lib x) := by
  rw [applyWith, raw_eq]
  by_cases hpole : f.Pole lib x
  · simp only [hpole, if_true]
  · by_cases houtside : f.Outside x
    · simp only [hpole, houtside, if_false, if_true, true_or]
    · simp only [hpole, houtside, if_false, false_or]

/-- At a zero of the tangent, its reciprocal is a number. -/
lemma Pole.not_isNaN (h : f.Pole lib x) : ¬ (f.unguarded lib x).isNaN := by
  obtain ⟨rfl, htan⟩ := h
  rw [unguarded]
  rcases beq_zero_iff.1 htan with hzero | hzero <;> rw [hzero] <;> decide

lemma Pole.not_outside (h : f.Pole lib x) : ¬ f.Outside x := by
  obtain ⟨rfl, -⟩ := h
  simp [Outside]

/-! ### What each failure means -/

lemma fails_zeroDivision_iff : Fails .zeroDivision (f.applyWith lib x) ↔ f.Pole lib x := by
  rw [applyWith_eq]
  split_ifs with hpole
  · exact iff_of_true (fails_error.2 rfl) hpole
  all_goals exact iff_of_false (by simp [Error.kind]) hpole

lemma fails_domain_iff : Fails .domain (f.applyWith lib x) ↔
    f.Outside x ∨ (f.unguarded lib x).isNaN ∧ ¬ x.isNaN := by
  rw [applyWith_eq]
  split_ifs with hpole hdomain
  · -- The test for the pole hides nothing from the later ones.
    refine iff_of_false (by simp [Error.kind]) ?_
    rintro (houtside | ⟨hnan, -⟩)
    · exact hpole.not_outside houtside
    · exact hpole.not_isNaN hnan
  · exact iff_of_true (fails_error.2 rfl) hdomain
  all_goals exact iff_of_false (by simp [Error.kind]) hdomain

lemma fails_overflow_iff : Fails .overflow (f.applyWith lib x) ↔
    ¬ f.Pole lib x ∧ ¬ f.Outside x ∧ (f.unguarded lib x).isInf ∧ x.isFinite := by
  rw [applyWith_eq]
  split_ifs with hpole hdomain hoverflow
  · exact iff_of_false (by simp [Error.kind]) fun h => h.1 hpole
  · -- An infinite value inside of the domain is a number, so it passes the domain test.
    refine iff_of_false (by simp [Error.kind]) ?_
    rintro ⟨-, hinside, hinf, -⟩
    exact (hdomain.resolve_left hinside).elim fun hnan _ => not_isNaN_of_isInf hinf hnan
  · exact iff_of_true (fails_error.2 rfl) ⟨hpole, fun h => hdomain (.inl h), hoverflow⟩
  · exact iff_of_false (not_fails_ok _ _) fun h => hoverflow h.2.2

/-- What is not refused. -/
lemma applyWith_eq_ok_iff : f.applyWith lib x = .ok r ↔
    r = f.unguarded lib x ∧ ¬ f.Pole lib x ∧ ¬ f.Outside x ∧ (r.isNaN → x.isNaN) ∧
      (r.isInf → x.isInf ∨ x.isNaN) := by
  rw [applyWith_eq]
  split_ifs with hpole hdomain hoverflow
  · exact iff_of_false (by simp) fun h => h.2.1 hpole
  · refine iff_of_false (by simp) ?_
    rintro ⟨rfl, -, hinside, hnan, -⟩
    exact (hdomain.resolve_left hinside).elim fun h h' => h' (hnan h)
  · refine iff_of_false (by simp) ?_
    rintro ⟨rfl, -, -, -, hinf⟩
    have hfinite := isFinite_iff.1 hoverflow.2
    exact (hinf hoverflow.1).elim hfinite.2 hfinite.1
  · constructor
    · intro h
      cases h
      refine ⟨rfl, hpole, fun h => hdomain (.inl h), fun hnan => ?_, fun hinf => ?_⟩
      · by_contra h
        exact hdomain (.inr ⟨hnan, h⟩)
      · by_contra h
        exact hoverflow ⟨hinf, isFinite_iff.2 ⟨fun h' => h (.inr h'), fun h' => h (.inl h')⟩⟩
    · rintro ⟨rfl, -⟩
      rfl

/-- What is not a number is not refused, if its tangent is not a number either. -/
lemma exists_applyWith_of_isNaN (htan : (lib.tan x).isNaN) (hx : x.isNaN) :
    ∃ r, f.applyWith lib x = .ok r := by
  refine ⟨_, applyWith_eq_ok_iff.2 ⟨rfl, ?_, ?_, fun _ => hx, fun _ => .inr hx⟩⟩
  · exact fun hpole => not_beq_zero_of_isNaN htan hpole.2
  · rintro (⟨-, hlt⟩ | ⟨-, hle⟩)
    · exact not_lt_of_isNaN hx 0.0 hlt
    · exact not_le_of_isNaN hx 0.0 hle

/-- A finite argument has a finite value. -/
lemma isFinite_of_applyWith (h : f.applyWith lib x = .ok r) (hx : x.isFinite) : r.isFinite := by
  obtain ⟨-, -, -, hnan, hinf⟩ := applyWith_eq_ok_iff.1 h
  obtain ⟨hx, hx'⟩ := isFinite_iff.1 hx
  exact isFinite_iff.2 ⟨fun h => hx (hnan h), fun h => (hinf h).elim hx' hx⟩

end Elementary

/-! ### Calls of functions -/

open Parsing

section Calls

variable [FloatFunctions] {f : Elementary} {u v : Value}

/-- A function keeps values finite. -/
lemma finite_of_applyFunction (h : applyFunction f v = .ok u) (hv : v.IsFinite) : u.IsFinite := by
  rw [applyFunction] at h
  cases hx : v.asFloat with
  | error e =>
      rw [hx] at h
      cases h
  | ok x =>
      rw [hx] at h
      obtain ⟨r, hr, rfl⟩ := map_eq_ok_iff.1 h
      exact Elementary.isFinite_of_applyWith hr ((Value.isFinite_iff_isFinite hx).2 hv)

/-- Where a statement calls a function, the factor behind it is its argument, and a finite argument
has a finite value. -/
lemma finite_of_application {σ : Type} [TokenSource σ] {factor : Rule σ Value} {s next : Reader σ}
    (hs : s.current = .function f) (h : (application factor).run s = .done v next) :
    ∃ t w, s.advance = .done () t ∧ factor.run t = .done w next ∧ applyFunction f w = .ok v ∧
      (w.IsFinite → v.IsFinite) := by
  have hrun : readApplication factor s = .done v next := h
  rw [readApplication.eq_def, hs] at hrun
  obtain ⟨_, t, ht, hrun⟩ := Outcome.bind_eq_done_iff.1 hrun
  obtain ⟨w, _, hw, hrun⟩ := Outcome.bind_eq_done_iff.1 hrun
  obtain ⟨happly, rfl⟩ := Outcome.ofExcept_eq_done_iff.1 hrun
  exact ⟨t, w, ht, hw, happly, finite_of_applyFunction happly⟩

end Calls

/-- **The functions are guarded**: whatever the functions on doubles are, a function has a value
exactly if its argument is neither outside of its domain nor a zero of the tangent of which a
cotangent is asked, if the value is a number or the argument is none, and if the value is not
infinite or the argument is not finite. It fails with a division by zero exactly at a zero of the
tangent, with a domain error exactly for what is outside of the domain and for values that are not
numbers of arguments that are, and with an overflow exactly for other infinite values of finite
arguments. There are no other failures, and none for what is not a number as long as its tangent is
not one either. So no call of a function makes something infinite, or something that is not a
number, of a finite argument. -/
theorem Elementary.applyWith_guarded (lib : FloatFunctions) (f : Elementary) (x : Float) :
    (∀ r, f.applyWith lib x = .ok r ↔
        r = f.unguarded lib x ∧ ¬ f.Pole lib x ∧ ¬ f.Outside x ∧ (r.isNaN → x.isNaN) ∧
          (r.isInf → x.isInf ∨ x.isNaN)) ∧
      (Fails .zeroDivision (f.applyWith lib x) ↔ f.Pole lib x) ∧
      (Fails .domain (f.applyWith lib x) ↔
        f.Outside x ∨ (f.unguarded lib x).isNaN ∧ ¬ x.isNaN) ∧
      (Fails .overflow (f.applyWith lib x) ↔
        ¬ f.Pole lib x ∧ ¬ f.Outside x ∧ (f.unguarded lib x).isInf ∧ x.isFinite) ∧
      (∀ kind, Fails kind (f.applyWith lib x) → kind ∈ [.domain, .zeroDivision, .overflow]) ∧
      ((∀ y : Float, y.isNaN → (lib.tan y).isNaN) → x.isNaN → ∃ r, f.applyWith lib x = .ok r) ∧
      ∀ (σ : Type) [TokenSource σ] (factor : Rule σ Value) (s next : Reader σ) (v : Value),
        s.current = .function f → (application factor).run s = .done v next →
          ∃ t w, s.advance = .done () t ∧ factor.run t = .done w next ∧
            applyFunction f w = .ok v ∧ (w.IsFinite → v.IsFinite) := by
  refine ⟨fun r => applyWith_eq_ok_iff, fails_zeroDivision_iff, fails_domain_iff,
    fails_overflow_iff, ?_, fun htan hx => exists_applyWith_of_isNaN (htan x hx) hx,
    fun σ _ factor s next v => finite_of_application⟩
  rintro kind ⟨e, he, rfl⟩
  exact failsWithin_applyWith f lib x e he

end Reckon
