import Reckon.Error

/-!
Function values that are numbers.

A function is refused where its value is not a number, and where a finite
argument has an infinite value.

* `FloatFunctions`: the functions on doubles that the calculator is built
  on. All that is computed with them takes them as they are given, and only
  the program decides for `FloatFunctions.native`, those of the machine;
* `Elementary.raw`: the value before the last two tests, or the early
  refusal of an argument;
* `Elementary.applyWith` and `Elementary.apply`: the guarded value.
-/

namespace Reckon

/-- The functions on doubles that the elementary functions are computed with. -/
class FloatFunctions where
  sin : Float → Float
  cos : Float → Float
  tan : Float → Float
  sqrt : Float → Float
  exp2 : Float → Float
  log : Float → Float

/-- The functions of the machine. -/
@[reducible] def FloatFunctions.native : FloatFunctions where
  sin := Float.sin
  cos := Float.cos
  tan := Float.tan
  sqrt := Float.sqrt
  exp2 := Float.exp2
  log := Float.log

namespace Elementary

/-- The value of a function as it is computed. The square root of a negative
number, the logarithm of one that is not positive and the cotangent at a zero
of the tangent are not computed at all. -/
def raw (lib : FloatFunctions) (x : Float) : Elementary → Except Error Float
  | sin => .ok (lib.sin x)
  | cos => .ok (lib.cos x)
  | tan => .ok (lib.tan x)
  | ctg => if lib.tan x == 0.0 then .error (.cotangentPole x) else .ok (1.0 / lib.tan x)
  | sqrt => if x < 0.0 then .error (.outsideDomain sqrt x) else .ok (lib.sqrt x)
  | pow => .ok (lib.exp2 x)
  | log => if x ≤ 0.0 then .error (.outsideDomain log x) else .ok (lib.log x)

/-- The value of a function. It is a number if the argument is, and finite if
the argument is. -/
def applyWith (lib : FloatFunctions) (f : Elementary) (x : Float) : Except Error Float :=
  match f.raw lib x with
  | .error e => .error e
  | .ok y =>
      if y.isNaN ∧ ¬ x.isNaN then .error (.outsideDomain f x)
      else if y.isInf ∧ x.isFinite then .error (.functionOverflow f x)
      else .ok y

/-- The value of a function, computed with the functions on doubles that are given. -/
def apply [lib : FloatFunctions] (f : Elementary) (x : Float) : Except Error Float :=
  f.applyWith lib x

end Elementary

end Reckon
