/-!
The functions that a statement can call, and their names.

* `Elementary`: the seven functions;
* `Elementary.ofName?`: looks a function up by its name in lower case or
  in upper case; no other spelling is a name.
-/

namespace Reckon

/-- The functions of one argument. -/
inductive Elementary where
  /-- Sine, in radians. -/
  | sin
  /-- Cosine, in radians. -/
  | cos
  /-- Tangent, in radians. -/
  | tan
  /-- Cotangent, the reciprocal of the tangent. -/
  | ctg
  /-- Square root. -/
  | sqrt
  /-- The power of two with this exponent. -/
  | pow
  /-- Natural logarithm. -/
  | log
deriving DecidableEq, Repr

namespace Elementary

/-- Every function once. -/
def all : List Elementary := [sin, cos, tan, ctg, sqrt, pow, log]

/-- The name in lower case, the one that messages use. -/
def name : Elementary → String
  | sin => "sin"
  | cos => "cos"
  | tan => "tan"
  | ctg => "ctg"
  | sqrt => "sqrt"
  | pow => "pow"
  | log => "log"

/-- The name in upper case. -/
def upperName : Elementary → String
  | sin => "SIN"
  | cos => "COS"
  | tan => "TAN"
  | ctg => "CTG"
  | sqrt => "SQRT"
  | pow => "POW"
  | log => "LOG"

/-- The function with this name. -/
def ofName? (word : String) : Option Elementary :=
  all.find? fun f => word = f.name || word = f.upperName

/-- Every spelling of a name with the function it stands for. -/
def spellings : List (String × Elementary) :=
  all.flatMap fun f => [(f.name, f), (f.upperName, f)]

/-- Every function is in the list. -/
theorem mem_all (f : Elementary) : f ∈ all := by cases f <;> decide

/-- A word names a function exactly if it is one of its two spellings. -/
theorem ofName?_eq_some_iff {word : String} {f : Elementary} :
    ofName? word = some f ↔ word = f.name ∨ word = f.upperName := by
  constructor
  · intro h
    simpa using List.find?_some h
  · rintro (rfl | rfl) <;> cases f <;> decide

end Elementary

end Reckon
