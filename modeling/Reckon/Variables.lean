import Reckon.Error
import Reckon.Value
import Std.Data.ExtTreeMap

/-!
The table of variables.

A table is a finite map from names to values, so two tables are equal
exactly if every name has the same value in both. Names are only ever
added or overwritten.

* `Variables.get?`: the view through which every operation is described;
* `Variables.set`, `Variables.contains`, `Variables.size` and
  `Variables.toList`, each with its law about `get?`;
* `Variables.get`: a look-up that refuses a name without value;
* `Variables.same`: equality of tables in which doubles are equal as
  numbers.
-/

namespace Reckon

/-- The variables and their values. -/
structure Variables where
  /-- The values in the order of their names. -/
  entries : Std.ExtTreeMap String Value

namespace Variables

/-- The table without variables. -/
def empty : Variables := ⟨∅⟩

/-- The value of a variable. -/
def get? (vars : Variables) (name : String) : Option Value := vars.entries[name]?

/-- The value of a variable, or the error that it was never assigned. -/
def get (vars : Variables) (name : String) : Except Error Value :=
  match vars.get? name with
  | some v => .ok v
  | none => .error (.undefined name)

/-- Gives a variable a value, whether or not it had one. -/
def set (vars : Variables) (name : String) (v : Value) : Variables :=
  ⟨vars.entries.insert name v⟩

/-- The variable has a value. -/
def contains (vars : Variables) (name : String) : Bool := vars.entries.contains name

/-- The number of variables. -/
def size (vars : Variables) : Nat := vars.entries.size

/-- No variable has a value. -/
def isEmpty (vars : Variables) : Bool := vars.entries.isEmpty

/-- The variables and their values, sorted by name. -/
def toList (vars : Variables) : List (String × Value) := vars.entries.toList

/-- The table in which each name has the value that the list gives it last. -/
def ofList (entries : List (String × Value)) : Variables :=
  entries.foldl (fun vars entry => vars.set entry.1 entry.2) empty

/-- The tables have the same names, and for each of them values that are equal,
doubles being compared as numbers. -/
def same (vars other : Variables) : Bool :=
  vars.size = other.size &&
    vars.toList.all fun (name, v) => (other.get? name).any v.same

/-! ### What the operations do to the view -/

/-- Tables in which every name has the same value are equal. -/
theorem ext {vars other : Variables} (h : ∀ name, vars.get? name = other.get? name) :
    vars = other := by
  cases vars
  cases other
  exact congrArg mk (Std.ExtTreeMap.ext_getElem? fun name => h name)

@[simp] theorem get?_empty (name : String) : empty.get? name = none := by
  simp [get?, empty]

theorem get?_set (vars : Variables) (name : String) (v : Value) (other : String) :
    (vars.set name v).get? other = if name = other then some v else vars.get? other := by
  simp [get?, set, Std.ExtTreeMap.getElem?_insert]

@[simp] theorem get?_set_self (vars : Variables) (name : String) (v : Value) :
    (vars.set name v).get? name = some v := by
  simp [get?_set]

theorem get?_set_of_ne {name other : String} (h : name ≠ other) (vars : Variables) (v : Value) :
    (vars.set name v).get? other = vars.get? other := by
  simp [get?_set, h]

/-- Values that give the same table are the same. -/
theorem set_inj {vars : Variables} {name : String} {v w : Value} :
    vars.set name v = vars.set name w ↔ v = w := by
  refine ⟨fun h => ?_, fun h => by rw [h]⟩
  have hvalue : (vars.set name v).get? name = (vars.set name w).get? name := by rw [h]
  simpa using hvalue

theorem contains_eq_isSome (vars : Variables) (name : String) :
    vars.contains name = (vars.get? name).isSome :=
  Std.ExtTreeMap.contains_eq_isSome_getElem?

/-- Setting a variable adds one to the number of variables unless it had a
value before. -/
theorem size_set (vars : Variables) (name : String) (v : Value) :
    (vars.set name v).size = if vars.contains name then vars.size else vars.size + 1 := by
  simp only [size, set, contains, Std.ExtTreeMap.size_insert, Std.ExtTreeMap.contains_iff_mem]

/-- A look-up succeeds exactly for the names that have a value. -/
theorem get_eq_ok_iff {vars : Variables} {name : String} {v : Value} :
    vars.get name = .ok v ↔ vars.get? name = some v := by
  cases h : vars.get? name <;> simp [get, h]

end Variables

end Reckon
