import Reckon.Statement

/-!
Calls on a table that several threads share.

* `Call`: to evaluate a statement, or to take a copy of the table;
* `Call.perform`: the reply to a call and the table after it;
* `performAll`: calls one after another.
-/

namespace Reckon

/-- A call on a shared table. -/
inductive Call where
  | evaluate (text : String)
  /-- Asks for a copy of the table. -/
  | snapshot
deriving DecidableEq

/-- What a call returns. -/
inductive Reply where
  | result (r : Except Error (Option Value))
  | table (vars : Variables)

variable [FloatFunctions]

/-- The reply to a call and the table after it. -/
def Call.perform : Call → Variables → Reply × Variables
  | evaluate text, vars =>
      let (result, after) := Reckon.evaluate text vars
      (.result result, after)
  | snapshot, vars => (.table vars, vars)

/-- The replies to calls that are made one after another, and the table after
them. -/
def performAll : List Call → Variables → List Reply × Variables
  | [], vars => ([], vars)
  | call :: rest, vars =>
      let (reply, after) := call.perform vars
      let (replies, final) := performAll rest after
      (reply :: replies, final)

end Reckon
