import Reckon.Session

/-!
The command line.

    --eval STATEMENT, -e STATEMENT   evaluates a statement, may be repeated
    --prompt TEXT                    the prompt of an interactive session
    --version, -V                    shows the version
    --help, -h                       shows the options

Without statements to evaluate, the session is read from standard input.
The arguments are read from left to right, and the first one that is wrong
or that asks for the version or for help decides.

* `Argument.ofText`: what one argument is;
* `Command.ofArguments`: what the command line asks for;
* `Command.run`: what the program then writes, and its exit code; only behind it
  is it decided that the functions on doubles are those of the machine.
-/

namespace Reckon

/-- What is wrong with a command line. -/
inductive UsageError where
  /-- The argument is no option, or the option does not exist. -/
  | unexpected (argument : String)
  | valueMissing (option : String)
  | valueUnexpected (option : String)
  | repeated (option : String)
deriving DecidableEq, Repr

/-- What is said about a wrong command line. -/
def UsageError.message : UsageError → String
  | unexpected argument => s!"unexpected argument '{argument}'"
  | valueMissing option => s!"a value is required for '{option}'"
  | valueUnexpected option => s!"no value is allowed for '{option}'"
  | repeated option => s!"'{option}' cannot be used more than once"

/-- What the program does. -/
inductive Command where
  | version
  | help
  /-- Evaluates statements that share a table. -/
  | evaluate (statements : List String)
  /-- Holds a session on standard input. -/
  | converse
deriving DecidableEq, Repr

/-- The options that have a value. -/
inductive ValuedOption where
  | statement
  | prompt
deriving DecidableEq, Repr

/-- The long form of an option. -/
def ValuedOption.name : ValuedOption → String
  | statement => "--eval"
  | prompt => "--prompt"

/-- An argument of the command line. -/
inductive Argument where
  /-- What follows are no options. -/
  | endOfOptions
  /-- An option with a value, which is the next argument if it is not attached. -/
  | valued (option : ValuedOption) (attached : Option String)
  /-- An option that decides at once what is done. -/
  | command (c : Command)
  | wrong (e : UsageError)
deriving DecidableEq, Repr

namespace Argument

/-- An option with a long name, and with the value after the first equals sign. -/
def ofLong (text : String) (rest : List Char) : Argument :=
  let name := String.ofList (rest.takeWhile (· ≠ '='))
  let attached := match rest.dropWhile (· ≠ '=') with
    | [] => none
    | _ :: value => some (String.ofList value)
  match name, attached with
  | "eval", _ => valued .statement attached
  | "prompt", _ => valued .prompt attached
  | "version", none => command .version
  | "help", none => command .help
  | "version", some _ => wrong (.valueUnexpected "--version")
  | "help", some _ => wrong (.valueUnexpected "--help")
  | _, _ => wrong (.unexpected text)

/-- An option with a short name. What follows the name is the value, without an
equals sign in front of it. -/
def ofShort (text : String) (name : Char) (rest : List Char) : Argument :=
  match name with
  | 'e' =>
      match rest with
      | [] => valued .statement none
      | '=' :: value => valued .statement (some (String.ofList value))
      | value => valued .statement (some (String.ofList value))
  | 'V' => command .version
  | 'h' => command .help
  | _ => wrong (.unexpected text)

/-- What an argument is that is not the value of the option before it. -/
def ofText (text : String) : Argument :=
  match text.toList with
  | ['-', '-'] => endOfOptions
  | '-' :: '-' :: rest => ofLong text rest
  | '-' :: name :: rest => ofShort text name rest
  | _ => wrong (.unexpected text)

/-- The argument can be the value of the option before it: it does not look like
an option. -/
def isValue (text : String) : Bool :=
  text = "-" || text.toList.head? ≠ some '-'

end Argument

/-- The options that were read so far. -/
structure Settings where
  statements : List String
  prompt : Option String
deriving DecidableEq, Repr

/-- Sets an option. The prompt can be set only once. -/
def Settings.add (s : Settings) (option : ValuedOption) (value : String) :
    Except UsageError Settings :=
  match option with
  | .statement => .ok { s with statements := s.statements ++ [value] }
  | .prompt =>
      if s.prompt.isSome then .error (.repeated option.name)
      else .ok { s with prompt := some value }

/-- What the settings ask for. -/
def Settings.command (s : Settings) : Command :=
  if s.statements.isEmpty then .converse else .evaluate s.statements

namespace Command

/-- Reads the arguments that follow on these settings. -/
def ofArgumentsFrom (s : Settings) : List String → Except UsageError Command
  | [] => .ok s.command
  | text :: rest =>
      match Argument.ofText text with
      | .endOfOptions =>
          match rest with
          | [] => .ok s.command
          | argument :: _ => .error (.unexpected argument)
      | .command c => .ok c
      | .wrong e => .error e
      | .valued option (some value) => do ofArgumentsFrom (← s.add option value) rest
      | .valued option none =>
          match rest with
          | [] => .error (.valueMissing option.name)
          | value :: rest =>
              if Argument.isValue value then do ofArgumentsFrom (← s.add option value) rest
              else .error (.valueMissing option.name)

/-- What the command line asks for. -/
def ofArguments (arguments : List String) : Except UsageError Command :=
  ofArgumentsFrom ⟨[], none⟩ arguments

/-- The name of the program and its version. -/
def versionText : String := "rafmat 0.1.0\n"

/-- The options of the program. -/
def helpText : String :=
  "A line-oriented calculator, with variables, comparisons and a few math functions.\n\n" ++
  "Options:\n" ++
  "      --prompt <PROMPT>   Prompt of an interactive session\n" ++
  "  -e, --eval <STATEMENT>  Evaluate this statement and exit; can be repeated\n" ++
  "  -h, --help              Print the options\n" ++
  "  -V, --version           Print the version\n"

end Command

/-- What the program writes, and its exit code. -/
structure Run where
  exit : Nat
  output : String
  errors : String
deriving DecidableEq, Repr

/-- A run that shows these lines. -/
def Run.ofLines (exit : Nat) (shown : List Line) : Run :=
  ⟨exit, Line.output shown, Line.errors shown⟩

/-- What the program does with this text as its standard input. Statements on the
command line decide the exit code, those of a session do not. -/
def Command.run [FloatFunctions] (input : String) : Command → Run
  | version => ⟨0, versionText, ""⟩
  | help => ⟨0, helpText, ""⟩
  | evaluate statements =>
      let shown := (runStatements statements .empty).1
      Run.ofLines (if shown.any Line.isFailure then 1 else 0) shown
  | converse => Run.ofLines 0 (Reckon.converse (lines input.toList) .empty).1

/-- The exit code for a wrong command line. -/
def usageExit : Nat := 2

/-- The program computes with the functions of the machine. -/
instance : FloatFunctions := .native

end Reckon
