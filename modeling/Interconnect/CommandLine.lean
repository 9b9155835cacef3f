/-
The command line: a manifest, and options for the settings and the log. Options are given by short
or long names, with their value attached or as the next argument. Nothing that looks like an option
is taken as a value, and after two dashes nothing is an option.
-/
import Interconnect.Report

namespace Interconnect.CommandLine

/-- What is given on the command line. -/
structure Request where
  input : String
  config : Option String := none
  logLevel : String := "info"
  deriving DecidableEq, Repr

/-- Why there is no request. -/
inductive Refusal where
  | missingInput
  | unknownArgument
  | missingValue
  | unexpectedValue
  | repeated
  | help
  | version
  deriving DecidableEq, Repr

/-- The options that take a value. -/
inductive ValueOption where
  | config
  | logLevel
  deriving DecidableEq, Repr

/-- Everything that a dash or two can introduce. -/
inductive Switch where
  | value (o : ValueOption)
  | help
  | version
  deriving DecidableEq, Repr

def longSwitch? : List Char → Option Switch
  | ['c', 'o', 'n', 'f', 'i', 'g'] => some (.value .config)
  | ['l', 'o', 'g', '-', 'l', 'e', 'v', 'e', 'l'] => some (.value .logLevel)
  | ['h', 'e', 'l', 'p'] => some .help
  | ['v', 'e', 'r', 's', 'i', 'o', 'n'] => some .version
  | _ => none

def shortSwitch? : Char → Option Switch
  | 'c' => some (.value .config)
  | 'h' => some .help
  | 'V' => some .version
  | _ => none

/-! ## Arguments one by one -/

/-- What an argument looks like before it is known what it is for. -/
inductive Word where
  | escape
  /-- A long name, perhaps with a value behind an equals sign. -/
  | long (name : List Char) (value : Option String)
  /-- A short name with all that follows it. -/
  | short (name : Char) (rest : List Char)
  | plain (text : String)
  deriving DecidableEq, Repr

def Word.ofArgument (argument : String) : Word :=
  match argument.toList with
  | ['-', '-'] => .escape
  | '-' :: '-' :: rest =>
    match rest.dropWhile (· ≠ '=') with
    | [] => .long rest none
    | _ :: value => .long (rest.takeWhile (· ≠ '=')) (some (String.ofList value))
  | '-' :: c :: rest => .short c rest
  | _ => .plain argument

/-- What has been read so far. An option waits, with its value or for it, until something else that
is known comes. -/
structure State where
  input : Option String := none
  config : Option String := none
  logLevel : Option String := none
  waiting : Option (ValueOption × Option String) := none
  escaped : Bool := false
  deriving DecidableEq, Repr

namespace State

/-- Gives an option its value; each may have one. -/
def set (s : State) (o : ValueOption) (value : String) : Except Refusal State :=
  match o with
  | .config =>
    if s.config.isSome then .error .repeated else .ok { s with config := some value }
  | .logLevel =>
    if s.logLevel.isSome then .error .repeated else .ok { s with logLevel := some value }

/-- Ends the wait of an option. -/
def settle (s : State) : Except Refusal State :=
  match s.waiting with
  | none => .ok s
  | some (_, none) => .error .missingValue
  | some (o, some value) => ({ s with waiting := none } : State).set o value

/-- Takes an option with the value attached to it, if there is one. -/
def takeSwitch (s : State) (o : Switch) (attached : Option String) : Except Refusal State :=
  match o, attached with
  | .value o, some value => do (← s.settle).set o value
  | .value o, none => do pure { ← s.settle with waiting := some (o, none) }
  | .help, none => do let _ ← s.settle; .error .help
  | .version, none => do let _ ← s.settle; .error .version
  | _, some _ => .error .unexpectedValue

def takeInput (s : State) (text : String) : Except Refusal State :=
  if s.input.isSome then .error .unknownArgument
  else do pure { ← s.settle with input := some text }

/-- The value attached to a short option: what follows it, after an equals sign if there is one. -/
def attachedValue : List Char → Option String
  | [] => none
  | '=' :: rest => some (String.ofList rest)
  | rest => some (String.ofList rest)

/-- Takes a short option. What follows one without a value would be further options, but these end
the command line. -/
def takeShort (s : State) (name : Char) (rest : List Char) : Except Refusal State :=
  match shortSwitch? name with
  | none => .error .unknownArgument
  | some (.value o) => s.takeSwitch (.value o) (attachedValue rest)
  | some o => s.takeSwitch o none

def takePlain (s : State) (text : String) : Except Refusal State :=
  match s.waiting with
  | some (o, none) => .ok { s with waiting := some (o, some text) }
  | _ => s.takeInput text

def take (s : State) (argument : String) : Except Refusal State :=
  if s.escaped then s.takeInput argument
  else match Word.ofArgument argument with
    | .escape => .ok { s with escaped := true }
    | .long name value =>
      match longSwitch? name with
      | none => .error .unknownArgument
      | some o => s.takeSwitch o value
    | .short name rest => s.takeShort name rest
    | .plain text => s.takePlain text

end State

/-- The request that some arguments make. -/
def parse (arguments : List String) : Except Refusal Request := do
  let s ← arguments.foldlM State.take {}
  let s ← s.settle
  match s.input with
  | none => .error .missingInput
  | some input => pure { input, config := s.config, logLevel := s.logLevel.getD "info" }

/-! ## The whole program -/

/-- The log levels, each of which shows what those before it show. -/
def logLevels : List String := ["off", "error", "warn", "info", "debug", "trace"]

/-- The rank of a log level. Case does not matter. -/
def logRank? (level : String) : Option Nat :=
  logLevels.findIdx? (· = String.ofList (level.toList.map Char.toLower))

/-- What is said about a log level that does not exist. -/
def logNotice? (level : String) : Option String :=
  match logRank? level with
  | some _ => none
  | none => some ("Invalid log level: " ++ level ++ ". Using 'warn' instead.")

/-- How the program ends: with a refusal, or with what a run reports. -/
structure Ending where
  exit : Nat
  notice : Option String := none
  refusal : Option Refusal := none
  reports : List Report := []
  deriving DecidableEq, Repr

/-- Help and version are what was asked for; anything else that is refused is a usage error. -/
def Refusal.exit : Refusal → Nat
  | help => 0
  | version => 0
  | _ => 2

/-- Runs the program on its arguments. It succeeds exactly when the run passes. -/
def execute (words : Toml.Wording) (files : Files) (user : Option String) (arguments : List String) :
    Ending :=
  match parse arguments with
  | .error refusal => { exit := refusal.exit, refusal := some refusal }
  | .ok request =>
    let outcome := run files user request.config request.input
    { exit := match outcome with
        | .ok _ => 0
        | .error _ => 1
      notice := logNotice? request.logLevel
      reports := outcomeReports words outcome }

end Interconnect.CommandLine
