/-
Runs: a manifest is read and checked under the settings that are found for it, and the outcome is
either its warnings or one failure.
-/
import Interconnect.Files
import Interconnect.Manifest.Load
import Interconnect.Settings

namespace Interconnect

/-- Why a manifest does not pass. -/
inductive Failure where
  | unreadable (fault : ReadFault)
  | missingSettings (path : String)
  | badSettings (path : String) (fault : Settings.Fault)
  | manifest (failure : Manifest.LoadFailure)
  | check (ds : List Diagnostic)
  deriving DecidableEq, Repr

def Settings.Fault.message (words : Toml.Wording) : Settings.Fault → String
  | .notToml text => (words text).message
  | .misfit m => m.cause.message

namespace Failure

variable (words : Toml.Wording)

/-- The diagnostics that a failure carries; none if it is not about what a manifest says. -/
def diagnostics? : Failure → Option (List Diagnostic)
  | manifest failure => some (failure.diagnostics words)
  | check ds => some ds
  | _ => none

def message : Failure → String
  | unreadable fault => "I/O error: " ++ fault.message
  | missingSettings path => "I/O error: Missing configuration file: " ++ path
  | badSettings path fault =>
    "I/O error: Failed to parse TOML configuration " ++ path ++ ": " ++ fault.message words
  | manifest failure => Diagnostic.summary (failure.diagnostics words)
  | check ds => Diagnostic.summary ds

end Failure

/-! ## Manifests -/

/-- The warnings about the model that a text describes. -/
def verify (levels : Levels) (text : String) : Except Failure (List Diagnostic) :=
  match Manifest.load text with
  | .error failure => .error (.manifest failure)
  | .ok m =>
    match m.check levels with
    | .error ds => .error (.check ds)
    | .ok warnings => .ok warnings

def verifyFile (files : Files) (levels : Levels) (path : String) :
    Except Failure (List Diagnostic) :=
  match files.readText path with
  | .error fault => .error (.unreadable fault)
  | .ok text => verify levels text

/-! ## Settings -/

namespace Settings

/-- Where settings are looked for, beside the manifest's directory. -/
def localPath : String := "arcwire/config.toml"

/-- The user's own settings: in the directory for settings, if that is a full path, or else below the
home directory. -/
def userPath? (directory home : Option String) : Option String :=
  let isFull := fun (path : String) => path.toList.head? = some '/'
  ((directory.filter isFull).or (home.map (· ++ "/.config"))).map (· ++ "/" ++ localPath)

/-- The settings in a file. -/
def readFile (files : Files) (path : String) : Except Failure Levels :=
  if !files.has path then .error (.missingSettings path)
  else
    match files.readText path with
    | .error fault => .error (.unreadable fault)
    | .ok text =>
      match read text with
      | .error fault => .error (.badSettings path fault)
      | .ok levels => .ok levels

/-- The file that settings are taken from: the given one, else the first that is there of the local
one and the user's own. -/
def select (files : Files) (given user : Option String) : Option String :=
  match given with
  | some path => some path
  | none => ((some localPath).filter files.has).or (user.filter files.has)

/-- The settings for a run. Without any file nothing is set. -/
def find (files : Files) (given user : Option String) : Except Failure Levels :=
  match select files given user with
  | some path => readFile files path
  | none => .ok {}

end Settings

/-! ## Runs -/

/-- A manifest that passed: its text and the warnings about it. -/
structure Passed where
  text : String
  warnings : List Diagnostic
  deriving DecidableEq, Repr

/-- Checks a manifest. Settings come first: they fail even if there is nothing to check. -/
def run (files : Files) (user : Option String) (given : Option String) (input : String) :
    Except Failure Passed :=
  match Settings.find files given user with
  | .error failure => .error failure
  | .ok levels =>
    match files.readText input with
    | .error fault => .error (.unreadable fault)
    | .ok text =>
      match verify levels text with
      | .error failure => .error failure
      | .ok warnings => .ok ⟨text, warnings⟩

end Interconnect
