/-
Files as they are seen by path: what stands at a path, whether anything does, and the text of a
file. A tree of files gives such a view of itself.
-/

namespace Interconnect

inductive Entry where
  | file (bytes : ByteArray)
  | directory

/-- Why a file cannot be read as text. -/
inductive ReadFault where
  | notFound
  | isADirectory
  | notADirectory
  | invalidText
  deriving DecidableEq, Repr

def ReadFault.message : ReadFault → String
  | notFound => "No such file or directory (os error 2)"
  | isADirectory => "Is a directory (os error 21)"
  | notADirectory => "Not a directory (os error 20)"
  | invalidText => "stream did not contain valid UTF-8"

/-- What stands at each path. -/
abbrev Files := String → Except ReadFault Entry

namespace Files

/-- Whether a path leads anywhere. -/
def has (files : Files) (path : String) : Bool :=
  match files path with
  | .ok _ => true
  | .error _ => false

/-- The text of a file. -/
def readText (files : Files) (path : String) : Except ReadFault String :=
  match files path with
  | .error fault => .error fault
  | .ok .directory => .error .isADirectory
  | .ok (.file bytes) =>
    match String.fromUTF8? bytes with
    | some text => .ok text
    | none => .error .invalidText

theorem has_of_readText {files : Files} {path text : String} (h : files.readText path = .ok text) :
    files.has path = true := by
  unfold has
  cases hp : files path with
  | ok _ => rfl
  | error _ => simp [readText, hp] at h

end Files

/-! ## Trees -/

/-- Files and directories by their path from a root. Directories on the way to an entry are there
without being listed. -/
structure FileTree where
  entries : List (List String × Entry) := []

namespace FileTree

/-- What stands at a path without dots. -/
def at? (t : FileTree) (path : List String) : Option Entry :=
  match t.entries.find? (·.1 = path) with
  | some (_, entry) => some entry
  | none =>
    if path.isEmpty || t.entries.any (path.isPrefixOf ·.1) then some .directory else none

/-- Whether a step leads nowhere else. -/
def isIdle (step : String) : Bool := step = "" || step = "."

/-- What stands at a path that has left the tree: directories, as far as it goes further up, and
nothing else. -/
def outside (path : List String) : Except ReadFault Entry :=
  if path.all fun step => isIdle step || step = ".." then .ok .directory else .error .notFound

/-- Follows the steps of a path from a directory or file. Every step has to start from a directory. -/
def follow (t : FileTree) (here : List String) : List String → Except ReadFault Entry
  | [] =>
    match t.at? here with
    | some entry => .ok entry
    | none => .error .notFound
  | step :: rest =>
    match t.at? here with
    | none => .error .notFound
    | some (.file _) => .error .notADirectory
    | some .directory =>
      if isIdle step then t.follow here rest
      else if step = ".." then
        if here.isEmpty then outside rest else t.follow here.dropLast rest
      else t.follow (here ++ [step]) rest

/-- The text of a path, cut at its slashes. -/
def steps (path : String) : List String := (path.toList.splitOn '/').map String.ofList

/-- A tree of files and directories that are given by their paths from the root. -/
def ofPaths (entries : List (String × Entry)) : FileTree :=
  ⟨entries.map fun (path, entry) => ((steps path).filter (!isIdle ·), entry)⟩

/-- The view of the tree from its root. -/
def files (t : FileTree) : Files := fun path =>
  match path.toList with
  | [] => .error .notFound
  | '/' :: _ => outside (steps path)
  | _ => t.follow [] (steps path)

end FileTree

end Interconnect
