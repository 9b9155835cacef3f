/-
The program: checks a manifest file and prints what there is to report about it.
-/
import Interconnect.CommandLine

namespace Interconnect.Program

/-- The system's number for an attempt to read a directory. -/
def directoryCode : UInt32 := 21

/-- What stands at a path on disk. -/
def lookAt (path : String) : IO (Except ReadFault Entry) := do
  try
    return .ok (.file (← IO.FS.readBinFile path))
  catch e =>
    match e with
    | .inappropriateType _ code _ =>
      return if code = directoryCode then .ok .directory else .error .notADirectory
    | _ => return .error .notFound

/-- The view of the files that a run may ask for. -/
def look (paths : List String) : IO Files := do
  let seen ← paths.mapM fun path => do return (path, ← lookAt path)
  return fun path => ((seen.find? (·.1 = path)).map Prod.snd).getD (.error .notFound)

/-- No more is said of a text that is no document than that. -/
def words : Toml.Wording := fun _ => { message := "not a TOML document" }

def usage : String := "usage: interconnect [-c FILE] [--log-level LEVEL] MANIFEST"

end Interconnect.Program

open Interconnect in
def main (arguments : List String) : IO UInt32 := do
  let user := Settings.userPath? (← IO.getEnv "XDG_CONFIG_HOME") (← IO.getEnv "HOME")
  let asked := match CommandLine.parse arguments with
    | .ok request => request.input :: request.config.toList
    | .error _ => []
  let files ← Program.look (asked ++ Settings.localPath :: user.toList)
  let ending := CommandLine.execute Program.words files user arguments
  if ending.refusal.isSome then IO.eprintln Program.usage
  for line in ending.notice.toList ++ ending.reports.flatMap Report.lines do
    IO.eprintln line
  return ending.exit.toUInt32
