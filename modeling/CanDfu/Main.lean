/-
  CanDfu.Main

  The program at a terminal of a machine without USB: every adapter is missing, so a run ends at
  the latest when the bus is opened.
-/
import CanDfu.Cli.Run
import CanDfu.Usb.Simulated

namespace CanDfu.Cli

/-- What is at a path of the machine. -/
def lookAt (path : String) : IO FileNode := do
  try
    let content ← IO.FS.readBinFile path
    return .file content.toList
  catch
    | .noFileOrDirectory .. => return .missing
    | .inappropriateType .. => return .directory
    | _ => return .notDirectory

/-- Whether a record is shown: everything from `INFO` on, and `DEBUG` on demand. -/
def isShown (verbose : Bool) (r : Record) : Bool :=
  match r.level with
  | .trace => false
  | .debug => verbose
  | _ => true

end CanDfu.Cli

open CanDfu CanDfu.Cli in
/-- Runs the program on the arguments it was given. -/
def main (argv : List String) : IO UInt32 := do
  match Args.parse argv with
  | .error e =>
    IO.eprintln s!"error: {e.label}"
    return e.exitStatus.toUInt32
  | .ok a =>
    let paths := [a.config, a.bin].filterMap id
    let nodes ← paths.mapM lookAt
    let found := paths.zip nodes
    let files : Files := fun path => (found.lookup path).getD .missing
    let ended := program Usb.SimulatedHost.host files a 1000000 {}
    for line in ended.lines do
      IO.print line.printed
      match line.record? with
      | some r => if isShown a.verbose r then IO.eprintln s!"{r.level.label} {r.line}"
      | none => pure ()
    return ended.status.toUInt32
