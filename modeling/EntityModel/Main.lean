import EntityModel.CommandLine

/-!
# The program

Finds files, carries the command out and prints its report.
-/

namespace EntityModel

/-- The code of a way that leads through a file that is no directory, in either of its signs. -/
def leadsThroughFile (code : UInt32) : Bool := code == 20 || code == 0 - 20

/-- What the file system holds at a path. A way through a file that is no directory leads to
nothing. -/
def lookUp (path : String) : IO FileState := do
  try return .content (← IO.FS.readBinFile path)
  catch
    | .noFileOrDirectory .. => return .absent
    | .inappropriateType path code details =>
      if leadsThroughFile code then return .absent
      else return .unreadable (toString (IO.Error.inappropriateType path code details))
    | err => return .unreadable (toString err)

end EntityModel

open EntityModel in
def main (arguments : List String) : IO UInt32 := do
  match CommandLine.Command.ofArguments? arguments with
  | none =>
    IO.eprintln CommandLine.usage
    return 2
  | some (config, command) =>
    let named ← IO.getEnv Settings.variableName
    let report ← CommandLine.run lookUp named config command
    IO.print report.output
    IO.eprint report.errors
    return report.exitCode.toUInt32
