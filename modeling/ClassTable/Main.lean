import ClassTable.CommandLine.Program

/-!
The program: it reads the file that a command names, prints what the command comes to, and writes
reports and complaints to the standard error stream.
-/

open ClassTable ClassTable.CommandLine

def readContents (path : String) : IO (Except ReadFailure (List UInt8)) := do
  try
    return .ok (← IO.FS.readBinFile path).toList
  catch
    | .noFileOrDirectory .. => return .error .notFound
    | .inappropriateType .. => return .error .isDirectory
    | _ => return .error .other

def present (outcome : Outcome) : IO UInt32 := do
  for event in outcome.events do
    IO.eprint (event.level.mark ++ event.record)
  for line in outcome.output do
    IO.println line
  IO.eprint outcome.complaint
  return outcome.exitCode

def main (arguments : List String) : IO UInt32 := do
  match readArguments arguments with
  | .error stop => present stop.outcome
  | .ok invocation =>
    match invocation.command.input? with
    | none => present (invocation.run (.error .notFound))
    | some path => present (invocation.run (← readContents path))
