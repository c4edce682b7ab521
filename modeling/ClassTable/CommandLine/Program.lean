import ClassTable.CommandLine.Help
import ClassTable.Layout
import ClassTable.Report

/-!
The program as a function: from its arguments and the files that it may read to what it prints, what
it reports and how it ends.
-/

namespace ClassTable

def version : String := "0.1.0"

namespace CommandLine

structure Outcome where
  exitCode : UInt32
  output : List String := []
  events : List LogEvent := []
  complaint : String := ""

def shownLevel : Nat → LogLevel
  | 0 => .warn
  | 1 => .info
  | 2 => .debug
  | _ => .trace

def Command.run (command : Command) (contents : Except ReadFailure (List UInt8)) :
    Logged Failure (List String) :=
  match command with
  | .info => (.ok ["classdef v" ++ version], [])
  | .show input json =>
    match reportFile input contents with
    | .error failure => (.error failure, [])
    | .ok (report, events) =>
      (.ok (if json then [report.toJson.pretty] else report.lines), events)
  | .layout input base json =>
    let (result, events) := layOutFile input contents base
    (result.map fun rows =>
      if json then [(Json.ofList TableRow.toJson rows).pretty] else TableRow.lines rows, events)

def Invocation.run (invocation : Invocation) (contents : Except ReadFailure (List UInt8)) :
    Outcome :=
  let (result, events) := invocation.command.run contents
  let shown := events.filter fun event => event.level.shownAt (shownLevel invocation.verbosity)
  match result with
  | .ok output => { exitCode := 0, output, events := shown }
  | .error failure =>
    { exitCode := 1, events := shown, complaint := failure.complaint }

def Stop.outcome : Stop → Outcome
  | .refused error => { exitCode := 2, complaint := error.complaint }
  | .help level => { exitCode := 0, output := level.helpLines }
  | .version => { exitCode := 0, output := ["classdef " ++ ClassTable.version] }

def run (arguments : List String) (files : String → Except ReadFailure (List UInt8)) : Outcome :=
  match readArguments arguments with
  | .error stop => stop.outcome
  | .ok invocation => invocation.run (files (invocation.command.input?.getD ""))

end CommandLine

end ClassTable
