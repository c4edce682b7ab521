import ClassTable.CommandLine.Arguments

/-!
The help texts of the program.
-/

namespace ClassTable.CommandLine

def Verb.summary : Verb → String
  | .info => "Print the library version"
  | .show => "Canonicalize a single class description and print its shape"
  | .layout =>
    "Assign class definition indices and annotation directory offsets for a file of classes"
  | .help => "Print this message or the help of the given subcommand(s)"

def Switch.summary : Switch → String
  | .input => "Path to a class description (YAML, or JSON with a `.json` extension)"
  | .annotationBase =>
    "First offset available for annotation directories (decimal or 0x-hex, non-zero)"
  | .json => "Emit JSON instead of human-readable text"
  | .verbose => "Increase log verbosity (-v info, -vv debug, -vvv trace)"
  | .help => "Print help"
  | .version => "Print version"

def Switch.helpLine (switch : Switch) : String :=
  let letter :=
    match switch.short? with
    | none => "    "
    | some letter => String.ofList ['-', letter, ',', ' ']
  "  " ++ letter ++ switch.render ++ "  " ++ switch.summary

def Verb.helpLine (verb : Verb) : String :=
  "  " ++ verb.name ++ "  " ++ verb.summary

def Level.helpLines (level : Level) : List String :=
  let options := "Options:" :: level.switches.map Switch.helpLine
  match level with
  | .top =>
    ["Inspect classes in their canonical container form", "",
      "Usage: classdef [OPTIONS] [COMMAND]", "", "Commands:"] ++
    Verb.all.map Verb.helpLine ++ "" :: options
  | .behind verb =>
    [verb.summary, "", "Usage: classdef " ++ verb.name ++ " [OPTIONS]", ""] ++ options

end ClassTable.CommandLine
