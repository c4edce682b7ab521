/-!
The tokens of a YAML text. Indentation and the nesting of flow collections have become tokens of
their own. Anchors and aliases carry a label.
-/

namespace ClassTable.Yaml

inductive Style where
  | plain
  | literal
  | other
  deriving DecidableEq, Repr

/-- The text of a tag, or of a part of one: bytes, which need not encode characters. -/
abbrev TagText := List UInt8

def TagText.ofChars (chars : List Char) : TagText :=
  (String.ofList chars).toUTF8.toList

inductive Token (Label : Type) where
  | version (major minor : Nat)
  | tagHandle (handle : String) (tagPrefix : TagText)
  | documentStart
  | documentEnd
  | blockSequenceStart
  | blockMappingStart
  | blockEnd
  | flowSequenceStart
  | flowSequenceEnd
  | flowMappingStart
  | flowMappingEnd
  | blockEntry
  | flowEntry
  | key
  | value
  | alias (label : Label)
  | anchor (label : Label)
  | tag (handle : String) (suffix : TagText)
  | scalar (text : String) (style : Style)
  deriving DecidableEq, Repr

def Token.relabel {Label Other : Type} (change : Label → Other) : Token Label → Token Other
  | .version major minor => .version major minor
  | .tagHandle handle tagPrefix => .tagHandle handle tagPrefix
  | .documentStart => .documentStart
  | .documentEnd => .documentEnd
  | .blockSequenceStart => .blockSequenceStart
  | .blockMappingStart => .blockMappingStart
  | .blockEnd => .blockEnd
  | .flowSequenceStart => .flowSequenceStart
  | .flowSequenceEnd => .flowSequenceEnd
  | .flowMappingStart => .flowMappingStart
  | .flowMappingEnd => .flowMappingEnd
  | .blockEntry => .blockEntry
  | .flowEntry => .flowEntry
  | .key => .key
  | .value => .value
  | .alias label => .alias (change label)
  | .anchor label => .anchor (change label)
  | .tag handle suffix => .tag handle suffix
  | .scalar text style => .scalar text style

end ClassTable.Yaml
