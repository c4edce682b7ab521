import ClassTable.Numeral
import ClassTable.Text.Blank

/-!
Access flags of classes, fields and methods: one word in which each modifier is a bit. Some bits
carry two modifiers, one for fields and one for methods. A list of keywords stands for the union of
the bits that the keywords name.
-/

namespace ClassTable

structure AccessFlags where
  bits : UInt32
  deriving DecidableEq, Repr

namespace AccessFlags

def none : AccessFlags := ⟨0⟩
def publicBit : AccessFlags := ⟨0x1⟩
def privateBit : AccessFlags := ⟨0x2⟩
def protectedBit : AccessFlags := ⟨0x4⟩
def staticBit : AccessFlags := ⟨0x8⟩
def finalBit : AccessFlags := ⟨0x10⟩
def synchronizedBit : AccessFlags := ⟨0x20⟩
def volatileBit : AccessFlags := ⟨0x40⟩
def bridgeBit : AccessFlags := ⟨0x40⟩
def transientBit : AccessFlags := ⟨0x80⟩
def varargsBit : AccessFlags := ⟨0x80⟩
def nativeBit : AccessFlags := ⟨0x100⟩
def interfaceBit : AccessFlags := ⟨0x200⟩
def abstractBit : AccessFlags := ⟨0x400⟩
def strictBit : AccessFlags := ⟨0x800⟩
def syntheticBit : AccessFlags := ⟨0x1000⟩
def annotationBit : AccessFlags := ⟨0x2000⟩
def enumBit : AccessFlags := ⟨0x4000⟩
def constructorBit : AccessFlags := ⟨0x10000⟩
def declaredSynchronizedBit : AccessFlags := ⟨0x20000⟩

def keywords : List (String × AccessFlags) :=
  [("public", publicBit), ("private", privateBit), ("protected", protectedBit),
    ("static", staticBit), ("final", finalBit), ("synchronized", synchronizedBit),
    ("volatile", volatileBit), ("bridge", bridgeBit), ("transient", transientBit),
    ("varargs", varargsBit), ("native", nativeBit), ("interface", interfaceBit),
    ("abstract", abstractBit), ("strict", strictBit), ("synthetic", syntheticBit),
    ("annotation", annotationBit), ("enum", enumBit), ("constructor", constructorBit),
    ("declared-synchronized", declaredSynchronizedBit)]

def union (left right : AccessFlags) : AccessFlags :=
  ⟨left.bits ||| right.bits⟩

def contains (flags other : AccessFlags) : Bool :=
  flags.bits &&& other.bits == other.bits

def intersects (flags other : AccessFlags) : Bool :=
  flags.bits &&& other.bits != 0

def render (flags : AccessFlags) : String :=
  Numeral.hexadecimal flags.bits.toNat

structure UnknownKeyword where
  keyword : String
  deriving DecidableEq, Repr

def UnknownKeyword.message (refusal : UnknownKeyword) : String :=
  "Unknown access flag keyword '" ++ refusal.keyword ++ "'"

/-- The modifier that a keyword names, whatever white space surrounds it and in whichever case its
ASCII letters are. -/
def named? (keyword : String) : Option AccessFlags :=
  keywords.lookup (String.ofList ((Text.trimList keyword.toList).map Char.toLower))

def ofKeyword (keyword : String) : Except UnknownKeyword AccessFlags :=
  match named? keyword with
  | some flag => .ok flag
  | Option.none => .error ⟨keyword⟩

/-- The union of the modifiers that the keywords name; the first unknown keyword is refused. -/
def ofKeywords (keywords : List String) : Except UnknownKeyword AccessFlags :=
  keywords.foldlM (fun flags keyword => flags.union <$> ofKeyword keyword) none

end AccessFlags

end ClassTable
