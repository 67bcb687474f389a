import ClassThaw.Bytes

namespace ClassThaw

/-- The attributes whose content is understood. All others are carried as raw bytes. -/
inductive AttributeKind where
  | constantValue
  | code
  | visibleAnnotations
  | invisibleAnnotations
  deriving DecidableEq, Repr

def AttributeKind.name : AttributeKind → String
  | .constantValue => "ConstantValue"
  | .code => "Code"
  | .visibleAnnotations => "RuntimeVisibleAnnotations"
  | .invisibleAnnotations => "RuntimeInvisibleAnnotations"

def AttributeKind.all : List AttributeKind :=
  [.constantValue, .code, .visibleAnnotations, .invisibleAnnotations]

def AttributeKind.ofName? (name : String) : Option AttributeKind :=
  AttributeKind.all.find? (·.name == name)

/-- What a pool index was expected to lead to. -/
inductive Expectation where
  | utf8
  | «class»
  | nameAndType
  | memberReference
  | constantValue
  | methodHandleTarget
  | elementConstant
  -- A constant of two slots whose second slot is still inside the pool.
  | twoSlotConstant
  deriving DecidableEq, Repr

def Expectation.text : Expectation → String
  | .utf8 => "Utf8"
  | .class => "Class"
  | .nameAndType => "NameAndType"
  | .memberReference => "member reference"
  | .constantValue => "constant value"
  | .methodHandleTarget => "method handle target"
  | .elementConstant => "element constant"
  | .twoSlotConstant => "two-slot constant within the pool"

/-- The counts and lengths that a class file holds in two or four bytes. -/
inductive Quantity where
  | constantPool
  | utf8Length
  | interface
  | field
  | method
  | attribute
  | attributeLength
  | codeLength
  | exceptionHandler
  | annotations
  | annotationElement
  | arrayElement
  deriving DecidableEq, Repr

def Quantity.text : Quantity → String
  | .constantPool => "constant pool"
  | .utf8Length => "Utf8 length"
  | .interface => "interface"
  | .field => "field"
  | .method => "method"
  | .attribute => "attribute"
  | .attributeLength => "attribute length"
  | .codeLength => "code length"
  | .exceptionHandler => "exception handler"
  | .annotations => "annotation"
  | .annotationElement => "annotation element"
  | .arrayElement => "array element"

/-- The deepest annotation or element value that is read. A top-level annotation has depth 0, and
every element value and every nested annotation lies one deeper than what holds it. -/
def maxAnnotationDepth : Nat := 64

/-- A structural fault of a class file. -/
inductive FormatError where
  | badMagic (found : UInt32)
  | unsupportedVersion (major minor : UInt16)
  -- The data ends `needed` bytes before the end of the item that starts at `offset`.
  | unexpectedEnd (offset needed : Nat)
  | unknownConstantTag (tag : UInt8) (index : UInt16)
  | badConstantIndex (index : UInt16) (expected : Expectation)
  -- An attribute's content is shorter than its declared length.
  | attributeLength (kind : AttributeKind) (declared consumed : Nat)
  | attributeNameMismatch (kind : AttributeKind)
  | unknownElementTag (tag : UInt8)
  | annotationTooDeep
  | trailingBytes (count : Nat)
  | limitExceeded (what : Quantity) (count : Nat)
  deriving DecidableEq, Repr

/-- The lower-case hexadecimal digits of a number, padded with zeros to a width. -/
def hexadecimal (width value : Nat) : String :=
  let digits := Nat.toDigits 16 value
  String.ofList (List.replicate (width - digits.length) '0' ++ digits)

def FormatError.message : FormatError → String
  | .badMagic found => s!"bad magic 0x{hexadecimal 8 found.toNat}"
  | .unsupportedVersion major minor => s!"unsupported class file version {major}.{minor}"
  | .unexpectedEnd offset needed =>
    s!"unexpected end of data at offset {offset} (needed {needed} more bytes)"
  | .unknownConstantTag tag index => s!"unknown constant pool tag {tag} at index {index}"
  | .badConstantIndex index expected =>
    s!"constant pool index {index} does not resolve to a {expected.text} entry"
  | .attributeLength kind declared consumed =>
    s!"attribute {kind.name} declares {declared} bytes but {consumed} were consumed"
  | .attributeNameMismatch kind =>
    s!"attribute {kind.name} is stored under a different name"
  | .unknownElementTag tag => s!"unknown annotation element tag 0x{hexadecimal 2 tag.toNat}"
  | .annotationTooDeep => s!"annotation nesting exceeds {maxAnnotationDepth} levels"
  | .trailingBytes count => s!"{count} trailing bytes after class data"
  | .limitExceeded what count =>
    s!"{what.text} count {count} does not fit the class file limit"

end ClassThaw
