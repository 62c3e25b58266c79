import ProtoSchema.Comments
import ProtoSchema.Schema.Node
/-!
# Descriptors of protobuf declarations

What a file declares: messages with their fields, and enumerations. Each
declaration carries its own comments, so a message found by its name brings
its documentation along.
-/

namespace ProtoSchema

/-- The declared type of a field; `unknown` holds a type number that stands for none. -/
inductive FieldKind where
  | double
  | float
  | int64
  | uint64
  | int32
  | fixed64
  | fixed32
  | bool
  | string
  | group
  | message
  | bytes
  | uint32
  | enum
  | sfixed32
  | sfixed64
  | sint32
  | sint64
  | unknown (number : Int32)
deriving DecidableEq, Repr

/-- What becomes of a field of some kind: a value of one schema kind, a choice among declared
numbers, or the fields of a message. -/
inductive Role where
  | value (kind : Schema.Kind)
  | choice
  | record
  | none
deriving DecidableEq, Repr

namespace FieldKind

/-- The kinds by their numbers, which start at 1. -/
def known : List FieldKind :=
  [double, float, int64, uint64, int32, fixed64, fixed32, bool, string, group, message, bytes,
   uint32, enum, sfixed32, sfixed64, sint32, sint64]

def ofNumber (n : Int32) : FieldKind :=
  if 1 ≤ n then known.getD (n.toInt.toNat - 1) (unknown n) else unknown n

def name : FieldKind → String
  | double => "double"
  | float => "float"
  | int64 => "int64"
  | uint64 => "uint64"
  | int32 => "int32"
  | fixed64 => "fixed64"
  | fixed32 => "fixed32"
  | bool => "bool"
  | string => "string"
  | group => "group"
  | message => "message"
  | bytes => "bytes"
  | uint32 => "uint32"
  | enum => "enum"
  | sfixed32 => "sfixed32"
  | sfixed64 => "sfixed64"
  | sint32 => "sint32"
  | sint64 => "sint64"
  | unknown n => "unknown type " ++ Decimal.text n.toInt

def role : FieldKind → Role
  | double | float => .value .number
  | string | bytes => .value .string
  | bool => .value .boolean
  | enum => .choice
  | group | message => .record
  | unknown _ => .none
  | _ => .value .integer

end FieldKind

inductive Label where
  | optional
  | required
  | repeated
deriving DecidableEq, Repr

structure Field where
  name : String
  jsonName : String
  number : Int32
  kind : FieldKind
  label : Label
  /-- The name of the message or enumeration, as written. -/
  typeName : String
  comments : Option Comments
deriving DecidableEq, Repr

def Field.isRepeated (f : Field) : Bool := f.label = .repeated

structure EnumValue where
  name : String
  number : Int32
  comments : Option Comments
deriving DecidableEq, Repr

def EnumValue.comment? (v : EnumValue) : Option String := v.comments.bind Comments.label?

structure Enum where
  name : String
  values : List EnumValue
  comments : Option Comments
deriving DecidableEq, Repr

structure Message where
  name : String
  fields : List Field
  nested : List Message
  enums : List Enum
  /-- Holds for the entry of a map field, which is declared as a message. -/
  mapEntry : Bool
  comments : Option Comments
deriving Repr

structure File where
  name : String
  package : Option String
  messages : List Message
  enums : List Enum
deriving Repr

/-- The package, where none at all is the one without a name. -/
def File.packageName (f : File) : String := f.package.getD ""

end ProtoSchema
