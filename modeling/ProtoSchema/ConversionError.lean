import ProtoSchema.Descriptor
/-!
# Why a message has no schema

One field is to blame in each case; the error names it, the message that
declares it, and what is wrong with it.
-/

namespace ProtoSchema

inductive ConversionError where
  | unrecognizedKind (field message : String) (kind : FieldKind)
  | unresolvedReference (typeName field message : String)
  | cyclicReference (typeName field message : String)
deriving DecidableEq, Repr

namespace ConversionError

def place (field message : String) : String :=
  " (field " ++ field ++ " in message " ++ message ++ ")"

def message : ConversionError → String
  | unrecognizedKind f m kind => "unrecognized field type: " ++ kind.name ++ place f m
  | unresolvedReference t f m => "no such message type named " ++ t ++ place f m
  | cyclicReference t f m => "cyclic reference to message type " ++ t ++ place f m

end ConversionError
end ProtoSchema
