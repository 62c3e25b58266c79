import ProtoSchema.Json.Text
import ProtoSchema.Schema.Node
/-!
# Schemas as JSON

The members of a node's object stand in one fixed order, and an attribute that
is not set or does not hold is left out. A document is the object of its root
with the version of the schema language in front.
-/

namespace ProtoSchema.Schema

def schemaVersion : String := "http://json-schema.org/draft-04/schema#"

def ValueType.json : ValueType → Json
  | .single kind => .str kind.name
  | .union kinds => .arr (kinds.map fun k => .str k.name)

/-- A member for a value that is set. -/
def member {α : Type} (key : String) (write : α → Json) (value : Option α) :
    List (String × Json) :=
  value.toList.map fun v => (key, write v)

/-- A member for a flag that holds. -/
def flag (key : String) (holds : Bool) : List (String × Json) :=
  if holds then [(key, .bool true)] else []

namespace Node

mutual

def members : Node → List (String × Json)
  | ⟨type, a, ⟨properties⟩, items, additionalProperties, enumValues, optionLabels, order⟩ =>
    [("type", type.json)]
      ++ member "title" .str a.title
      ++ member "description" .str a.description
      ++ (if type = .single .object || !properties.isEmpty then
            [("properties", .obj ((inOrder Prod.fst (propertyJsons properties)).map
              fun e => (e.1, e.2.2)))]
          else [])
      ++ itemsMember items
      ++ member "additionalProperties" .bool additionalProperties
      ++ (if enumValues.isEmpty then []
          else [("enum", .arr enumValues), ("optionLabels", .arr optionLabels)])
      ++ member "minimum" .num a.minimum
      ++ member "maximum" .num a.maximum
      ++ member "minLength" (fun n => .num (Int.ofNat n)) a.minLength
      ++ member "maxLength" (fun n => .num (Int.ofNat n)) a.maxLength
      ++ member "pattern" .str a.pattern
      ++ member "format" .str a.format
      ++ flag "required" a.required
      ++ flag "primaryKey" a.primaryKey
      ++ flag "autoIncrement" a.autoIncrement
      ++ flag "index" a.index
      ++ flag "query" a.query
      ++ member "propertyOrder" (fun n => .num n.toInt) order

/-- The object of each property, beside its number. -/
def propertyJsons : List (String × Node) → List (String × Option Int32 × Json)
  | [] => []
  | (name, node) :: rest => (name, node.order, .obj node.members) :: propertyJsons rest

def itemsMember : Option Node → List (String × Json)
  | none => []
  | some node => [("items", .obj node.members)]

end

def toJson (n : Node) : Json := .obj n.members

/-- The object of a root node, which says what language it is written in. -/
def toDocument (n : Node) : Json := .obj (("$schema", .str schemaVersion) :: n.members)

end Node
end ProtoSchema.Schema
