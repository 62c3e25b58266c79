import ProtoSchema.Json.Value
import ProtoSchema.Schema.Annotations
/-!
# Schema nodes

A node describes one value: its type, its properties or items, the values it
may take, and its annotations. `order` is the number of the field that a
property was made from; `orderedProperties` lists the properties by it, those
without one where the largest number would stand.
-/

namespace ProtoSchema.Schema

inductive Kind where
  | string
  | number
  | integer
  | boolean
  | object
  | array
  | null
deriving DecidableEq, Repr

namespace Kind

def name : Kind → String
  | string => "string"
  | number => "number"
  | integer => "integer"
  | boolean => "boolean"
  | object => "object"
  | array => "array"
  | null => "null"

def all : List Kind := [string, number, integer, boolean, object, array, null]

end Kind

/-- One kind of value, or any of several. -/
inductive ValueType where
  | single (kind : Kind)
  | union (kinds : List Kind)
deriving DecidableEq, Repr

structure Node where
  type : ValueType
  annotations : Annotations
  properties : Dictionary Node
  items : Option Node
  additionalProperties : Option Bool
  enumValues : List Json
  optionLabels : List Json
  order : Option Int32
deriving Repr

/-- Entries sorted by their number and then by their name; without a number an entry stands
where the largest number does. -/
def inOrder {α : Type} (order : α → Option Int32) (entries : List (String × α)) :
    List (String × α) :=
  let rank (e : String × α) : Int32 := (order e.2).getD Int32.maxValue
  entries.mergeSort fun a b => rank a < rank b || (rank a == rank b && a.1 ≤ b.1)

namespace Node

/-- A node of one kind, with nothing else said about it. -/
def plain (kind : Kind) : Node where
  type := .single kind
  annotations := {}
  properties := .empty
  items := none
  additionalProperties := none
  enumValues := []
  optionLabels := []
  order := none

instance : Inhabited Node := ⟨plain .null⟩

/-- The type is `kind` and no union. -/
def is (n : Node) (kind : Kind) : Bool := n.type == .single kind

def orderedProperties (n : Node) : List (String × Node) := inOrder order n.properties.entries

/-- A node with the directives of its declaration, whose name makes the title of last resort. -/
def annotate (n : Node) (comments : Option Comments) (identifier : String) : Node :=
  { n with
    annotations := n.annotations.annotate (.ofComments comments) (n.is .integer) identifier }

end Node
end ProtoSchema.Schema
