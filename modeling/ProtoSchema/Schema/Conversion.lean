import ProtoSchema.Expansion
import ProtoSchema.Options
/-!
# The schema of a message

A message becomes an object with a property for each field. A repeated field
becomes an array, an enumeration the list of its numbers, and a field that
refers to a message holds that message's properties, or an array of its objects
when it is repeated or a map.
-/

namespace ProtoSchema.Schema

namespace Node

/-- An array of `item`, or null where that is allowed. -/
def arrayOf (o : Options) (item : Node) : Node :=
  { plain .array with
    type := if o.allowNullValues then .union [.null, .array] else .single .array
    items := some item }

/-- What the label of a field that refers to a message says about further properties. -/
def openness : Label → Option Bool
  | .optional => some true
  | .required => some false
  | .repeated => none

/-- The enumerations in sight whose name ends the type name of a field. -/
def choices (outer : List Enum) (owner : Message) (f : Field) : List Enum :=
  (owner.enums ++ outer).filter fun e => e.name.toList.isSuffixOf f.typeName.toList

/-- An integer among the numbers of some enumerations, each labelled by its comment or else by
itself. -/
def choice (enums : List Enum) : Node :=
  let values := enums.flatMap Enum.values
  { plain .integer with
    enumValues := values.map fun v => .num v.number.toInt
    optionLabels := values.map fun v =>
      match v.comment? with
      | some comment => .str comment
      | none => .num v.number.toInt }

/-- The object of a message with some properties, a later one replacing an earlier one of the
same name. -/
def ofProperties (o : Options) (m : Message) (properties : List (String × Node)) : Node :=
  { plain .object with
    additionalProperties := some !o.disallowAdditionalProperties
    properties := .ofList properties : Node }.annotate m.comments m.name

/-- The names under which a field stands, the one that must win last. -/
def fieldNames (o : Options) (f : Field) : List String :=
  if o.protoAndJsonFieldnames && f.jsonName != f.name then [f.jsonName, f.name] else [f.name]

/-- The node of a field made into a property. -/
def asProperty (n : Node) (f : Field) : Node :=
  { n.annotate f.comments f.name with order := some f.number }

/-- The node of a field that refers to a message with the object `record`. -/
def ofRecord (target : Message) (f : Field) (record : Node) : Node :=
  if target.mapEntry || f.isRepeated then
    { plain .array with additionalProperties := openness f.label, items := some record }
  else
    { plain .object with additionalProperties := openness f.label, properties := record.properties }

mutual

/-- The node of a field of `owner`, before its own directives apply. -/
def ofContent (o : Options) (outer : List Enum) (owner : Message) (f : Field) : Content → Node
  | .value kind => if f.isRepeated then arrayOf o (plain kind) else plain kind
  | .choice =>
    let node := choice (choices outer owner f)
    if f.isRepeated then arrayOf o node else node
  | .record target _ fields =>
    ofRecord target.message f
      (ofProperties o target.message (ofExpansion o outer target.message fields))

/-- The properties of `owner` in the order in which its fields write them. -/
def ofExpansion (o : Options) (outer : List Enum) (owner : Message) :
    Expansion → List (String × Node)
  | .done => []
  | .field f content rest =>
    let node := (ofContent o outer owner f content).asProperty f
    (fieldNames o f).map (·, node) ++ ofExpansion o outer owner rest

end

/-- An enumeration on its own: its numbers, each labelled by its comment or else by its name. -/
def ofEnum (e : Enum) : Node :=
  { plain .integer with
    enumValues := e.values.map fun v => .num v.number.toInt
    optionLabels := e.values.map fun v => .str (v.comment?.getD v.name) : Node }.annotate
      e.comments e.name

end Node

/-- The schema of a message of `scope`, where `outer` holds the enumerations of its file. -/
def ofMessage (c : Catalog) (o : Options) (scope : Scope) (d : Declaration)
    (outer : List Enum) : Except ConversionError Node :=
  (c.expandMessage scope d).map fun fields =>
    .ofProperties o d.message (Node.ofExpansion o outer d.message fields)

/-- The schema of one field of a message, without the directives in its comments. -/
def ofField (c : Catalog) (o : Options) (scope : Scope) (f : Field) (d : Declaration)
    (outer : List Enum) : Except ConversionError Node :=
  (c.content [d.place] scope d.message f).map (.ofContent o outer d.message f)

end ProtoSchema.Schema
