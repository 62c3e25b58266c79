import ProtoSchema.Proofs.Schema.Parts
import ProtoSchema.Schema.Document
/-!
# Schemas in their documents

A document shows the schema that it is made from: following keys through its
properties, and through the items of arrays on the way, leads to the object of
the node that the same keys lead to in the schema (`property?_toDocument`). The
members of an object are sorted by number and not by key, so this needs that no
key stands there twice.
-/

namespace ProtoSchema

namespace Json

/-- The object that a schema describes, or describes the items of. -/
def record (j : Json) : Json := (j.member? "items").getD j

/-- The schema of the property that some keys lead to, each in the object of the one before. -/
def property? (j : Json) : List String → Option Json
  | [] => some j
  | key :: keys => ((j.record.member? "properties").bind (member? key)).bind (·.property? keys)

end Json

namespace Schema

section Members
variable {α : Type} {write : α → Json} {value : Option α}

theorem lookup_member (key name : String) : (member name write value).lookup key =
    if key = name then value.map write else none := by
  cases value with
  | none => simp [member]
  | some v => simp [member, Dictionary.lookup_cons]

theorem lookup_flag (key name : String) (holds : Bool) : (flag name holds).lookup key =
    if key = name ∧ holds = true then some (.bool true) else none := by
  cases holds <;> simp [flag, Dictionary.lookup_cons]

end Members

namespace Node

theorem propertyJsons_eq (l : List (String × Node)) :
    propertyJsons l = l.map fun e => (e.1, e.2.order, e.2.toJson) := by
  induction l with
  | nil => rw [propertyJsons]; rfl
  | cons e l ih => obtain ⟨name, n⟩ := e; rw [propertyJsons, ih]; rfl

theorem itemsMember_eq (items : Option Node) : itemsMember items = member "items" toJson items := by
  cases items with
  | none => rw [itemsMember]; rfl
  | some n => rw [itemsMember]; rfl

/-- The properties of a node as they are written. -/
def propertyMembers (n : Node) : List (String × Json) := n.orderedProperties.map fun e => (e.1, e.2.toJson)

theorem map_inOrder_propertyJsons (l : List (String × Node)) :
    ((inOrder Prod.fst (propertyJsons l)).map fun e => (e.1, e.2.2)) =
      (inOrder order l).map fun e => (e.1, e.2.toJson) := by
  rw [propertyJsons_eq, inOrder, inOrder, ← List.map_mergeSort, List.map_map]
  · rfl
  · exact fun _ _ _ _ => rfl

variable (n : Node)

/-- The members of an object, where the parts of the node are objects as well. -/
theorem members_eq : n.members = [("type", n.type.json)]
    ++ member "title" .str n.annotations.title
    ++ member "description" .str n.annotations.description
    ++ (if n.type = .single .object || !n.properties.isEmpty then [("properties", .obj n.propertyMembers)] else [])
    ++ member "items" toJson n.items
    ++ member "additionalProperties" .bool n.additionalProperties
    ++ (if n.enumValues.isEmpty then []
        else [("enum", .arr n.enumValues), ("optionLabels", .arr n.optionLabels)])
    ++ member "minimum" .num n.annotations.minimum
    ++ member "maximum" .num n.annotations.maximum
    ++ member "minLength" (fun n => .num (Int.ofNat n)) n.annotations.minLength
    ++ member "maxLength" (fun n => .num (Int.ofNat n)) n.annotations.maxLength
    ++ member "pattern" .str n.annotations.pattern
    ++ member "format" .str n.annotations.format
    ++ flag "required" n.annotations.required
    ++ flag "primaryKey" n.annotations.primaryKey
    ++ flag "autoIncrement" n.annotations.autoIncrement
    ++ flag "index" n.annotations.index
    ++ flag "query" n.annotations.query
    ++ member "propertyOrder" (fun n => .num n.toInt) n.order := by
  obtain ⟨type, a, ⟨properties⟩, items, additionalProperties, enumValues, optionLabels, order⟩ := n
  rw [propertyMembers, orderedProperties, ← map_inOrder_propertyJsons, ← itemsMember_eq]
  rfl

theorem member?_properties : n.toJson.member? "properties" =
    if n.type = .single .object ∨ n.properties.isEmpty = false then some (.obj n.propertyMembers) else none := by
  rw [toJson, Json.member?, members_eq]
  simp [List.lookup_append, lookup_member, lookup_flag, Dictionary.lookup_cons, apply_ite (List.lookup _)]

theorem member?_properties_of_object (h : n.type = .single .object) :
    n.toJson.member? "properties" = some (.obj n.propertyMembers) := by
  rw [member?_properties, if_pos (.inl h)]

theorem member?_properties_congr {n n' : Node} (ht : n.type = .single .object) (ht' : n'.type = .single .object)
    (hp : n.properties = n'.properties) : n.toJson.member? "properties" = n'.toJson.member? "properties" := by
  rw [member?_properties_of_object n ht, member?_properties_of_object n' ht', propertyMembers, propertyMembers,
    orderedProperties, orderedProperties, hp]

theorem member?_items : n.toJson.member? "items" = n.items.map toJson := by
  rw [toJson, Json.member?, members_eq]
  simp [List.lookup_append, lookup_member, lookup_flag, Dictionary.lookup_cons, apply_ite (List.lookup _)]

theorem member?_enum : n.toJson.member? "enum" =
    if n.enumValues.isEmpty then none else some (.arr n.enumValues) := by
  rw [toJson, Json.member?, members_eq]
  simp [List.lookup_append, lookup_member, lookup_flag, Dictionary.lookup_cons, apply_ite (List.lookup _)]

variable {n}

theorem record_toJson : n.toJson.record = n.record.toJson := by
  rw [Json.record, member?_items, record]
  cases n.items <;> rfl

/-- Under the key of a property stands its object. -/
theorem lookup_propertyMembers (h : n.properties.Ascending) (key : String) :
    n.propertyMembers.lookup key = (n.properties.get? key).map toJson := by
  have hperm : n.propertyMembers.Perm (n.properties.entries.map fun e => (e.1, e.2.toJson)) :=
    (List.mergeSort_perm _ _).map _
  have hkeys : ((n.properties.entries.map fun e => (e.1, e.2.toJson)).map Prod.fst).Nodup := by
    rw [List.map_map]
    exact h.nodup_keys
  rw [← Dictionary.lookup_perm hperm.symm hkeys, Dictionary.lookup_map_values, Dictionary.get?]

theorem property_toJson (h : n.properties.Ascending) (key : String) :
    (n.toJson.member? "properties").bind (Json.member? key) = (n.properties.get? key).map toJson := by
  rw [member?_properties]
  split
  · exact lookup_propertyMembers h key
  · rename_i hno
    obtain ⟨-, hempty⟩ := not_or.1 hno
    have hnil : n.properties.entries = [] := List.isEmpty_iff.1 (by simpa [Dictionary.isEmpty] using hempty)
    simp [Dictionary.get?, hnil]

theorem member?_toDocument {key : String} (h : key ≠ "$schema") :
    n.toDocument.member? key = n.toJson.member? key := by
  simp [toDocument, toJson, Json.member?, Dictionary.lookup_cons, h]

/-- The version of the schema language stands beside the properties. -/
theorem property?_document_cons (key : String) (keys : List String) :
    n.toDocument.property? (key :: keys) = n.toJson.property? (key :: keys) := by
  have hr : n.toDocument.record.member? "properties" = n.toJson.record.member? "properties" := by
    rw [Json.record, Json.record, member?_toDocument (by decide)]
    cases n.toJson.member? "items" with
    | none => exact member?_toDocument (by decide)
    | some item => rfl
  rw [Json.property?, Json.property?, hr]

end Node

open Node

variable {c : Catalog} {o : Options} {outer : List Enum} {a : Site} {n : Node}

theorem ascending_schemaAt (h : schemaAt c o outer a = .ok n) : n.properties.Ascending := by
  obtain ⟨nodes, -, -, rfl⟩ := schemaAt_eq_ok_iff.1 h
  exact Dictionary.ascending_ofList _

theorem Part.ascending (h : Part c o outer n) : n.properties.Ascending := by
  cases h with
  | message h => exact ascending_schemaAt h
  | value _ => exact Dictionary.ascending_empty
  | choice _ => exact Dictionary.ascending_empty
  | property hf h =>
    rw [asProperty_properties]
    rcases properties_fieldAt hf h with hn | ⟨b, record, hrecord, hn⟩
    · exact hn ▸ Dictionary.ascending_empty
    · exact hn ▸ ascending_schemaAt hrecord

theorem property?_toJson (h : Part c o outer n) (keys : List String) :
    n.toJson.property? keys = (n.property? keys).map toJson := by
  induction keys generalizing n with
  | nil => rfl
  | cons key keys ih =>
    have hrecord : Part c o outer n.record := by
      rw [record]
      cases hi : n.items with
      | none => exact h
      | some item => exact h.of_items hi
    rw [Json.property?, property?, record_toJson, property_toJson hrecord.ascending]
    cases hp : n.record.properties.get? key with
    | none => rfl
    | some p =>
      have hmem := Dictionary.mem_values_of_get? hp
      exact ih (hrecord.of_mem_properties hmem)

/-- Keys lead in the document of a message to the object of the node that they lead to in its schema. -/
theorem property?_toDocument (h : schemaAt c o outer a = .ok n) (key : String) (keys : List String) :
    n.toDocument.property? (key :: keys) = (n.property? (key :: keys)).map toJson := by
  rw [property?_document_cons, property?_toJson (.message h)]

end Schema
end ProtoSchema
