import ProtoSchema.Proofs.Schema.Inlining
/-!
# The nodes in a schema

`Node.Within` follows properties and items to any depth. A node that stands in
the schema of a message is the schema of a message, the property made of a field,
or what an array of plain values holds (`part_of_within`), so whatever holds of
those four holds of all nodes.
-/

namespace ProtoSchema.Schema

open Node

/-- A node stands in another: it is that node, or a property or the items of one in it. -/
inductive Node.Within (top : Node) : Node → Prop where
  | top : Within top top
  | property {n p : Node} (h : Within top n) (hp : p ∈ n.properties.values) : Within top p
  | item {n item : Node} (h : Within top n) (hi : n.items = some item) : Within top item

/-- What a node in a schema can be. -/
inductive Part (c : Catalog) (o : Options) (outer : List Enum) : Node → Prop where
  | message {a : Site} {n : Node} (h : schemaAt c o outer a = .ok n) : Part c o outer n
  | property {a : Site} {f : Field} {n : Node} (hf : f ∈ a.message.fields)
      (h : fieldAt c o outer a f = .ok n) : Part c o outer (n.asProperty f)
  | value {f : Field} {kind : Kind} (h : f.kind.role = .value kind) : Part c o outer (plain kind)
  | choice (enums : List Enum) : Part c o outer (choice enums)

/-- What an element of a field can be, where the field has an array of them. -/
inductive Element (c : Catalog) (o : Options) (outer : List Enum) (a : Site) (f : Field) : Node → Prop where
  | value {kind : Kind} (h : f.kind.role = .value kind) : Element c o outer a f (plain kind)
  | choice (h : f.kind.role = .choice) : Element c o outer a f (choice (choices outer a.message f))
  | record {b : Site} {n : Node} (hr : RefersTo c a f b) (h : schemaAt c o outer b = .ok n) :
      Element c o outer a f n

variable {c : Catalog} {o : Options} {outer : List Enum} {n p item : Node}

/-- The properties of a field are those of a message, if it has any. -/
theorem properties_fieldAt {a : Site} {f : Field} (hf : f ∈ a.message.fields)
    (h : fieldAt c o outer a f = .ok n) : n.properties = .empty ∨
      ∃ b record, schemaAt c o outer b = .ok record ∧ n.properties = record.properties := by
  obtain ⟨kind, -, rfl⟩ | ⟨-, rfl⟩ | ⟨b, record, -, hrecord, rfl⟩ := fieldAt_cases hf h
  · exact .inl (by split <;> rfl)
  · exact .inl (by split <;> rfl)
  · by_cases hr : b.message.mapEntry = true ∨ f.isRepeated = true
    · exact .inl (by simp [ofRecord, hr])
    · exact .inr ⟨b, record, hrecord, (ofRecord_properties record hr).2⟩

theorem part_of_mem_schemaAt {a : Site} (h : schemaAt c o outer a = .ok n) (hp : p ∈ n.properties.values) :
    Part c o outer p := by
  obtain ⟨f, hf, fn, hfn, rfl⟩ := exists_of_mem_properties h hp
  exact .property hf hfn

theorem Part.of_mem_properties (h : Part c o outer n) (hp : p ∈ n.properties.values) : Part c o outer p := by
  cases h with
  | message h => exact part_of_mem_schemaAt h hp
  | value _ => cases hp
  | choice _ => cases hp
  | property hf h =>
    rw [asProperty_properties] at hp
    rcases properties_fieldAt hf h with hn | ⟨b, record, hrecord, hn⟩
    · rw [hn] at hp
      cases hp
    · exact part_of_mem_schemaAt hrecord (hn ▸ hp)

theorem element_of_items {a : Site} {f : Field} (hf : f ∈ a.message.fields)
    (h : fieldAt c o outer a f = .ok n) (hi : n.items = some item) : Element c o outer a f item := by
  obtain ⟨kind, hk, rfl⟩ | ⟨hk, rfl⟩ | ⟨b, record, hb, hrecord, rfl⟩ := fieldAt_cases hf h
  · by_cases hr : f.isRepeated = true
    · obtain rfl : plain kind = item := by simpa [hr] using hi
      exact .value hk
    · simp [hr] at hi
  · by_cases hr : f.isRepeated = true
    · obtain rfl : Node.choice (choices outer a.message f) = item := by simpa [hr] using hi
      exact .choice hk
    · simp [hr] at hi
  · by_cases hr : b.message.mapEntry = true ∨ f.isRepeated = true
    · obtain rfl : record = item := by simpa [ofRecord_items record hr] using hi
      exact .record hb hrecord
    · simp [ofRecord_properties record hr] at hi

theorem Element.part {a : Site} {f : Field} (h : Element c o outer a f n) : Part c o outer n := by
  cases h with
  | value h => exact .value h
  | choice _ => exact .choice _
  | record _ h => exact .message h

theorem Part.of_items (h : Part c o outer n) (hi : n.items = some item) : Part c o outer item := by
  cases h with
  | message h =>
    obtain ⟨nodes, -, -, rfl⟩ := schemaAt_eq_ok_iff.1 h
    cases hi
  | value _ => cases hi
  | choice _ => cases hi
  | property hf h => exact (element_of_items hf h hi).part

/-- Every node in the schema of a message is one of the four kinds. -/
theorem part_of_within {a : Site} {top : Node} (h : schemaAt c o outer a = .ok top) (hn : top.Within n) :
    Part c o outer n := by
  induction hn with
  | top => exact .message h
  | property _ hp ih => exact ih.of_mem_properties hp
  | item _ hi ih => exact ih.of_items hi

end ProtoSchema.Schema
