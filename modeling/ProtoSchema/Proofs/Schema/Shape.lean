import Mathlib.Logic.ExistsUnique
import ProtoSchema.Proofs.Schema.Parts
/-!
# The three forms of a node

Every node in the schema of a message is an object, an array or a scalar, and
only one of them. Each form says which attributes may be set, so a choice stands
on integers only, each number has its label, and several types stand only where
null is allowed (`wellShaped_of_within`).
-/

namespace ProtoSchema.Schema

inductive Form where
  | object
  | array
  | scalar
deriving DecidableEq, Repr

/-- The form that a type belongs to. -/
def ValueType.form : ValueType → Form
  | .single .object => .object
  | .single .array | .union _ => .array
  | .single _ => .scalar

namespace Node

/-- Has properties, and says whether there may be others. -/
structure IsObject (n : Node) : Prop where
  type : n.type = .single .object
  items : n.items = none
  enumValues : n.enumValues = []
  optionLabels : n.optionLabels = []
  additionalProperties : n.additionalProperties.isSome = true

/-- Has items, which are no arrays and of one type. -/
structure IsArray (n : Node) : Prop where
  type : n.type = .single .array ∨ n.type = .union [.null, .array]
  items : ∃ item kind, n.items = some item ∧ item.type = .single kind ∧ kind ≠ .array
  properties : n.properties = .empty
  enumValues : n.enumValues = []
  optionLabels : n.optionLabels = []

/-- Has no parts. -/
structure IsScalar (n : Node) : Prop where
  type : n.type = .single .string ∨ n.type = .single .number ∨ n.type = .single .integer ∨
    n.type = .single .boolean
  items : n.items = none
  properties : n.properties = .empty
  additionalProperties : n.additionalProperties = none

def HasForm (n : Node) : Form → Prop
  | .object => n.IsObject
  | .array => n.IsArray
  | .scalar => n.IsScalar

/-- What every node of a schema keeps to. -/
structure WellShaped (o : Options) (n : Node) : Prop where
  form : ∃! form, n.HasForm form
  enumValues : n.enumValues ≠ [] → n.type = .single .integer
  optionLabels : n.optionLabels.length = n.enumValues.length
  union : ∀ kinds, n.type = .union kinds → o.allowNullValues = true

variable {o : Options} {n : Node}

theorem HasForm.form_type {form : Form} (h : n.HasForm form) : n.type.form = form := by
  cases form with
  | object => rw [h.type]; rfl
  | array => rcases h.type with ht | ht <;> rw [ht] <;> rfl
  | scalar => rcases h.type with ht | ht | ht | ht <;> rw [ht] <;> rfl

theorem HasForm.existsUnique (form : Form) (h : n.HasForm form) : ∃! form, n.HasForm form :=
  ⟨form, h, fun _ h' => h'.form_type.symm.trans h.form_type⟩

theorem IsObject.wellShaped (h : n.IsObject) : n.WellShaped o where
  form := HasForm.existsUnique .object h
  enumValues hv := absurd h.enumValues hv
  optionLabels := by rw [h.enumValues, h.optionLabels]
  union kinds hu := by simp [h.type] at hu

theorem IsArray.wellShaped (h : n.IsArray) (hu : ∀ kinds, n.type = .union kinds → o.allowNullValues = true) :
    n.WellShaped o where
  form := HasForm.existsUnique .array h
  enumValues hv := absurd h.enumValues hv
  optionLabels := by rw [h.enumValues, h.optionLabels]
  union := hu

/-- Directives change annotations only. -/
theorem WellShaped.asProperty (h : n.WellShaped o) (f : Field) : (n.asProperty f).WellShaped o where
  form := by
    obtain ⟨form, hform, -⟩ := h.form
    refine HasForm.existsUnique form ?_
    cases form with
    | object => exact ⟨hform.type, hform.items, hform.enumValues, hform.optionLabels, hform.additionalProperties⟩
    | array => exact ⟨hform.type, hform.items, hform.properties, hform.enumValues, hform.optionLabels⟩
    | scalar => exact ⟨hform.type, hform.items, hform.properties, hform.additionalProperties⟩
  enumValues := h.enumValues
  optionLabels := h.optionLabels
  union := h.union

/-! ## The nodes that are built -/

theorem isScalar_plain {k : FieldKind} {kind : Kind} (h : k.role = .value kind) : (plain kind).IsScalar := by
  refine ⟨?_, rfl, rfl, rfl⟩
  cases k <;> simp_all [FieldKind.role, plain]

theorem wellShaped_plain {k : FieldKind} {kind : Kind} (h : k.role = .value kind) :
    (plain kind).WellShaped o where
  form := HasForm.existsUnique .scalar (isScalar_plain h)
  enumValues hv := absurd rfl hv
  optionLabels := rfl
  union kinds hu := by cases hu

theorem isScalar_choice (enums : List Enum) : (choice enums).IsScalar :=
  ⟨.inr (.inr (.inl rfl)), rfl, rfl, rfl⟩

theorem wellShaped_choice (enums : List Enum) : (choice enums).WellShaped o where
  form := HasForm.existsUnique .scalar (isScalar_choice enums)
  enumValues _ := rfl
  optionLabels := by simp [choice]
  union kinds hu := by cases hu

theorem wellShaped_arrayOf {item : Node} (h : item.IsScalar) : (arrayOf o item).WellShaped o := by
  refine IsArray.wellShaped ⟨?_, ?_, rfl, rfl, rfl⟩ ?_
  · by_cases hn : o.allowNullValues = true <;> simp [arrayOf, hn]
  · rcases h.type with ht | ht | ht | ht <;> exact ⟨item, _, rfl, ht, by decide⟩
  · intro kinds hu
    cases hn : o.allowNullValues with
    | true => rfl
    | false => simp [arrayOf, hn] at hu

theorem isObject_ofProperties (m : Message) (l : List (String × Node)) : (ofProperties o m l).IsObject :=
  ⟨rfl, rfl, rfl, rfl, rfl⟩

theorem wellShaped_ofRecord {record : Node} (h : record.IsObject) (target : Message) (f : Field) :
    (ofRecord target f record).WellShaped o := by
  unfold ofRecord
  split
  · exact IsArray.wellShaped ⟨.inl rfl, ⟨record, _, rfl, h.type, by decide⟩, rfl, rfl, rfl⟩ (by simp [plain])
  · rename_i hr
    refine IsObject.wellShaped ⟨rfl, rfl, rfl, rfl, ?_⟩
    -- Only a repeated field leaves open whether there may be others.
    obtain ⟨-, hr⟩ : target.mapEntry = false ∧ f.isRepeated = false := by simpa using hr
    cases hl : f.label <;> simp_all [openness, Field.isRepeated]

end Node

open Node

variable {c : Catalog} {o : Options} {outer : List Enum} {a : Site} {f : Field} {n top : Node}

theorem isObject_schemaAt (h : schemaAt c o outer a = .ok n) : n.IsObject := by
  obtain ⟨nodes, -, -, rfl⟩ := schemaAt_eq_ok_iff.1 h
  exact isObject_ofProperties _ _

theorem wellShaped_fieldAt (hf : f ∈ a.message.fields) (h : fieldAt c o outer a f = .ok n) :
    n.WellShaped o := by
  obtain ⟨kind, hk, rfl⟩ | ⟨-, rfl⟩ | ⟨b, record, -, hrecord, rfl⟩ := fieldAt_cases hf h
  · split
    · exact wellShaped_arrayOf (isScalar_plain hk)
    · exact wellShaped_plain hk
  · split
    · exact wellShaped_arrayOf (isScalar_choice _)
    · exact wellShaped_choice _
  · exact wellShaped_ofRecord (isObject_schemaAt hrecord) b.message f

theorem Part.wellShaped (h : Part c o outer n) : n.WellShaped o := by
  cases h with
  | message h => exact (isObject_schemaAt h).wellShaped
  | property hf h => exact (wellShaped_fieldAt hf h).asProperty _
  | value hk => exact wellShaped_plain hk
  | choice enums => exact wellShaped_choice enums

/-- Every node in the schema of a message, at any depth, is an object, an array or a scalar and no two of
them, has a choice only if it is an integer, as many labels as numbers to choose from, and several types
only if null is allowed. -/
theorem wellShaped_of_within {scope : Scope} {d : Declaration}
    (h : ofMessage c o scope d outer = .ok top) (hn : top.Within n) : n.WellShaped o :=
  (part_of_within (a := ⟨scope, d⟩) h hn).wellShaped

/-- Any number of the message's own colors, or null. -/
def colors : Field := ⟨"colors", "colors", 1, .enum, .repeated, ".Palette.Color", none⟩

def palette : Message :=
  ⟨"Palette", [colors], [], [⟨"Color", [⟨"RED", 0, none⟩, ⟨"BLUE", 7, none⟩], none⟩], false, none⟩

def nullable : Options := { allowNullValues := true }

theorem wellShaped_of_within_palette : ∃ top item, ofMessage .empty nullable [] ⟨[0], palette⟩ [] = .ok top ∧
    top.Within item ∧ item.optionLabels.length = 2 ∧ item.WellShaped nullable := by
  have hcolors : fieldAt .empty nullable [] ⟨[], ⟨[0], palette⟩⟩ colors =
      .ok (arrayOf nullable (choice (choices [] palette colors))) := fieldAt_choice rfl
  have hpalette : schemaAt .empty nullable [] ⟨[], ⟨[0], palette⟩⟩ = .ok _ :=
    schemaAt_eq_ok_iff.2 ⟨[(colors, _)], rfl, List.forall_mem_singleton.2 hcolors, rfl⟩
  have harray : Within (ofProperties nullable palette (written nullable [(colors, _)]))
      ((arrayOf nullable (choice (choices [] palette colors))).asProperty colors) := .property .top (.head _)
  exact ⟨_, _, hpalette, harray.item rfl, by decide, wellShaped_of_within hpalette (harray.item rfl)⟩

end ProtoSchema.Schema
