import ProtoSchema.Proofs.Identifier.Words
import ProtoSchema.Proofs.Schema.Names
import ProtoSchema.Proofs.Schema.Permissions
/-!
# Annotations at every depth

Directives are read for messages and for fields, and what is made of them is then put into arrays or merged
into other nodes. Through all that the annotations of a node go together, whatever the comments say
(`Node.Coherent`): bounds of a value stand on integers, bounds of a length on all others, and a flag comes with
the flag that it implies. A property has a title and the number of its field; the schema of a message and the
items of an array have no number (`annotations_of_within`).
-/

namespace ProtoSchema.Schema

open Relation

namespace Node

/-- What the annotations of a node keep to. -/
structure Coherent (n : Node) : Prop where
  values : n.annotations.minimum ≠ none ∨ n.annotations.maximum ≠ none → n.type = .single .integer
  lengths : n.type = .single .integer → n.annotations.minLength = none ∧ n.annotations.maxLength = none
  primaryKey : n.annotations.autoIncrement = true → n.annotations.primaryKey = true
  required : n.annotations.index = true → n.annotations.required = true

/-- There is a title, and it is not empty if the name has any character but underscores, hyphens and blanks. -/
def Titled (n : Node) (name : String) : Prop :=
  ∃ title, n.annotations.title = some title ∧
    ((∃ c ∈ name.toList, c ≠ '_' ∧ c ≠ '-' ∧ Text.isBlank c = false) → title ≠ "")

/-- A property as it is made from a field. If that is repeated and of no message, directives leave the
elements alone. -/
structure MadeFrom (f : Field) (p : Node) : Prop where
  title : p.Titled f.name
  order : p.order = some f.number
  items : f.isRepeated = true → f.kind ≠ .message → f.kind ≠ .group →
    ∃ item, p.items = some item ∧ item.annotations = {}

variable {n : Node}

/-! ## Nodes and directives -/

theorem coherent_of_annotations_eq (h : n.annotations = {}) : n.Coherent where
  values hv := by simp [h] at hv
  lengths _ := by simp [h]
  primaryKey ha := by simp [h] at ha
  required hi := by simp [h] at hi

theorem mentions_of_subset {d : Directives} {keys keys' : List String} (hs : keys ⊆ keys')
    (h : d.mentions keys = true) : d.mentions keys' = true := by
  obtain ⟨key, hkey, hvalue⟩ := List.findSome?_isSome_iff.1 h
  exact List.findSome?_isSome_iff.2 ⟨key, hs hkey, hvalue⟩

/-- A flag that a directive sets, and another that the same directive and more set. -/
theorem flag_implies {d : Directives} {keys keys' : List String} {flag flag' : Bool} (hs : keys ⊆ keys')
    (h : flag = true → flag' = true) (hd : (flag || d.mentions keys) = true) : (flag' || d.mentions keys') = true := by
  rw [Bool.or_eq_true] at hd ⊢
  exact hd.imp h (mentions_of_subset hs)

theorem Coherent.annotate (h : n.Coherent) (comments : Option Comments) (identifier : String) :
    (n.annotate comments identifier).Coherent where
  values hv := by
    by_cases htype : n.type = .single .integer
    · exact htype
    · have hinteger : n.is .integer = false := by simpa [Node.is] using htype
      simp only [Node.annotate, Annotations.annotate, hinteger] at hv
      exact h.values hv
  lengths ht := by
    have htype : n.type = .single .integer := ht
    have hinteger : n.is .integer = true := by simp [Node.is, htype]
    simp only [Node.annotate, Annotations.annotate, hinteger]
    exact h.lengths ht
  primaryKey := flag_implies (by decide) h.primaryKey
  required := flag_implies (by decide) h.required

theorem titled_ne_empty {name : String} (h : ∃ c ∈ name.toList, c ≠ '_' ∧ c ≠ '-' ∧ Text.isBlank c = false)
    (title : Option String) : Annotations.titled name title ≠ "" := by
  have hname : Identifier.splitCase name ≠ "" := by
    obtain ⟨c, hc, hunderscore, hhyphen, hblank⟩ := h
    exact Identifier.splitCase_ne_empty ⟨c, hc, by simp [Identifier.isSeparator, hunderscore, hhyphen, hblank]⟩
  cases title with
  | none => exact hname
  | some title =>
    rw [Annotations.titled]
    split
    case isTrue => exact hname
    case isFalse hne => simpa using hne

theorem titled_annotate (n : Node) (comments : Option Comments) (name : String) :
    (n.annotate comments name).Titled name :=
  ⟨_, rfl, fun h => titled_ne_empty h _⟩

theorem annotations_ofRecord (target : Message) (f : Field) (record : Node) :
    (ofRecord target f record).annotations = {} := by
  unfold ofRecord
  split <;> rfl

end Node

open Node

variable {c : Catalog} {o : Options} {outer : List Enum} {a : Site} {f : Field} {n p item top : Node}

/-! ## The nodes of a schema -/

/-- Before the directives of a field apply, its node has no annotations, those of the message it refers to
included. -/
theorem annotations_fieldAt (hf : f ∈ a.message.fields) (h : fieldAt c o outer a f = .ok n) :
    n.annotations = {} := by
  obtain ⟨kind, -, rfl⟩ | ⟨-, rfl⟩ | ⟨b, record, -, -, rfl⟩ := fieldAt_cases hf h
  · split <;> rfl
  · split <;> rfl
  · exact annotations_ofRecord _ _ _

theorem coherent_ofProperties (m : Message) (l : List (String × Node)) : (ofProperties o m l).Coherent :=
  (coherent_of_annotations_eq rfl).annotate m.comments m.name

theorem Part.coherent (h : Part c o outer n) : n.Coherent := by
  cases h with
  | message h =>
    obtain ⟨nodes, -, -, rfl⟩ := schemaAt_eq_ok_iff.1 h
    exact coherent_ofProperties _ _
  | @property a f n hf h =>
    have hannotated := (coherent_of_annotations_eq (annotations_fieldAt hf h)).annotate f.comments f.name
    exact ⟨hannotated.values, hannotated.lengths, hannotated.primaryKey, hannotated.required⟩
  | value _ => exact coherent_of_annotations_eq rfl
  | choice _ => exact coherent_of_annotations_eq rfl

theorem order_schemaAt (h : schemaAt c o outer a = .ok n) : n.order = none := by
  obtain ⟨nodes, -, -, rfl⟩ := schemaAt_eq_ok_iff.1 h
  rfl

theorem titled_schemaAt (h : schemaAt c o outer a = .ok n) : n.Titled a.message.name := by
  obtain ⟨nodes, -, -, rfl⟩ := schemaAt_eq_ok_iff.1 h
  exact titled_annotate _ _ _

theorem Element.order (h : Element c o outer a f n) : n.order = none := by
  cases h with
  | value _ => rfl
  | choice _ => rfl
  | record _ h => exact order_schemaAt h

theorem Part.order_items (h : Part c o outer n) (hi : n.items = some item) : item.order = none := by
  cases h with
  | message h => simp [(isObject_schemaAt h).items] at hi
  | property hf h => exact (element_of_items hf h hi).order
  | value _ => cases hi
  | choice _ => cases hi

theorem madeFrom_asProperty (hf : f ∈ a.message.fields) (h : fieldAt c o outer a f = .ok n) :
    (n.asProperty f).MadeFrom f where
  title := titled_annotate _ _ _
  order := rfl
  items hr hmessage hgroup := by
    obtain ⟨element, helement, hrepeats⟩ := repeats_fieldAt hf hr h
    refine ⟨element, hrepeats.items, ?_⟩
    cases helement with
    | value _ => rfl
    | choice _ => rfl
    | record hb _ => exact absurd hb.kind (not_or.2 ⟨hmessage, hgroup⟩)

theorem Node.WellShaped.type_of_property (h : n.WellShaped o) (hp : p ∈ n.properties.values) :
    n.type = .single .object := by
  obtain ⟨form, hform, -⟩ := h.form
  cases form with
  | object => exact hform.type
  | array => rw [hform.properties] at hp; cases hp
  | scalar => rw [hform.properties] at hp; cases hp

/-- Every property in a schema is made from a field of a message in it. -/
theorem exists_field_of_property {key : String} (h : schemaAt c o outer a = .ok top) (hn : top.Within n)
    (hp : n.properties.get? key = some p) : ∃ b f fn, ReflTransGen (Inlines c) a b ∧ f ∈ b.message.fields ∧
      (key = f.name ∨ (o.protoAndJsonFieldnames = true ∧ key = f.jsonName)) ∧
      fieldAt c o outer b f = .ok fn ∧ p = fn.asProperty f := by
  have ht := (part_of_within h hn).wellShaped.type_of_property (Dictionary.mem_values_of_get? hp)
  obtain ⟨b, record, hb, hrecord, hproperties⟩ := exists_schemaAt_of_object h hn ht
  rw [hproperties] at hp
  obtain ⟨f, fn, hf, hfn, rfl⟩ := (get?_properties_iff hrecord key).1 hp
  exact ⟨b, f, fn, hb, Message.mem_of_fieldUnder? hf, mem_fieldNames.1 (Message.fieldUnder?_eq_some_iff.1 hf).1,
    hfn, rfl⟩

/-- In the schema of a message, the message and each property at any depth has a title, which is not empty if
the name has any character but separators. A property has the number of its field, and neither the message nor
the items of an array have one. The items of a repeated field of plain values or choices have no annotations,
and on every node the annotations go together. -/
theorem annotations_of_within {scope : Scope} {d : Declaration} (h : ofMessage c o scope d outer = .ok top) :
    top.Titled d.message.name ∧ top.order = none ∧
    ∀ n, top.Within n → n.Coherent ∧ (∀ item, n.items = some item → item.order = none) ∧
      ∀ key p, n.properties.get? key = some p → ∃ b f fn, ReflTransGen (Inlines c) ⟨scope, d⟩ b ∧
        f ∈ b.message.fields ∧ (key = f.name ∨ (o.protoAndJsonFieldnames = true ∧ key = f.jsonName)) ∧
        fieldAt c o outer b f = .ok fn ∧ p = fn.asProperty f ∧ p.MadeFrom f := by
  have hschema : schemaAt c o outer ⟨scope, d⟩ = .ok top := h
  refine ⟨titled_schemaAt hschema, order_schemaAt hschema, fun n hn => ?_⟩
  have hpart := part_of_within hschema hn
  refine ⟨hpart.coherent, fun item hi => hpart.order_items hi, fun key p hp => ?_⟩
  obtain ⟨b, f, fn, hb, hf, hkey, hfn, rfl⟩ := exists_field_of_property hschema hn hp
  exact ⟨b, f, fn, hb, hf, hkey, hfn, rfl, madeFrom_asProperty hf hfn⟩

def serial : Field := ⟨"serial", "serial", 1, .int32, .optional, "", some ⟨some "@autoincrement @min=1", none, []⟩⟩

def seats : Field := ⟨"seats", "seats", 2, .string, .repeated, "", some ⟨some "@index @max=4", none, []⟩⟩

def ticket : Declaration := ⟨[0], "Ticket", [serial, seats], [], [], false, none⟩

/-- The bound of the serial is one on its value; that of the seats is not one on each of them. -/
theorem annotations_of_within_ticket : ∃ top p q seat, ofMessage .empty {} [] ticket [] = .ok top ∧
    top.Titled "Ticket" ∧ top.properties.get? "serial" = some p ∧ p.annotations.minimum = some 1 ∧
    p.annotations.primaryKey = true ∧ top.properties.get? "seats" = some q ∧ q.annotations.maxLength = some 4 ∧
    q.annotations.required = true ∧ q.items = some seat ∧ seat.annotations = {} := by
  have hserial : fieldAt .empty {} [] ⟨[], ticket⟩ serial = .ok (plain .integer) := fieldAt_value rfl
  have hseats : fieldAt .empty {} [] ⟨[], ticket⟩ seats = .ok (arrayOf {} (plain .string)) := fieldAt_value rfl
  have htop : schemaAt .empty {} [] ⟨[], ticket⟩ = .ok _ :=
    schemaAt_eq_ok_iff.2 ⟨[(serial, _), (seats, _)], rfl,
      List.forall_mem_cons.2 ⟨hserial, List.forall_mem_singleton.2 hseats⟩, rfl⟩
  obtain ⟨htitle, -, hwithin⟩ := annotations_of_within htop
  have hp := (get?_properties_iff htop "serial").2 ⟨serial, _, rfl, hserial, rfl⟩
  have hq := (get?_properties_iff htop "seats").2 ⟨seats, _, rfl, hseats, rfl⟩
  have hprimary := (hwithin _ (.property .top (Dictionary.mem_values_of_get? hp))).1.primaryKey (by decide)
  have hrequired := (hwithin _ (.property .top (Dictionary.mem_values_of_get? hq))).1.required (by decide)
  obtain ⟨b, f, fn, hb, hf, hkey, -, -, hmade⟩ := (hwithin _ .top).2.2 _ _ hq
  -- No field of a ticket is of a message, so that it inlines none.
  obtain rfl | ⟨_, ⟨g, hg⟩, -⟩ := hb.cases_head
  · obtain rfl | rfl : f = serial ∨ f = seats := by simpa [Site.message, ticket] using hf
    · exact absurd hkey (by decide)
    · obtain ⟨seat, hseat, hplain⟩ := hmade.items rfl (by decide) (by decide)
      exact ⟨_, _, _, seat, htop, htitle, hp, by decide, hprimary, hq, by decide, hrequired, hseat, hplain⟩
  · obtain rfl | rfl : g = serial ∨ g = seats := by simpa [Site.message, ticket] using hg.mem
    · exact absurd hg.kind (by decide)
    · exact absurd hg.kind (by decide)

end ProtoSchema.Schema
