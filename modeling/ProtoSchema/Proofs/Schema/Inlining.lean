import ProtoSchema.Proofs.Expansion.Context
import ProtoSchema.Schema.Conversion
/-!
# Schemas inside schemas

The schema of a message is put together from the nodes of its fields
(`schemaAt_eq_ok_iff`), and the node of a field that refers to a message from the
schema that this message has on its own (`fieldAt_record`). Which messages lead
here makes no difference, so every property at any depth is the node of a field
by itself with the directives of that field (`property?_eq_some_iff`).

`Shows` names a property by the keys that lead to it. Where several fields write
one key, the last of them stands there (`Message.fieldUnder?`).
-/

namespace ProtoSchema

open Relation

namespace Schema

namespace Node

/-- The object that a node describes, or describes the items of. -/
def record (n : Node) : Node := n.items.getD n

/-- The property that some keys lead to, each in the object of the one before. -/
def property? (n : Node) : List String → Option Node
  | [] => some n
  | key :: keys => (n.record.properties.get? key).bind (·.property? keys)

/-- What some fields write into the properties of their message, each with the node made of it. -/
def written (o : Options) (nodes : List (Field × Node)) : List (String × Node) :=
  nodes.flatMap fun e => (fieldNames o e.1).map (·, e.2.asProperty e.1)

theorem written_cons (o : Options) (e : Field × Node) (nodes : List (Field × Node)) :
    written o (e :: nodes) = (fieldNames o e.1).map (·, e.2.asProperty e.1) ++ written o nodes := rfl

/-! ## The nodes that are built -/

@[simp] theorem plain_items (kind : Kind) : (plain kind).items = none := rfl

@[simp] theorem plain_properties (kind : Kind) : (plain kind).properties = .empty := rfl

@[simp] theorem arrayOf_items (o : Options) (item : Node) : (arrayOf o item).items = some item := rfl

@[simp] theorem arrayOf_properties (o : Options) (item : Node) : (arrayOf o item).properties = .empty := rfl

@[simp] theorem choice_items (enums : List Enum) : (choice enums).items = none := rfl

@[simp] theorem choice_properties (enums : List Enum) : (choice enums).properties = .empty := rfl

@[simp] theorem ofProperties_items (o : Options) (m : Message) (l : List (String × Node)) :
    (ofProperties o m l).items = none := rfl

@[simp] theorem ofProperties_properties (o : Options) (m : Message) (l : List (String × Node)) :
    (ofProperties o m l).properties = .ofList l := rfl

@[simp] theorem asProperty_type (n : Node) (f : Field) : (n.asProperty f).type = n.type := rfl

@[simp] theorem asProperty_items (n : Node) (f : Field) : (n.asProperty f).items = n.items := rfl

@[simp] theorem asProperty_properties (n : Node) (f : Field) : (n.asProperty f).properties = n.properties := rfl

/-- A repeated field and a map hold the object in an array, and any other field its properties. -/
theorem ofRecord_items {target : Message} {f : Field} (record : Node)
    (h : target.mapEntry = true ∨ f.isRepeated = true) : (ofRecord target f record).items = some record := by
  simp [ofRecord, h]

theorem ofRecord_properties {target : Message} {f : Field} (record : Node)
    (h : ¬ (target.mapEntry = true ∨ f.isRepeated = true)) :
    (ofRecord target f record).items = none ∧ (ofRecord target f record).properties = record.properties := by
  simp [ofRecord, h]

/-- Whichever way, the properties of the object are those found at the field. -/
theorem ofRecord_record (target : Message) (f : Field) (record : Node) :
    ((ofRecord target f record).asProperty f).record.properties = record.properties := by
  by_cases hr : target.mapEntry = true ∨ f.isRepeated = true
  · simp [Node.record, ofRecord_items record hr]
  · simp [Node.record, ofRecord_properties record hr]

end Node

open Node

/-! ## Fields -/

variable (c : Catalog) (o : Options) (outer : List Enum)

/-- The schema of a message on its own. -/
def schemaAt (a : Site) : Except ConversionError Node := ofMessage c o a.scope a.declaration outer

/-- The node of a field of a message, where only that message is being entered. -/
def fieldAt (a : Site) (f : Field) : Except ConversionError Node := ofField c o a.scope f a.declaration outer

variable {c o outer} {a b : Site} {f : Field} {n p : Node}

/-- Whatever messages lead to a message, its schema comes out as it does on its own. -/
theorem schemaAt_of_expand {path : List Place} {x : Expansion}
    (h : c.expand (a.declaration.place :: path) a.scope a.message a.message.fields = .ok x) :
    schemaAt c o outer a = .ok (ofProperties o a.message (ofExpansion o outer a.message x)) := by
  have hown : c.expandMessage a.scope a.declaration = .ok x :=
    Catalog.expandVisit_of_subset ⟨_, a.scope, a.message⟩ [a.declaration.place] (by simp) x h
  exact map_eq_ok_iff.2 ⟨x, hown, rfl⟩

theorem schemaAt_isOk_iff : (∃ n, schemaAt c o outer a = .ok n) ↔
    ∃ x, c.expandMessage a.scope a.declaration = .ok x := by
  unfold schemaAt ofMessage
  cases c.expandMessage a.scope a.declaration <;> simp [Except.map]

theorem fieldAt_choice (h : f.kind.role = .choice) : fieldAt c o outer a f =
    .ok (if f.isRepeated then arrayOf o (choice (choices outer a.message f))
      else choice (choices outer a.message f)) :=
  map_eq_ok_iff.2 ⟨.choice, Catalog.content_choice h, by simp only [ofContent]; rfl⟩

/-- All that the node of a field can be. -/
theorem fieldAt_cases (hf : f ∈ a.message.fields) (h : fieldAt c o outer a f = .ok n) :
    (∃ kind, f.kind.role = .value kind ∧ n = if f.isRepeated then arrayOf o (plain kind) else plain kind) ∨
    (f.kind.role = .choice ∧ n = if f.isRepeated then arrayOf o (choice (choices outer a.message f))
      else choice (choices outer a.message f)) ∨
    ∃ b record, RefersTo c a f b ∧ schemaAt c o outer b = .ok record ∧ n = ofRecord b.message f record := by
  obtain ⟨x, hx, rfl⟩ := map_eq_ok_iff.1 h
  obtain ⟨kind, hr, rfl⟩ | ⟨hr, rfl⟩ | ⟨target, inner, fields, hr, hl, hp, hfields, rfl⟩ :=
    Catalog.content_cases hx
  · exact .inl ⟨kind, hr, by simp only [ofContent]⟩
  · exact .inr (.inl ⟨hr, by simp only [ofContent]; rfl⟩)
  · refine .inr (.inr ⟨⟨inner, target⟩,
      ofProperties o target.message (ofExpansion o outer target.message fields), ⟨hf, FieldKind.role_eq_record.1 hr, hl⟩, ?_, by simp only [ofContent]; rfl⟩)
    -- On its own the message is entered first, which is one place less on the path.
    exact schemaAt_of_expand hfields

/-! ## Messages -/

theorem expand_eq_ok_iff_written {path : List Place} {scope : Scope} {owner : Message} {fields : List Field}
    {l : List (String × Node)} :
    (∃ x, c.expand path scope owner fields = .ok x ∧ ofExpansion o outer owner x = l) ↔
      ∃ nodes : List (Field × Node), nodes.map Prod.fst = fields ∧
        (∀ e ∈ nodes, (c.content path scope owner e.1).map (ofContent o outer owner e.1) = .ok e.2) ∧
        written o nodes = l := by
  induction fields generalizing l with
  | nil =>
    rw [Catalog.expand_nil]
    constructor
    · rintro ⟨x, hx, rfl⟩
      obtain rfl := Except.ok.inj hx
      exact ⟨[], rfl, by simp, by simp [ofExpansion, written]⟩
    · rintro ⟨nodes, hn, -, rfl⟩
      obtain rfl := List.map_eq_nil_iff.1 hn
      exact ⟨.done, rfl, by simp [ofExpansion, written]⟩
  | cons f rest ih =>
    rw [Catalog.expand_cons]
    constructor
    · rintro ⟨x, hx, rfl⟩
      obtain ⟨y, hy, hx⟩ := bind_eq_ok_iff.1 hx
      obtain ⟨others, hothers, rfl⟩ := map_eq_ok_iff.1 hx
      obtain ⟨nodes, rfl, hnodes, hw⟩ := ih.1 ⟨others, hothers, rfl⟩
      refine ⟨(f, ofContent o outer owner f y) :: nodes, rfl, List.forall_mem_cons.2 ⟨?_, hnodes⟩, ?_⟩
      · exact map_eq_ok_iff.2 ⟨y, hy, rfl⟩
      · simp only [ofExpansion, written_cons, hw]
    · rintro ⟨_ | ⟨⟨g, n⟩, nodes⟩, hn, hnodes, rfl⟩
      · cases hn
      · obtain ⟨rfl, rfl⟩ := List.cons.inj hn
        obtain ⟨hg, hnodes⟩ := List.forall_mem_cons.1 hnodes
        obtain ⟨y, hy, hn⟩ := map_eq_ok_iff.1 hg
        obtain ⟨others, hothers, hw⟩ := ih.2 ⟨nodes, rfl, hnodes, rfl⟩
        refine ⟨.field g y others, bind_eq_ok_iff.2 ⟨y, hy, map_eq_ok_iff.2 ⟨others, hothers, rfl⟩⟩, ?_⟩
        simp only [ofExpansion, written_cons, hw, hn]

/-- A message has a schema when each of its fields has a node, and the schema holds those nodes. -/
theorem schemaAt_eq_ok_iff : schemaAt c o outer a = .ok n ↔ ∃ nodes : List (Field × Node),
    nodes.map Prod.fst = a.message.fields ∧ (∀ e ∈ nodes, fieldAt c o outer a e.1 = .ok e.2) ∧
      n = ofProperties o a.message (written o nodes) := by
  constructor
  · intro h
    obtain ⟨x, hx, rfl⟩ := map_eq_ok_iff.1 h
    obtain ⟨nodes, hfields, hnodes, hw⟩ := expand_eq_ok_iff_written.1 ⟨x, hx, rfl⟩
    exact ⟨nodes, hfields, hnodes, congrArg (ofProperties o a.message) hw.symm⟩
  · rintro ⟨nodes, hfields, hnodes, rfl⟩
    obtain ⟨x, hx, hw⟩ := expand_eq_ok_iff_written.2 ⟨nodes, hfields, hnodes, rfl⟩
    exact map_eq_ok_iff.2 ⟨x, hx, congrArg (ofProperties o a.message) hw⟩

theorem exists_fieldAt (h : schemaAt c o outer a = .ok n) (hf : f ∈ a.message.fields) :
    ∃ fn, fieldAt c o outer a f = .ok fn := by
  obtain ⟨nodes, hfields, hnodes, -⟩ := schemaAt_eq_ok_iff.1 h
  rw [← hfields] at hf
  obtain ⟨e, he, rfl⟩ := List.mem_map.1 hf
  exact ⟨e.2, hnodes e he⟩

/-- A field that refers to a message has the schema which this message has on its own. -/
theorem exists_record (h : schemaAt c o outer a = .ok n) (hf : f ∈ a.message.fields)
    (hk : f.kind = .message ∨ f.kind = .group) : ∃ b record, RefersTo c a f b ∧
      schemaAt c o outer b = .ok record ∧ fieldAt c o outer a f = .ok (ofRecord b.message f record) := by
  obtain ⟨fn, hfn⟩ := exists_fieldAt h hf
  have hr := FieldKind.role_eq_record.2 hk
  obtain ⟨kind, hr', -⟩ | ⟨hr', -⟩ | ⟨b, record, hb, hrecord, rfl⟩ := fieldAt_cases hf hfn
  · simp [hr] at hr'
  · simp [hr] at hr'
  · exact ⟨b, record, hb, hrecord, hfn⟩

theorem exists_schemaAt_of_reaches (h : schemaAt c o outer a = .ok n) (hb : ReflTransGen (Inlines c) a b) :
    ∃ n', schemaAt c o outer b = .ok n' := by
  induction hb with
  | refl => exact ⟨n, h⟩
  | tail _ hi ih =>
    obtain ⟨n', hn'⟩ := ih
    obtain ⟨f, hf⟩ := hi
    obtain ⟨b', record, hb', hrecord, -⟩ := exists_record hn' hf.mem hf.kind
    obtain rfl := hf.unique hb'
    exact ⟨record, hrecord⟩

end Schema

/-! ## Properties by their keys -/

/-- The field whose node stands under a key in the object of a message, the last one to write there. -/
def Message.fieldUnder? (m : Message) (o : Options) (key : String) : Option Field :=
  m.fields.reverse.find? fun f => (Schema.Node.fieldNames o f).contains key

theorem Message.mem_of_fieldUnder? {m : Message} {o : Options} {key : String} {f : Field}
    (h : m.fieldUnder? o key = some f) : f ∈ m.fields :=
  List.mem_reverse.1 (List.mem_of_find?_eq_some h)

/-- In the schema of the message at the first site, some keys lead to the property of a field of the
message at the second: each key is one of a field, which refers to the message of the next key. -/
inductive Shows (c : Catalog) (o : Options) : Site → List String → Site → Field → Prop where
  | here {a : Site} {key : String} {f : Field} (hf : a.message.fieldUnder? o key = some f) :
      Shows c o a [key] a f
  | inside {a b d : Site} {key : String} {keys : List String} {f g : Field}
      (hf : a.message.fieldUnder? o key = some f) (hr : RefersTo c a f b) (h : Shows c o b keys d g) :
      Shows c o a (key :: keys) d g

namespace Shows
variable {c : Catalog} {o : Options} {a b : Site} {keys : List String} {f : Field}

theorem mem (h : Shows c o a keys b f) : f ∈ b.message.fields := by
  induction h with
  | here hf => exact Message.mem_of_fieldUnder? hf
  | inside _ _ _ ih => exact ih

theorem reaches (h : Shows c o a keys b f) : ReflTransGen (Inlines c) a b := by
  induction h with
  | here _ => exact .refl
  | inside _ hr _ ih => exact .head ⟨_, hr⟩ ih

end Shows

namespace Schema

open Node

variable {c : Catalog} {o : Options} {outer : List Enum} {a b : Site} {f : Field} {n p : Node}

theorem get?_properties_iff (h : schemaAt c o outer a = .ok n) (key : String) :
    n.properties.get? key = some p ↔ ∃ f fn, a.message.fieldUnder? o key = some f ∧
      fieldAt c o outer a f = .ok fn ∧ p = fn.asProperty f := by
  obtain ⟨nodes, hfields, hnodes, rfl⟩ := schemaAt_eq_ok_iff.1 h
  rw [ofProperties_properties, written, Dictionary.get?_ofList_flatMap, Message.fieldUnder?, ← hfields,
    ← List.map_reverse, List.find?_map]
  constructor
  · intro hp
    obtain ⟨e, he, rfl⟩ := Option.map_eq_some_iff.1 hp
    refine ⟨e.1, e.2, congrArg (Option.map Prod.fst) he, hnodes e ?_, rfl⟩
    exact List.mem_reverse.1 (List.mem_of_find?_eq_some he)
  · rintro ⟨f, fn, hf, hfn, rfl⟩
    obtain ⟨e, he, rfl⟩ := Option.map_eq_some_iff.1 hf
    have hmem := List.mem_reverse.1 (List.mem_of_find?_eq_some he)
    obtain rfl := Except.ok.inj ((hnodes e hmem).symm.trans hfn)
    exact congrArg (Option.map _) he

theorem exists_of_mem_properties (h : schemaAt c o outer a = .ok n) (hp : p ∈ n.properties.values) :
    ∃ f ∈ a.message.fields, ∃ fn, fieldAt c o outer a f = .ok fn ∧ p = fn.asProperty f := by
  obtain ⟨nodes, hfields, hnodes, rfl⟩ := schemaAt_eq_ok_iff.1 h
  obtain ⟨entry, hentry, rfl⟩ := List.mem_map.1 hp
  obtain ⟨e, he, hkey⟩ := List.mem_flatMap.1 (Dictionary.mem_of_mem_ofList hentry)
  obtain ⟨key, -, rfl⟩ := List.mem_map.1 hkey
  exact ⟨e.1, hfields ▸ List.mem_map_of_mem he, e.2, hnodes e he, rfl⟩

theorem schemaAt_record (h : schemaAt c o outer a = .ok n) : n.record = n := by
  obtain ⟨nodes, -, -, rfl⟩ := schemaAt_eq_ok_iff.1 h
  rfl

theorem property?_schemaAt (h : schemaAt c o outer a = .ok n) (key : String) (keys : List String) :
    n.property? (key :: keys) = (n.properties.get? key).bind (·.property? keys) := by
  rw [property?, schemaAt_record h]

/-- Below a property stand the properties of the message that its field refers to. -/
theorem property?_fieldAt {fn : Node} (hf : f ∈ a.message.fields) (h : fieldAt c o outer a f = .ok fn)
    (key : String) (keys : List String) : (fn.asProperty f).property? (key :: keys) = some p ↔
      ∃ b record, RefersTo c a f b ∧ schemaAt c o outer b = .ok record ∧
        record.property? (key :: keys) = some p := by
  have hnone : f.kind.role ≠ .record → ∀ b, ¬ RefersTo c a f b := fun hr b hb =>
    hr (FieldKind.role_eq_record.2 hb.kind)
  obtain ⟨kind, hr, rfl⟩ | ⟨hr, rfl⟩ | ⟨b, record, hb, hrecord, rfl⟩ := fieldAt_cases hf h
  · by_cases hrep : f.isRepeated = true <;> simp [property?, record, hrep, hnone (by simp [hr])]
  · by_cases hrep : f.isRepeated = true <;> simp [property?, record, hrep, hnone (by simp [hr])]
  · rw [property?, ofRecord_record, ← property?_schemaAt hrecord]
    constructor
    · exact fun hp => ⟨b, record, hb, hrecord, hp⟩
    · rintro ⟨b', record', hb', hrecord', hp⟩
      obtain rfl := hb.unique hb'
      obtain rfl := Except.ok.inj (hrecord.symm.trans hrecord')
      exact hp

/-- The properties of a schema, at any depth, are the nodes that the fields shown there have in the
messages that declare them. -/
theorem property?_eq_some_iff (h : schemaAt c o outer a = .ok n) (key : String) (keys : List String) :
    n.property? (key :: keys) = some p ↔ ∃ b f fn, Shows c o a (key :: keys) b f ∧
      fieldAt c o outer b f = .ok fn ∧ p = fn.asProperty f := by
  induction keys generalizing a n key with
  | nil =>
    have hp : n.property? [key] = n.properties.get? key := by
      rw [property?_schemaAt h]
      simp [property?]
    rw [hp, get?_properties_iff h]
    constructor
    · rintro ⟨f, fn, hf, hfn, rfl⟩
      exact ⟨a, f, fn, .here hf, hfn, rfl⟩
    · rintro ⟨b, f, fn, hs, hfn, rfl⟩
      cases hs with
      | here hf => exact ⟨f, fn, hf, hfn, rfl⟩
      | inside _ _ hs => cases hs
  | cons next keys ih =>
    rw [property?_schemaAt h, Option.bind_eq_some_iff]
    constructor
    · rintro ⟨q, hq, hp⟩
      obtain ⟨f, fn, hf, hfn, rfl⟩ := (get?_properties_iff h key).1 hq
      obtain ⟨b, record, hb, hrecord, hp⟩ :=
        (property?_fieldAt (Message.mem_of_fieldUnder? hf) hfn next keys).1 hp
      obtain ⟨d, g, gn, hs, hgn, rfl⟩ := (ih hrecord next).1 hp
      exact ⟨d, g, gn, .inside hf hb hs, hgn, rfl⟩
    · rintro ⟨d, g, gn, hs, hgn, rfl⟩
      cases hs with
      | inside hf hb hs =>
        obtain ⟨b, record, hb', hrecord, hfn⟩ := exists_record h hb.mem hb.kind
        obtain rfl := hb.unique hb'
        refine ⟨_, (get?_properties_iff h key).2 ⟨_, _, hf, hfn, rfl⟩, ?_⟩
        exact (property?_fieldAt hb.mem hfn next keys).2
          ⟨_, record, hb, hrecord, (ih hrecord next).2 ⟨d, g, gn, hs, hgn, rfl⟩⟩

/-- Inlining is free of context. Below a message that has a schema, whatever leads to a field that
refers to a message, the message has a schema on its own, and the field holds just that: in an array if
it is repeated or a map, and else its properties. So the properties at any depth are the nodes of fields
on their own, and a message followed from any others has the schema that it has on its own. -/
theorem schemaAt_inlines_standalone (h : schemaAt c o outer a = .ok n) :
    (∀ b, ReflTransGen (Inlines c) a b → ∀ f ∈ b.message.fields, f.kind = .message ∨ f.kind = .group →
      ∃ d record fn, c.lookup b.scope f.typeName = some (d.declaration, d.scope) ∧
        schemaAt c o outer d = .ok record ∧ fieldAt c o outer b f = .ok fn ∧
        (d.message.mapEntry = true ∨ f.isRepeated = true → fn.items = some record) ∧
        (¬ (d.message.mapEntry = true ∨ f.isRepeated = true) →
          fn.items = none ∧ fn.properties = record.properties)) ∧
    (∀ key keys p, n.property? (key :: keys) = some p ↔ ∃ b f fn, Shows c o a (key :: keys) b f ∧
      fieldAt c o outer b f = .ok fn ∧ p = fn.asProperty f) ∧
    ∀ (b : Site) path x,
      c.expand (b.declaration.place :: path) b.scope b.message b.message.fields = .ok x →
        schemaAt c o outer b = .ok (ofProperties o b.message (ofExpansion o outer b.message x)) := by
  refine ⟨fun b hb f hf hk => ?_, fun key keys p => property?_eq_some_iff h key keys, fun b path x hx =>
    schemaAt_of_expand hx⟩
  obtain ⟨n', hn'⟩ := exists_schemaAt_of_reaches h hb
  obtain ⟨d, record, hd, hrecord, hfn⟩ := exists_record hn' hf hk
  exact ⟨d, record, _, hd.found, hrecord, hfn, ofRecord_items record, ofRecord_properties record⟩

/-! ## An order with lines that have a price -/

def units : Field := ⟨"units", "units", 1, .int64, .optional, "", none⟩

def price : Field := ⟨"price", "price", 1, .message, .optional, ".bank.Money", none⟩

def lines : Field := ⟨"lines", "lines", 1, .message, .repeated, "Line", none⟩

def money : Declaration := ⟨[2], "Money", [units], [], [], false, none⟩

def line : Declaration := ⟨[1], "Line", [price], [], [], false, none⟩

def order : Declaration := ⟨[0], "Order", [lines], [], [], false, none⟩

def shop : Catalog := ((Catalog.empty.insert "shop" order).insert "shop" line).insert "bank" money

theorem shop_lines : shop.lookup ["shop"] "Line" = some (line, ["shop"]) := rfl

theorem shop_price : shop.lookup ["shop"] ".bank.Money" = some (money, ["bank"]) := rfl

theorem exists_schemaAt_order : ∃ n, schemaAt shop {} [] ⟨["shop"], order⟩ = .ok n := by
  have hmoney : ∀ path, ∃ x, shop.expand path ["bank"] money.message money.message.fields = .ok x := fun path =>
    Catalog.exists_expand_singleton ⟨_, Catalog.content_value rfl⟩
  have hline : ∃ x, shop.expand [line.place, order.place] ["shop"] line.message line.message.fields = .ok x :=
    Catalog.exists_expand_singleton (Catalog.exists_content_record rfl shop_price (by decide) (hmoney _))
  exact schemaAt_isOk_iff.2
    (Catalog.exists_expand_singleton (Catalog.exists_content_record rfl shop_lines (by decide) hline))

theorem schemaAt_inlines_standalone_order : ∃ n record fn,
    schemaAt shop {} [] ⟨["shop"], order⟩ = .ok n ∧ schemaAt shop {} [] ⟨["bank"], money⟩ = .ok record ∧
    fieldAt shop {} [] ⟨["shop"], line⟩ price = .ok fn ∧ fn.properties = record.properties ∧
    n.property? ["lines", "price"] = some (fn.asProperty price) := by
  have hlines : RefersTo shop ⟨["shop"], order⟩ lines ⟨["shop"], line⟩ := ⟨.head _, .inl rfl, shop_lines⟩
  have hprice : RefersTo shop ⟨["shop"], line⟩ price ⟨["bank"], money⟩ := ⟨.head _, .inl rfl, shop_price⟩
  obtain ⟨n, hn⟩ := exists_schemaAt_order
  have h := schemaAt_inlines_standalone hn
  obtain ⟨d, record, fn, hd, hrecord, hfn, -, hproperties⟩ :=
    h.1 _ (.single ⟨_, hlines⟩) _ hprice.mem hprice.kind
  obtain rfl := hprice.unique ⟨hprice.mem, hprice.kind, hd⟩
  refine ⟨n, record, fn, hn, hrecord, hfn, (hproperties (by decide)).2, ?_⟩
  exact (h.2.1 _ _ _).2 ⟨_, _, fn, .inside (by decide) hlines (.here (by decide)), hfn, rfl⟩

end Schema
end ProtoSchema
