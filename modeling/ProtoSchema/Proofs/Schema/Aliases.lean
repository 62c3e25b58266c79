import ProtoSchema.Proofs.Schema.Everywhere
import ProtoSchema.Proofs.Schema.Names
import ProtoSchema.Proofs.Schema.Permissions
/-!
# Fields under both their names

Where names are told apart (`Message.NamesApart`), asking for JSON names only adds keys. Each
field then stands under both its names with one node, and without what stands under JSON names
the schema is the one made when they are not asked for (`withoutAliases_schema`). Errors are the
same in any case.

Which keys are JSON names depends on the message that an object is made from, so `pruned` goes
through a tree with a state that tells where it is.
-/

namespace ProtoSchema

open Relation Schema Schema.Node

namespace Schema.Node
section Pruned
variable {σ : Type} (next : σ → String → Option σ)

mutual

/-- Takes properties away, at every depth. Where the state is `s`, a key stays if `next s` has a state for
what stands under it. -/
def pruned (s : σ) : Node → Node
  | ⟨type, a, ⟨properties⟩, items, additionalProperties, enumValues, optionLabels, order⟩ =>
    ⟨type, a, ⟨prunedIn s properties⟩, prunedItems s items, additionalProperties, enumValues, optionLabels, order⟩

def prunedIn (s : σ) : List (String × Node) → List (String × Node)
  | [] => []
  | (key, n) :: rest =>
    match next s key with
    | some t => (key, n.pruned t) :: prunedIn s rest
    | none => prunedIn s rest

def prunedItems (s : σ) : Option Node → Option Node
  | none => none
  | some n => some (n.pruned s)

end

theorem prunedIn_cons (s : σ) (key : String) (n : Node) (rest : List (String × Node)) :
    prunedIn next s ((key, n) :: rest) =
      ((next s key).map fun t => (key, n.pruned next t)).toList ++ prunedIn next s rest := by
  rw [prunedIn]
  cases next s key <;> rfl

theorem lookup_prunedIn (s : σ) (key : String) (l : List (String × Node)) :
    (prunedIn next s l).lookup key = (next s key).bind fun t => (l.lookup key).map (pruned next t) := by
  induction l with
  | nil => cases next s key <;> simp [prunedIn]
  | cons e l ih =>
    obtain ⟨k, n⟩ := e
    rw [prunedIn_cons, List.lookup_append, ih, Dictionary.lookup_cons]
    by_cases hk : key = k
    · subst hk
      cases next s key <;> simp
    · cases next s k <;> simp [hk, Dictionary.lookup_cons]

theorem prunedIn_sublist (s : σ) (l : List (String × Node)) :
    ((prunedIn next s l).map Prod.fst).Sublist (l.map Prod.fst) := by
  induction l with
  | nil => simp [prunedIn]
  | cons e l ih =>
    obtain ⟨key, n⟩ := e
    rw [prunedIn_cons]
    cases next s key with
    | none => exact ih.cons key
    | some t => exact ih.cons_cons key

/-- What is left of the properties of a node. -/
def prunedProperties (s : σ) (d : Dictionary Node) : Dictionary Node := ⟨prunedIn next s d.entries⟩

theorem get?_prunedProperties (s : σ) (d : Dictionary Node) (key : String) :
    (prunedProperties next s d).get? key = (next s key).bind fun t => (d.get? key).map (pruned next t) :=
  lookup_prunedIn next s key d.entries

theorem ascending_prunedProperties (s : σ) {d : Dictionary Node} (h : d.Ascending) :
    (prunedProperties next s d).Ascending := by
  have hkeys : (d.entries.map Prod.fst).Pairwise (· < ·) := List.pairwise_map.2 h
  exact List.pairwise_map.1 (hkeys.sublist (prunedIn_sublist next s d.entries))

theorem pruned_eq (s : σ) (n : Node) : n.pruned next s =
    n.withParts (prunedProperties next s n.properties) (n.items.map (pruned next s)) := by
  obtain ⟨type, a, ⟨properties⟩, items, additionalProperties, enumValues, optionLabels, order⟩ := n
  cases items <;> rw [pruned, prunedItems] <;> rfl

theorem pruned_asProperty (s : σ) (n : Node) (f : Field) :
    (n.asProperty f).pruned next s = (n.pruned next s).asProperty f := by
  rw [pruned_eq, pruned_eq]
  rfl

theorem pruned_plain (s : σ) (kind : Kind) : (plain kind).pruned next s = plain kind := by
  rw [pruned_eq]
  rfl

theorem pruned_choice (s : σ) (enums : List Enum) : (choice enums).pruned next s = choice enums := by
  rw [pruned_eq]
  rfl

theorem pruned_arrayOf (s : σ) (o : Options) (item : Node) :
    (arrayOf o item).pruned next s = arrayOf o (item.pruned next s) := by
  rw [pruned_eq]
  rfl

theorem pruned_ofRecord (s : σ) (target : Message) (f : Field) (record : Node) :
    (ofRecord target f record).pruned next s = ofRecord target f (record.pruned next s) := by
  rw [pruned_eq]
  unfold ofRecord
  split
  · rfl
  · rw [pruned_eq next s record]
    rfl

end Pruned
end Schema.Node

namespace Message

/-- Fields are told apart by either of their names, and none has the name of another as its JSON name. -/
structure NamesApart (m : Message) : Prop where
  names : (m.fields.map Field.name).Nodup
  jsonNames : (m.fields.map Field.jsonName).Nodup
  apart : ∀ f ∈ m.fields, ∀ g ∈ m.fields, f.jsonName = g.name → f = g

/-- The key is the JSON name of a field that has another name. -/
def isAlias (m : Message) (key : String) : Bool := m.fields.any fun f => f.jsonName == key && f.name != key

variable {m : Message} {o : Options} {f g : Field} {key : String}

theorem isAlias_iff : m.isAlias key = true ↔ ∃ f ∈ m.fields, f.jsonName = key ∧ f.name ≠ key := by
  simp [isAlias]

namespace NamesApart
variable (h : m.NamesApart)
include h

/-- No two fields write one key. -/
theorem eq_of_mem_fieldNames (hf : f ∈ m.fields) (hg : g ∈ m.fields) (hkf : key ∈ fieldNames o f)
    (hkg : key ∈ fieldNames o g) : f = g := by
  rcases mem_fieldNames.1 hkf with rfl | ⟨-, rfl⟩ <;> rcases mem_fieldNames.1 hkg with hk | ⟨-, hk⟩
  · exact eq_of_name_eq h.names hg hf hk
  · exact (h.apart g hg f hf hk.symm).symm
  · exact h.apart f hf g hg hk
  · exact List.inj_on_of_nodup_map h.jsonNames hf hg hk

theorem fieldUnder?_iff : m.fieldUnder? o key = some f ↔ f ∈ m.fields ∧ key ∈ fieldNames o f := by
  constructor
  · exact fun hf => ⟨mem_of_fieldUnder? hf, (fieldUnder?_eq_some_iff.1 hf).1⟩
  · rintro ⟨hf, hk⟩
    obtain ⟨g, hg⟩ := exists_fieldUnder? hf hk
    have hkg := (fieldUnder?_eq_some_iff.1 hg).1
    rw [hg, h.eq_of_mem_fieldNames hf (mem_of_fieldUnder? hg) hk hkg]

/-- The name of a field is the JSON name of no other. -/
theorem isAlias_name (hf : f ∈ m.fields) : m.isAlias f.name = false := by
  rw [Bool.eq_false_iff, Ne, isAlias_iff]
  rintro ⟨g, hg, hjson, hname⟩
  exact hname (congrArg Field.name (h.apart g hg f hf hjson))

theorem find?_name (hf : f ∈ m.fields) : m.fields.find? (fun g => g.name == f.name) = some f := by
  obtain ⟨g, hg⟩ : ∃ g, m.fields.find? (fun g => g.name == f.name) = some g :=
    Option.isSome_iff_exists.1 (List.find?_isSome.2 ⟨f, hf, by simp⟩)
  have hname : g.name = f.name := by simpa using List.find?_some hg
  rw [hg, eq_of_name_eq h.names hf (List.mem_of_find?_eq_some hg) hname]

end NamesApart
end Message

/-! ## The keys that are JSON names -/

/-- The message that a field refers to, if it does. -/
def Site.target? (c : Catalog) (a : Site) (f : Field) : Option Site :=
  if f.kind.role = .record then (c.lookup a.scope f.typeName).map fun (d, s) => ⟨s, d⟩ else none

theorem RefersTo.target? {c : Catalog} {a b : Site} {f : Field} (h : RefersTo c a f b) :
    a.target? c f = some b := by
  rw [Site.target?, if_pos (FieldKind.role_eq_record.2 h.kind), h.found]
  rfl

/-- Where the properties of a message stand, nothing stays under the JSON name of a field. Under its own name a
field has the properties of the message that it refers to, if there is one. -/
def Site.follow (c : Catalog) (a? : Option Site) (key : String) : Option (Option Site) :=
  match a? with
  | none => some none
  | some a =>
    if a.message.isAlias key then none
    else some ((a.message.fields.find? fun f => f.name == key).bind (a.target? c))

/-- A node that holds properties of a message, without what stands under JSON names at any depth. -/
def Schema.Node.withoutAliases (c : Catalog) (a? : Option Site) (n : Node) : Node := n.pruned (Site.follow c) a?

namespace Schema

variable {c : Catalog} {o : Options} {outer : List Enum} {a : Site} {f : Field} {n n' top : Node}

/-- The options with JSON names asked for. -/
abbrev dual (o : Options) : Options := o.set .protoAndJsonFieldnames true

/-- The options with JSON names not asked for. -/
abbrev single (o : Options) : Options := o.set .protoAndJsonFieldnames false

theorem exists_record_of_refersTo {b : Site} (hb : RefersTo c a f b) (h : fieldAt c o outer a f = .ok n) :
    ∃ record, schemaAt c o outer b = .ok record ∧ n = ofRecord b.message f record := by
  have hr := FieldKind.role_eq_record.2 hb.kind
  obtain ⟨kind, hk, -⟩ | ⟨hk, -⟩ | ⟨b', record, hb', hrecord, rfl⟩ := fieldAt_cases hb.mem h
  · simp [hr] at hk
  · simp [hr] at hk
  · obtain rfl := hb.unique hb'
    exact ⟨record, hrecord, rfl⟩

/-- Of the node of a field is left what it is without JSON names, if this holds of the message that the field
refers to. -/
theorem withoutAliases_fieldAt (hf : f ∈ a.message.fields)
    (ih : ∀ b r r', Inlines c a b → schemaAt c (dual o) outer b = .ok r → schemaAt c (single o) outer b = .ok r' →
      r.withoutAliases c (some b) = r')
    (h : fieldAt c (dual o) outer a f = .ok n) (h' : fieldAt c (single o) outer a f = .ok n') :
    n.withoutAliases c (a.target? c f) = n' := by
  unfold withoutAliases at ih ⊢
  obtain ⟨kind, hk, rfl⟩ | ⟨hk, rfl⟩ | ⟨b, record, hb, hrecord, rfl⟩ := fieldAt_cases hf h
  · obtain rfl := Except.ok.inj ((fieldAt_value hk).symm.trans h')
    split
    · rw [pruned_arrayOf, pruned_plain]
      rfl
    · rw [pruned_plain]
  · obtain rfl := Except.ok.inj ((fieldAt_choice hk).symm.trans h')
    split
    · rw [pruned_arrayOf, pruned_choice]
      rfl
    · rw [pruned_choice]
  · obtain ⟨record', hrecord', rfl⟩ := exists_record_of_refersTo hb h'
    rw [hb.target?, pruned_ofRecord, ih b record record' ⟨f, hb⟩ hrecord hrecord']

theorem withoutAliases_ofProperties (m : Message) (l l' : List (String × Node)) (a? : Option Site)
    (h : prunedProperties (Site.follow c) a? (.ofList l) = .ofList l') :
    (ofProperties (dual o) m l).withoutAliases c a? = ofProperties (single o) m l' := by
  rw [withoutAliases, pruned_eq, ofProperties_properties, h]
  rfl

/-- What stands under a key once JSON names are taken away. -/
theorem get?_follow (hn : a.message.NamesApart) (h : schemaAt c (dual o) outer a = .ok n)
    (h' : schemaAt c (single o) outer a = .ok n')
    (ih : ∀ b r r', Inlines c a b → schemaAt c (dual o) outer b = .ok r → schemaAt c (single o) outer b = .ok r' →
      r.withoutAliases c (some b) = r') (key : String) :
    (prunedProperties (Site.follow c) (some a) n.properties).get? key = n'.properties.get? key := by
  rw [get?_prunedProperties]
  by_cases hkey : ∃ f ∈ a.message.fields, f.name = key
  · obtain ⟨f, hf, rfl⟩ := hkey
    obtain ⟨fn, hfn⟩ := exists_fieldAt h hf
    obtain ⟨fn', hfn'⟩ := exists_fieldAt h' hf
    have hget : n.properties.get? f.name = some (fn.asProperty f) :=
      (get?_properties_iff h _).2 ⟨f, fn, hn.fieldUnder?_iff.2 ⟨hf, mem_fieldNames.2 (.inl rfl)⟩, hfn, rfl⟩
    have hget' : n'.properties.get? f.name = some (fn'.asProperty f) :=
      (get?_properties_iff h' _).2 ⟨f, fn', hn.fieldUnder?_iff.2 ⟨hf, mem_fieldNames.2 (.inl rfl)⟩, hfn', rfl⟩
    have hfollow : Site.follow c (some a) f.name = some (a.target? c f) := by
      simp [Site.follow, hn.isAlias_name hf, hn.find?_name hf]
    have hleft : fn.pruned (Site.follow c) (a.target? c f) = fn' := withoutAliases_fieldAt hf ih hfn hfn'
    rw [hfollow, hget, hget', Option.bind_some, Option.map_some, pruned_asProperty, hleft]
  · -- Here nothing stands without JSON names, and with them what a field has it for a JSON name.
    have hnone' : n'.properties.get? key = none := by
      refine Option.eq_none_iff_forall_ne_some.2 fun p hp => ?_
      obtain ⟨f, -, hf, -, -⟩ := (get?_properties_iff h' key).1 hp
      obtain ⟨hmem, hk⟩ := hn.fieldUnder?_iff.1 hf
      exact hkey ⟨f, hmem, ((mem_fieldNames.1 hk).resolve_right nofun).symm⟩
    rw [hnone']
    cases halias : a.message.isAlias key with
    | true => simp [Site.follow, halias]
    | false =>
      have hnone : n.properties.get? key = none := by
        refine Option.eq_none_iff_forall_ne_some.2 fun p hp => ?_
        obtain ⟨f, -, hf, -, -⟩ := (get?_properties_iff h key).1 hp
        obtain ⟨hmem, hk⟩ := hn.fieldUnder?_iff.1 hf
        have hname : f.name ≠ key := fun hname => hkey ⟨f, hmem, hname⟩
        rcases mem_fieldNames.1 hk with hk | ⟨-, hk⟩
        · exact hname hk.symm
        · rw [Message.isAlias_iff.2 ⟨f, hmem, hk.symm, hname⟩] at halias
          cases halias
      simp [hnone]

theorem withoutAliases_schemaAt (hn : ∀ b, ReflTransGen (Inlines c) a b → b.message.NamesApart)
    (h : schemaAt c (dual o) outer a = .ok n) (h' : schemaAt c (single o) outer a = .ok n') :
    n.withoutAliases c (some a) = n' := by
  refine site_induction (P := fun a => (∀ b, ReflTransGen (Inlines c) a b → b.message.NamesApart) →
    ∀ n n', schemaAt c (dual o) outer a = .ok n → schemaAt c (single o) outer a = .ok n' →
      n.withoutAliases c (some a) = n') ?_ (schemaAt_isOk_iff.1 ⟨n, h⟩) hn n n' h h'
  intro a ih hn n n' h h'
  have hget := get?_follow (hn a .refl) h h' fun b r r' hb =>
    ih b hb (fun d hd => hn d (.head hb hd)) r r'
  obtain ⟨nodes, -, -, rfl⟩ := schemaAt_eq_ok_iff.1 h
  obtain ⟨nodes', -, -, rfl⟩ := schemaAt_eq_ok_iff.1 h'
  refine withoutAliases_ofProperties _ _ _ _ (Dictionary.Ascending.ext ?_ (Dictionary.ascending_ofList _) hget)
  exact ascending_prunedProperties _ _ (Dictionary.ascending_ofList _)

/-- The object of the message at `b` when JSON names are asked for. Each field stands under both its names with
one node, and nothing else stands there. Without what stands under JSON names, the node of a field is the one made
when they are not asked for. -/
structure Node.UnderBothNames (c : Catalog) (o : Options) (outer : List Enum) (b : Site) (n : Node) : Prop where
  keys : ∀ key, (n.properties.get? key).isSome = true ↔ ∃ f ∈ b.message.fields, key = f.name ∨ key = f.jsonName
  fields : ∀ f ∈ b.message.fields, ∃ fn fn', fieldAt c (dual o) outer b f = .ok fn ∧
    fieldAt c (single o) outer b f = .ok fn' ∧ n.properties.get? f.name = some (fn.asProperty f) ∧
    n.properties.get? f.jsonName = some (fn.asProperty f) ∧
    (fn.asProperty f).withoutAliases c (b.target? c f) = fn'.asProperty f

theorem underBothNames_schemaAt (hn : ∀ b, ReflTransGen (Inlines c) a b → b.message.NamesApart)
    (h : schemaAt c (dual o) outer a = .ok n) (h' : schemaAt c (single o) outer a = .ok n') :
    n.UnderBothNames c o outer a where
  keys key := by
    have hdual : ∀ f : Field, key ∈ fieldNames (dual o) f ↔ key = f.name ∨ key = f.jsonName := fun f => by
      simp [mem_fieldNames, Options.set]
    rw [Option.isSome_iff_exists]
    constructor
    · rintro ⟨p, hp⟩
      obtain ⟨f, -, hf, -, -⟩ := (get?_properties_iff h key).1 hp
      obtain ⟨hmem, hk⟩ := (hn a .refl).fieldUnder?_iff.1 hf
      exact ⟨f, hmem, (hdual f).1 hk⟩
    · rintro ⟨f, hf, hk⟩
      obtain ⟨fn, hfn⟩ := exists_fieldAt h hf
      have hunder := (hn a .refl).fieldUnder?_iff.2 ⟨hf, (hdual f).2 hk⟩
      exact ⟨_, (get?_properties_iff h key).2 ⟨f, fn, hunder, hfn, rfl⟩⟩
  fields f hf := by
    obtain ⟨fn, hfn⟩ := exists_fieldAt h hf
    obtain ⟨fn', hfn'⟩ := exists_fieldAt h' hf
    have hget : ∀ key ∈ fieldNames (dual o) f, n.properties.get? key = some (fn.asProperty f) := fun key hk =>
      (get?_properties_iff h key).2 ⟨f, fn, (hn a .refl).fieldUnder?_iff.2 ⟨hf, hk⟩, hfn, rfl⟩
    have hleft : fn.withoutAliases c (a.target? c f) = fn' := withoutAliases_fieldAt hf
      (fun b r r' hb hr hr' => withoutAliases_schemaAt (fun d hd => hn d (.head hb hd)) hr hr') hfn hfn'
    refine ⟨fn, fn', hfn, hfn', hget _ (mem_fieldNames.2 (.inl rfl)),
      hget _ (mem_fieldNames.2 (.inr ⟨rfl, rfl⟩)), ?_⟩
    rw [withoutAliases, pruned_asProperty]
    exact congrArg (·.asProperty f) hleft

/-- Asking for JSON names is a conservative extension where names are told apart in all messages that are
inlined. Without what stands under JSON names, the schema is the one made when they are not asked for, and
an error is the same. In every object, at any depth, each field stands under both names and nothing else does. -/
theorem withoutAliases_schema {scope : Scope} {d : Declaration}
    (hn : ∀ b, ReflTransGen (Inlines c) ⟨scope, d⟩ b → b.message.NamesApart) :
    ofMessage c (o.set .protoAndJsonFieldnames false) scope d outer =
      (ofMessage c (o.set .protoAndJsonFieldnames true) scope d outer).map (withoutAliases c (some ⟨scope, d⟩)) ∧
    ∀ top, ofMessage c (o.set .protoAndJsonFieldnames true) scope d outer = .ok top →
      ∀ n, top.Within n → n.type = .single .object →
        ∃ b, ReflTransGen (Inlines c) ⟨scope, d⟩ b ∧ n.UnderBothNames c o outer b := by
  constructor
  · cases hx : c.expandMessage scope d with
    | error e => simp only [ofMessage, hx, Except.map]
    | ok x =>
      have h : schemaAt c (dual o) outer ⟨scope, d⟩ = .ok _ := map_eq_ok_iff.2 ⟨x, hx, rfl⟩
      have h' : schemaAt c (single o) outer ⟨scope, d⟩ = .ok _ := map_eq_ok_iff.2 ⟨x, hx, rfl⟩
      rw [show ofMessage c (dual o) scope d outer = _ from h, show ofMessage c (single o) scope d outer = _ from h']
      exact congrArg Except.ok (withoutAliases_schemaAt hn h h').symm
  · intro top htop n hwithin ht
    have h : schemaAt c (dual o) outer ⟨scope, d⟩ = .ok top := htop
    obtain ⟨b, record, hb, hrecord, hproperties⟩ := exists_schemaAt_of_object h hwithin ht
    obtain ⟨record', hrecord'⟩ : ∃ r, schemaAt c (single o) outer b = .ok r :=
      schemaAt_isOk_iff.2 (schemaAt_isOk_iff.1 ⟨record, hrecord⟩)
    have hboth := underBothNames_schemaAt (fun d hd => hn d (hb.trans hd)) hrecord hrecord'
    refine ⟨b, hb, ⟨fun key => ?_, fun f hf => ?_⟩⟩
    · rw [hproperties]
      exact hboth.keys key
    · rw [hproperties]
      exact hboth.fields f hf

/-! ### A cart with its items, one of them a gift -/

def unitPrice : Field := ⟨"unit_price", "unitPrice", 1, .int64, .optional, "", none⟩

def lineItems : Field := ⟨"line_items", "lineItems", 1, .message, .repeated, "Item", none⟩

def freeGift : Field := ⟨"free_gift", "freeGift", 2, .message, .optional, "Item", none⟩

def item : Declaration := ⟨[1], "Item", [unitPrice], [], [], false, none⟩

def cart : Declaration := ⟨[0], "Cart", [lineItems, freeGift], [], [], false, none⟩

def carts : Catalog := (Catalog.empty.insert "shop" cart).insert "shop" item

theorem carts_item : carts.lookup ["shop"] "Item" = some (item, ["shop"]) := rfl

/-- A cart holds items and nothing else. -/
theorem namesApart_of_reaches_cart : ∀ b, ReflTransGen (Inlines carts) ⟨["shop"], cart⟩ b →
    b.message.NamesApart := by
  have hitem : ∀ b, ReflTransGen (Inlines carts) ⟨["shop"], cart⟩ b →
      b = ⟨["shop"], cart⟩ ∨ b = ⟨["shop"], item⟩ := by
    intro b hb
    induction hb with
    | refl => exact .inl rfl
    | tail _ hi ih =>
      obtain ⟨f, hf⟩ := hi
      rcases ih with rfl | rfl
      · have hname : f.typeName = "Item" := by
          rcases List.mem_pair.1 hf.mem with rfl | rfl <;> rfl
        exact .inr (hf.unique ⟨hf.mem, hf.kind, hname ▸ carts_item⟩)
      · obtain rfl := List.mem_singleton.1 hf.mem
        exact absurd hf.kind (by decide)
  intro b hb
  rcases hitem b hb with rfl | rfl
  · exact ⟨by decide, by decide, by decide⟩
  · exact ⟨by decide, by decide, by decide⟩

theorem exists_schemaAt_cart (o : Options) : ∃ top, schemaAt carts o [] ⟨["shop"], cart⟩ = .ok top := by
  have hitem : ∃ x, carts.expand [item.place, cart.place] ["shop"] item.message [unitPrice] = .ok x :=
    Catalog.exists_expand_singleton ⟨_, Catalog.content_value rfl⟩
  refine schemaAt_isOk_iff.2 (Catalog.expand_isOk_iff.2 ?_)
  refine List.forall_mem_cons.2 ⟨?_, List.forall_mem_singleton.2 ?_⟩
  · exact Catalog.exists_content_record rfl carts_item (by decide) hitem
  · exact Catalog.exists_content_record rfl carts_item (by decide) hitem

/-- The price of an item stands under JSON names at two depths, and is gone where these are taken away. -/
theorem withoutAliases_schema_cart : ∃ top top',
    (∀ b, ReflTransGen (Inlines carts) ⟨["shop"], cart⟩ b → b.message.NamesApart) ∧
    ofMessage carts (Options.set {} .protoAndJsonFieldnames true) ["shop"] cart [] = .ok top ∧
    ofMessage carts (Options.set {} .protoAndJsonFieldnames false) ["shop"] cart [] = .ok top' ∧
    (top.property? ["lineItems", "unitPrice"]).isSome = true ∧ (top'.properties.get? "lineItems").isSome = false ∧
    top.withoutAliases carts (some ⟨["shop"], cart⟩) = top' := by
  obtain ⟨top, htop⟩ := exists_schemaAt_cart (dual {})
  have hn := namesApart_of_reaches_cart
  have hsame : ofMessage carts (single {}) ["shop"] cart [] =
      (ofMessage carts (dual {}) ["shop"] cart []).map _ := (withoutAliases_schema hn).1
  rw [show ofMessage carts (dual {}) ["shop"] cart [] = .ok top from htop] at hsame
  have hlines : RefersTo carts ⟨["shop"], cart⟩ lineItems ⟨["shop"], item⟩ := ⟨.head _, .inl rfl, carts_item⟩
  have hprice : Shows carts (dual {}) ⟨["shop"], cart⟩ ["lineItems", "unitPrice"] ⟨["shop"], item⟩ unitPrice :=
    .inside (by decide) hlines (.here (by decide))
  obtain ⟨_, -, hproperty⟩ := exists_property?_of_shows htop hprice
  have hsingle : schemaAt carts (single {}) [] ⟨["shop"], cart⟩ = .ok _ := hsame
  refine ⟨top, _, hn, htop, hsame, by rw [hproperty]; rfl, ?_, rfl⟩
  rw [Option.isSome_eq_false_iff, Option.isNone_iff_eq_none, Option.eq_none_iff_forall_ne_some]
  intro p hp
  obtain ⟨f, -, hf, -⟩ := (get?_properties_iff hsingle _).1 hp
  have hnone : cart.message.fieldUnder? (single {}) "lineItems" = none := by decide
  cases hnone.symm.trans hf

end Schema
end ProtoSchema
