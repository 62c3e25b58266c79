import ProtoSchema.Proofs.Schema.Rendering
import ProtoSchema.Proofs.Schema.Shape
/-!
# Null and further properties

Two options say what a document permits besides the message itself: null in the place of a
repeated field, and properties that the message does not declare. The kinds and
labels of fields have a say in both. A repeated field may be null only where its elements
are no messages (`repeats_of_isRepeated`). Where further properties are
disallowed, the objects at all depths are closed but for those that stand for a field
labelled optional, which stay open (`additionalProperties_of_within`).
-/

namespace ProtoSchema.Schema

open Relation Node

variable {c : Catalog} {o : Options} {outer : List Enum} {a b : Site} {f : Field} {n item top : Node}
  {scope : Scope} {d : Declaration} {key : String} {keys : List String}

theorem exists_property?_of_shows (h : schemaAt c o outer a = .ok top) (hs : Shows c o a (key :: keys) b f) :
    ∃ fn, fieldAt c o outer b f = .ok fn ∧ top.property? (key :: keys) = some (fn.asProperty f) := by
  obtain ⟨owner, howner⟩ := exists_schemaAt_of_reaches h hs.reaches
  obtain ⟨fn, hfn⟩ := exists_fieldAt howner hs.mem
  exact ⟨fn, hfn, (property?_eq_some_iff h key keys).2 ⟨b, f, fn, hs, hfn, rfl⟩⟩

/-! ## Repeated fields -/

/-- An array of the elements of a field. It may be null where that is asked for and the elements are no
messages. -/
structure Node.Repeats (o : Options) (f : Field) (n element : Node) : Prop where
  items : n.items = some element
  type : n.type = if o.allowNullValues = true ∧ f.kind ≠ .message ∧ f.kind ≠ .group
    then .union [.null, .array] else .single .array

theorem repeats_arrayOf (hk : f.kind.role ≠ .record) (element : Node) : (arrayOf o element).Repeats o f element := by
  refine ⟨rfl, ?_⟩
  obtain ⟨hmessage, hgroup⟩ := not_or.1 (mt FieldKind.role_eq_record.2 hk)
  simp [arrayOf, hmessage, hgroup]

theorem repeats_ofRecord (hk : f.kind = .message ∨ f.kind = .group) (hr : f.isRepeated = true)
    (target : Message) (record : Node) : (ofRecord target f record).Repeats o f record := by
  refine ⟨ofRecord_items record (.inr hr), ?_⟩
  rw [if_neg fun h => hk.elim h.2.1 h.2.2]
  simp [ofRecord, hr, plain]

theorem repeats_fieldAt (hf : f ∈ a.message.fields) (hr : f.isRepeated = true)
    (h : fieldAt c o outer a f = .ok n) : ∃ element, Element c o outer a f element ∧ n.Repeats o f element := by
  obtain ⟨kind, hk, rfl⟩ | ⟨hk, rfl⟩ | ⟨b, record, hb, hrecord, rfl⟩ := fieldAt_cases hf h
  · rw [if_pos hr]
    exact ⟨_, .value hk, repeats_arrayOf (by simp [hk]) _⟩
  · rw [if_pos hr]
    exact ⟨_, .choice hk, repeats_arrayOf (by simp [hk]) _⟩
  · exact ⟨_, .record hb hrecord, repeats_ofRecord hb.kind hr _ _⟩

/-- Below a message that has a schema each repeated field is an array of its elements, and so is each
property, at any depth, that stands for one. Where null is allowed it may be null unless the field refers to a
message, and where it is not it is never null. -/
theorem repeats_of_isRepeated (h : ofMessage c o scope d outer = .ok top) :
    (∀ b, ReflTransGen (Inlines c) ⟨scope, d⟩ b → ∀ f ∈ b.message.fields, f.isRepeated = true →
      ∃ fn element, fieldAt c o outer b f = .ok fn ∧ Element c o outer b f element ∧ fn.Repeats o f element) ∧
    ∀ key keys b f, Shows c o ⟨scope, d⟩ (key :: keys) b f → f.isRepeated = true →
      ∃ p element, top.property? (key :: keys) = some p ∧ Element c o outer b f element ∧
        p.Repeats o f element := by
  have hschema : schemaAt c o outer ⟨scope, d⟩ = .ok top := h
  constructor
  · intro b hb f hf hr
    obtain ⟨owner, howner⟩ := exists_schemaAt_of_reaches hschema hb
    obtain ⟨fn, hfn⟩ := exists_fieldAt howner hf
    obtain ⟨element, helement, hrepeats⟩ := repeats_fieldAt hf hr hfn
    exact ⟨fn, element, hfn, helement, hrepeats⟩
  · intro key keys b f hs hr
    obtain ⟨fn, hfn, hp⟩ := exists_property?_of_shows hschema hs
    obtain ⟨element, helement, hrepeats⟩ := repeats_fieldAt hs.mem hr hfn
    exact ⟨_, element, hp, helement, hrepeats.items, hrepeats.type⟩

/-! ### An album with its photos, one of them on its cover -/

def tags : Field := ⟨"tags", "tags", 1, .string, .repeated, "", none⟩

def photos : Field := ⟨"photos", "photos", 1, .message, .repeated, "Photo", none⟩

def cover : Field := ⟨"cover", "cover", 2, .message, .optional, "Photo", none⟩

def photo : Declaration := ⟨[1], "Photo", [tags], [], [], false, none⟩

def album : Declaration := ⟨[0], "Album", [photos, cover], [], [], false, none⟩

def albums : Catalog := (Catalog.empty.insert "media" album).insert "media" photo

theorem albums_photo : albums.lookup ["media"] "Photo" = some (photo, ["media"]) := rfl

theorem photos_refers : RefersTo albums ⟨["media"], album⟩ photos ⟨["media"], photo⟩ :=
  ⟨by simp [Site.message, album], .inl rfl, albums_photo⟩

theorem cover_refers : RefersTo albums ⟨["media"], album⟩ cover ⟨["media"], photo⟩ :=
  ⟨by simp [Site.message, album], .inl rfl, albums_photo⟩

theorem exists_schemaAt_album (o : Options) : ∃ top, schemaAt albums o [] ⟨["media"], album⟩ = .ok top := by
  have hphoto : ∃ x, albums.expand [photo.place, album.place] ["media"] photo.message [tags] = .ok x :=
    Catalog.exists_expand_singleton ⟨_, Catalog.content_value rfl⟩
  refine schemaAt_isOk_iff.2 (Catalog.expand_isOk_iff.2 ?_)
  refine List.forall_mem_cons.2 ⟨?_, List.forall_mem_singleton.2 ?_⟩
  · exact Catalog.exists_content_record rfl albums_photo (by decide) hphoto
  · exact Catalog.exists_content_record rfl albums_photo (by decide) hphoto

/-- The photos are never null, but the tags of each may be. -/
theorem repeats_of_isRepeated_album : ∃ top p q,
    ofMessage albums nullable ["media"] album [] = .ok top ∧
    top.property? ["photos"] = some p ∧ p.type = .single .array ∧
    top.property? ["photos", "tags"] = some q ∧ q.type = .union [.null, .array] := by
  obtain ⟨top, htop⟩ := exists_schemaAt_album nullable
  have hphotos : Shows albums nullable ⟨["media"], album⟩ ["photos"] ⟨["media"], album⟩ photos :=
    .here (by decide)
  have htags : Shows albums nullable ⟨["media"], album⟩ ["photos", "tags"] ⟨["media"], photo⟩ tags :=
    .inside (by decide) photos_refers (.here (by decide))
  have hall := (repeats_of_isRepeated htop).2
  obtain ⟨p, _, hp, -, hrepeats⟩ := hall _ _ _ _ hphotos rfl
  obtain ⟨q, _, hq, -, hrepeats'⟩ := hall _ _ _ _ htags rfl
  exact ⟨top, p, q, htop, hp, hrepeats.type, hq, hrepeats'.type⟩

/-- Null is allowed, and yet a repeated field does not accept it. -/
theorem photos_not_null : ∃ top p, nullable.allowNullValues = true ∧
    ofMessage albums nullable ["media"] album [] = .ok top ∧
    photos ∈ album.message.fields ∧ photos.isRepeated = true ∧
    fieldAt albums nullable [] ⟨["media"], album⟩ photos = .ok p ∧
    top.property? ["photos"] = some (p.asProperty photos) ∧ (p.asProperty photos).type = .single .array ∧
    (p.asProperty photos).type ≠ .union [.null, .array] := by
  obtain ⟨top, htop⟩ := exists_schemaAt_album nullable
  have hphotos : Shows albums nullable ⟨["media"], album⟩ ["photos"] ⟨["media"], album⟩ photos :=
    .here (by decide)
  obtain ⟨p, hp, hproperty⟩ := exists_property?_of_shows htop hphotos
  obtain ⟨_, -, hrepeats⟩ := repeats_fieldAt hphotos.mem rfl hp
  have htype : p.type = .single .array := hrepeats.type
  exact ⟨top, p, rfl, htop, .head _, rfl, hp, hproperty, htype, by simp [htype]⟩

/-! ## Where the nodes of a schema stand -/

theorem Node.WellShaped.isArray (h : n.WellShaped o) (hi : n.items = some item) : n.IsArray := by
  obtain ⟨form, hform, -⟩ := h.form
  cases form with
  | array => exact hform
  | object => simp [hform.items] at hi
  | scalar => simp [hform.items] at hi

/-- An array has no properties, so what has some is no array. -/
theorem Node.WellShaped.record_eq {p : Node} (h : n.WellShaped o) (hp : p ∈ n.properties.values) :
    n.record = n := by
  cases hi : n.items with
  | none => simp [Node.record, hi]
  | some item =>
    rw [(h.isArray hi).properties] at hp
    cases hp

/-- The items of an array are no arrays. -/
theorem Node.IsArray.items_eq_none (h : n.IsArray) (hi : n.items = some item) (hs : item.WellShaped o) :
    item.items = none := by
  obtain ⟨item', kind, hi', ht, hk⟩ := h.items
  obtain rfl := Option.some.inj (hi.symm.trans hi')
  rw [Option.eq_none_iff_forall_ne_some]
  intro inner hinner
  rcases (hs.isArray hinner).type with htype | htype
  · exact hk (ValueType.single.inj (ht.symm.trans htype))
  · cases ht.symm.trans htype

theorem Node.property?_append (keys keys' : List String) :
    n.property? (keys ++ keys') = (n.property? keys).bind (·.property? keys') := by
  induction keys generalizing n with
  | nil => rfl
  | cons key keys ih =>
    rw [List.cons_append, property?, property?, Option.bind_assoc]
    exact congrArg _ (funext fun _ => ih)

theorem Node.Within.trans {p : Node} (h : top.Within p) (hn : p.Within n) : top.Within n := by
  induction hn with
  | top => exact h
  | property _ hp ih => exact ih.property hp
  | item _ hi ih => exact ih.item hi

theorem Node.within_record (n : Node) : n.Within n.record := by
  cases hi : n.items with
  | none => simpa [Node.record, hi] using Within.top
  | some item => simpa [Node.record, hi] using Within.item .top hi

theorem Node.within_of_property? (h : top.property? keys = some n) : top.Within n := by
  induction keys generalizing top with
  | nil =>
    obtain rfl := Option.some.inj h
    exact .top
  | cons key keys ih =>
    obtain ⟨p, hp, hn⟩ := Option.bind_eq_some_iff.1 h
    have hmem : p ∈ top.record.properties.values := Dictionary.mem_values_of_get? hp
    exact (top.within_record.property hmem).trans (ih hn)

/-- Every node in a schema stands under some keys, or it is the item of an array that does. -/
theorem exists_property?_of_within (h : schemaAt c o outer a = .ok top) (hn : top.Within n) :
    ∃ keys p, top.property? keys = some p ∧ (n = p ∨ p.items = some n) := by
  induction hn with
  | top => exact ⟨[], top, rfl, .inl rfl⟩
  | @property n q hn hq ih =>
    obtain ⟨keys, p, hp, hcase⟩ := ih
    have hrecord : p.record = n := by
      rcases hcase with rfl | hi
      · exact (part_of_within h hn).wellShaped.record_eq hq
      · simp [Node.record, hi]
    obtain ⟨key, hkey⟩ := (part_of_within h hn).ascending.exists_get? hq
    refine ⟨keys ++ [key], q, ?_, .inl rfl⟩
    rw [property?_append, hp, Option.bind_some, property?, hrecord, hkey]
    rfl
  | @item n item hn hi ih =>
    obtain ⟨keys, p, hp, rfl | hi'⟩ := ih
    · exact ⟨keys, n, hp, .inr hi⟩
    · have harray := (part_of_within h (within_of_property? hp)).wellShaped.isArray hi'
      have hnone := harray.items_eq_none hi' (part_of_within h hn).wellShaped
      simp [hnone] at hi

/-! ## Objects -/

theorem additionalProperties_schemaAt (h : schemaAt c o outer a = .ok n) :
    n.additionalProperties = some !o.disallowAdditionalProperties := by
  obtain ⟨nodes, -, -, rfl⟩ := schemaAt_eq_ok_iff.1 h
  rfl

/-- The elements of a field that are objects are schemas of the message that it refers to. -/
theorem Element.exists_schemaAt (h : Element c o outer a f n) (ht : n.type = .single .object) :
    ∃ b, RefersTo c a f b ∧ schemaAt c o outer b = .ok n := by
  cases h with
  | value hk => rcases (isScalar_plain hk).type with h | h | h | h <;> cases h.symm.trans ht
  | choice _ => cases ht
  | record hr h => exact ⟨_, hr, h⟩

/-- The node of a field is an object where the field refers to a message and is neither repeated nor a map. -/
theorem exists_record_of_object (hf : f ∈ a.message.fields) (h : fieldAt c o outer a f = .ok n)
    (ht : n.type = .single .object) : f.isRepeated = false ∧ n.additionalProperties = openness f.label ∧
      ∃ b record, RefersTo c a f b ∧ schemaAt c o outer b = .ok record ∧ n.properties = record.properties := by
  by_cases hr : f.isRepeated = true
  · obtain ⟨_, -, hrepeats⟩ := repeats_fieldAt hf hr h
    rw [hrepeats.type] at ht
    split at ht <;> cases ht
  · obtain ⟨kind, hk, rfl⟩ | ⟨-, rfl⟩ | ⟨b, record, hb, hrecord, rfl⟩ := fieldAt_cases hf h
    · rw [if_neg hr] at ht
      rcases (isScalar_plain hk).type with h | h | h | h <;> cases h.symm.trans ht
    · rw [if_neg hr] at ht
      cases ht
    · refine ⟨by simpa using hr, by unfold ofRecord; split <;> rfl, b, record, hb, hrecord, ?_⟩
      by_cases hm : b.message.mapEntry = true
      · simp [ofRecord, hm, plain] at ht
      · exact (ofRecord_properties record (not_or.2 ⟨hm, hr⟩)).2

/-- The properties of an object, at any depth, are those that some message has on its own. -/
theorem exists_schemaAt_of_object (h : schemaAt c o outer a = .ok top) (hn : top.Within n)
    (ht : n.type = .single .object) : ∃ b record, ReflTransGen (Inlines c) a b ∧
      schemaAt c o outer b = .ok record ∧ n.properties = record.properties := by
  obtain ⟨keys, p, hp, hcase⟩ := exists_property?_of_within h hn
  cases keys with
  | nil =>
    obtain rfl := Option.some.inj hp
    rcases hcase with rfl | hi
    · exact ⟨a, n, .refl, h, rfl⟩
    · simp [(isObject_schemaAt h).items] at hi
  | cons key keys =>
    obtain ⟨b, f, fn, hs, hfn, rfl⟩ := (property?_eq_some_iff h key keys).1 hp
    rcases hcase with rfl | hi
    · obtain ⟨-, -, d, record, hd, hrecord, hproperties⟩ := exists_record_of_object hs.mem hfn ht
      exact ⟨d, record, hs.reaches.tail ⟨f, hd⟩, hrecord, hproperties⟩
    · obtain ⟨d, hd, hrecord⟩ := (element_of_items hs.mem hfn hi).exists_schemaAt ht
      exact ⟨d, n, hs.reaches.tail ⟨f, hd⟩, hrecord, rfl⟩

/-- The node is the property, at some depth, that stands for a field with this label. -/
def StandsFor (c : Catalog) (o : Options) (a : Site) (top : Node) (label : Label) (n : Node) : Prop :=
  ∃ key keys b f, Shows c o a (key :: keys) b f ∧ f.label = label ∧ top.property? (key :: keys) = some n

/-- An object goes by the option, unless it is a property: then it goes by the label of its field. -/
theorem additionalProperties_cases (h : schemaAt c o outer a = .ok top) (hn : top.Within n)
    (ht : n.type = .single .object) : n.additionalProperties = some !o.disallowAdditionalProperties ∨
      ∃ label ≠ .repeated, StandsFor c o a top label n ∧ n.additionalProperties = openness label := by
  obtain ⟨keys, p, hp, hcase⟩ := exists_property?_of_within h hn
  cases keys with
  | nil =>
    obtain rfl := Option.some.inj hp
    rcases hcase with rfl | hi
    · exact .inl (additionalProperties_schemaAt h)
    · simp [(isObject_schemaAt h).items] at hi
  | cons key keys =>
    obtain ⟨b, f, fn, hs, hfn, rfl⟩ := (property?_eq_some_iff h key keys).1 hp
    rcases hcase with rfl | hi
    · obtain ⟨hr, hopen, -⟩ := exists_record_of_object hs.mem hfn ht
      refine .inr ⟨f.label, fun hl => ?_, ⟨key, keys, b, f, hs, rfl, hp⟩, hopen⟩
      simp [Field.isRepeated, hl] at hr
    · obtain ⟨d, -, hd⟩ := (element_of_items hs.mem hfn hi).exists_schemaAt ht
      exact .inl (additionalProperties_schemaAt hd)

theorem StandsFor.additionalProperties {label : Label} (h : schemaAt c o outer a = .ok top)
    (hn : StandsFor c o a top label n) (ht : n.type = .single .object) : n.additionalProperties = openness label := by
  obtain ⟨key, keys, b, f, hs, rfl, hp⟩ := hn
  obtain ⟨fn, hfn, hp'⟩ := exists_property?_of_shows h hs
  obtain rfl := Option.some.inj (hp.symm.trans hp')
  exact (exists_record_of_object hs.mem hfn ht).2.1

/-- Where further properties are disallowed, an object at any depth is closed, with the exception of those
that stand for a field labelled optional: they are open. -/
theorem additionalProperties_of_within (h : ofMessage c o scope d outer = .ok top)
    (ho : o.disallowAdditionalProperties = true) (hn : top.Within n) (ht : n.type = .single .object) :
    (¬ StandsFor c o ⟨scope, d⟩ top .optional n → n.additionalProperties = some false) ∧
    (StandsFor c o ⟨scope, d⟩ top .optional n → n.additionalProperties = some true) := by
  have hschema : schemaAt c o outer ⟨scope, d⟩ = .ok top := h
  refine ⟨fun hnot => ?_, fun hopen => hopen.additionalProperties hschema ht⟩
  obtain hclosed | ⟨label, hlabel, hstands, hopen⟩ := additionalProperties_cases hschema hn ht
  · rw [hclosed, ho]
    rfl
  · cases label with
    | optional => exact absurd hstands hnot
    | required => exact hopen
    | repeated => exact absurd rfl hlabel

def closed : Options := { disallowAdditionalProperties := true }

theorem shows_cover : Shows albums closed ⟨["media"], album⟩ ["cover"] ⟨["media"], album⟩ cover :=
  .here (by decide)

theorem exists_cover (h : schemaAt albums closed [] ⟨["media"], album⟩ = .ok top) : ∃ p,
    top.property? ["cover"] = some p ∧ p.type = .single .object := by
  obtain ⟨fn, hfn, hp⟩ := exists_property?_of_shows h shows_cover
  obtain ⟨b, record, hb, -, hrecord⟩ := exists_record h cover_refers.mem (.inl rfl)
  obtain rfl := hb.unique cover_refers
  obtain rfl := Except.ok.inj (hrecord.symm.trans hfn)
  exact ⟨_, hp, rfl⟩

/-- An album is closed, and its cover is open. -/
theorem additionalProperties_of_within_album : ∃ top p,
    ofMessage albums closed ["media"] album [] = .ok top ∧ closed.disallowAdditionalProperties = true ∧
    top.Within top ∧ top.type = .single .object ∧ top.additionalProperties = some false ∧
    top.Within p ∧ p.type = .single .object ∧ p.additionalProperties = some true := by
  obtain ⟨top, htop⟩ := exists_schemaAt_album closed
  obtain ⟨p, hp, ht⟩ := exists_cover htop
  have hnot : ¬ StandsFor albums closed ⟨["media"], album⟩ top .optional top := by
    rintro ⟨key, keys, b, f, -, -, hkeys⟩
    obtain ⟨b, f, fn, -, -, rfl⟩ := (property?_eq_some_iff htop key keys).1 hkeys
    -- A property has a number, and the schema of a message has none.
    obtain ⟨nodes, -, -, hnumber⟩ := schemaAt_eq_ok_iff.1 htop
    cases congrArg Node.order hnumber
  have hroot := additionalProperties_of_within htop rfl .top (isObject_schemaAt htop).type
  have hcover := additionalProperties_of_within htop rfl (within_of_property? hp) ht
  exact ⟨top, p, htop, rfl, .top, (isObject_schemaAt htop).type, hroot.1 hnot, within_of_property? hp, ht,
    hcover.2 ⟨_, _, _, _, shows_cover, rfl, hp⟩⟩

/-- Further properties are disallowed, and yet the cover has them. -/
theorem cover_not_closed : ∃ top p, closed.disallowAdditionalProperties = true ∧
    ofMessage albums closed ["media"] album [] = .ok top ∧ top.Within p ∧ p.type = .single .object ∧
    top.property? ["cover"] = some p ∧ p.additionalProperties ≠ some false := by
  obtain ⟨top, htop⟩ := exists_schemaAt_album closed
  obtain ⟨p, hp, ht⟩ := exists_cover htop
  have hstands : StandsFor albums closed ⟨["media"], album⟩ top .optional p :=
    ⟨_, _, _, _, shows_cover, rfl, hp⟩
  refine ⟨top, p, rfl, htop, within_of_property? hp, ht, hp, ?_⟩
  rw [hstands.additionalProperties htop ht]
  decide

end ProtoSchema.Schema
