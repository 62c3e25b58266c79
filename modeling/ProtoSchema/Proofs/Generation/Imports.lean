import ProtoSchema.Proofs.Catalog.AbsoluteNames
import ProtoSchema.Proofs.Generation.Documents
import ProtoSchema.Proofs.Schema.Shape
/-!
# Messages of other files

A document takes the top-level enumerations of its own file into every message
that it inlines, messages of other files included. So the properties that stand
for such a message are those which the message has under these enumerations
(`properties_inlined_from_file`); they are the ones in its own document if all
enumerations in sight offer the same choices (`SameChoices`), and may be others
if not (`properties_inlined_from_file_differ`).
-/

namespace ProtoSchema

open Relation

namespace Schema

open Node

/-- The enumeration fields of a message, and of all messages inlined in it, have the same choices
whichever of two lists holds the enumerations outside their own messages. -/
def SameChoices (c : Catalog) (outer outer' : List Enum) (a : Site) : Prop :=
  ∀ b, ReflTransGen (Inlines c) a b → ∀ f ∈ b.message.fields, f.kind = .enum →
    choice (choices outer b.message f) = choice (choices outer' b.message f)

variable {c : Catalog} {o : Options} {outer outer' : List Enum} {a b : Site} {f : Field} {n : Node}

theorem SameChoices.of_inlines (h : SameChoices c outer outer' a) (hb : Inlines c a b) :
    SameChoices c outer outer' b :=
  fun d hd => h d (.head hb hd)

theorem fieldAt_congr (hf : f ∈ a.message.fields) (hs : SameChoices c outer outer' a)
    (ih : ∀ b, Inlines c a b → ∀ record, schemaAt c o outer b = .ok record → schemaAt c o outer' b = .ok record)
    (h : fieldAt c o outer a f = .ok n) : fieldAt c o outer' a f = .ok n := by
  obtain ⟨x, hx, rfl⟩ := map_eq_ok_iff.1 h
  refine map_eq_ok_iff.2 ⟨x, hx, ?_⟩
  obtain ⟨kind, -, rfl⟩ | ⟨hr, rfl⟩ | ⟨target, inner, fields, hr, hl, -, hfields, rfl⟩ :=
    Catalog.content_cases hx
  · simp only [ofContent]
  · have hchoice := hs a .refl f hf (FieldKind.role_eq_choice.1 hr)
    unfold Site.message at hchoice
    simp only [ofContent, hchoice]
  · -- The message behind the field has one schema on its own, and it is the same under both.
    have hb : Inlines c a ⟨inner, target⟩ := ⟨f, hf, FieldKind.role_eq_record.1 hr, hl⟩
    have hrecord : schemaAt c o outer ⟨inner, target⟩ = .ok _ := schemaAt_of_expand hfields
    have hrecord' : schemaAt c o outer' ⟨inner, target⟩ = .ok _ := schemaAt_of_expand hfields
    have heq := Except.ok.inj (hrecord'.symm.trans (ih _ hb _ hrecord))
    simp only [ofContent]
    exact congrArg _ heq

/-- A message has one schema under lists of enumerations that offer the same choices. -/
theorem schemaAt_congr (hs : SameChoices c outer outer' a) (h : schemaAt c o outer a = .ok n) :
    schemaAt c o outer' a = .ok n := by
  refine site_induction (P := fun a => SameChoices c outer outer' a → ∀ n, schemaAt c o outer a = .ok n →
    schemaAt c o outer' a = .ok n) ?_ (schemaAt_isOk_iff.1 ⟨n, h⟩) hs n h
  intro a ih hs n h
  obtain ⟨nodes, hfields, hnodes, rfl⟩ := schemaAt_eq_ok_iff.1 h
  refine schemaAt_eq_ok_iff.2 ⟨nodes, hfields, fun e he => ?_, rfl⟩
  have hf : e.1 ∈ a.message.fields := hfields ▸ List.mem_map_of_mem he
  exact fieldAt_congr hf hs (fun b hb => ih b hb (hs.of_inlines hb)) (hnodes e he)

/-! ## The properties that a field stands for -/

/-- Under the keys that lead to a field stand, if it is not repeated, the properties of the message that
it refers to. -/
theorem property?_toDocument_of_shows {key : String} {keys : List String} {d : Site}
    (h : schemaAt c o outer a = .ok n) (hs : Shows c o a (key :: keys) b f) (hr : RefersTo c b f d)
    (hone : f.isRepeated = false) (hmap : d.message.mapEntry = false) : ∃ p record properties,
      n.toDocument.property? (key :: keys) = some p ∧ schemaAt c o outer d = .ok record ∧
        record.toJson.member? "properties" = some properties ∧ p.member? "properties" = some properties := by
  obtain ⟨owner, howner⟩ := exists_schemaAt_of_reaches h hs.reaches
  obtain ⟨d', record, hd', hrecord, hfield⟩ := exists_record howner hr.mem hr.kind
  obtain rfl := hr.unique hd'
  have hobject := isObject_schemaAt hrecord
  have hnone : ¬ (d.message.mapEntry = true ∨ f.isRepeated = true) := by simp [hone, hmap]
  have hproperty := (property?_eq_some_iff h key keys).2 ⟨b, f, _, hs, hfield, rfl⟩
  have htype : ((ofRecord d.message f record).asProperty f).type = .single .object := by
    simp [ofRecord, hnone, plain]
  have hproperties : ((ofRecord d.message f record).asProperty f).properties = record.properties :=
    (ofRecord_properties record hnone).2
  have hrendered : record.toJson.member? "properties" = some (.obj record.propertyMembers) := by
    rw [member?_properties, if_pos (.inl hobject.type)]
  refine ⟨((ofRecord d.message f record).asProperty f).toJson, record, .obj record.propertyMembers, ?_, hrecord,
    hrendered, ?_⟩
  · rw [property?_toDocument h, hproperty]
    rfl
  · rw [member?_properties_congr htype hobject.type hproperties, hrendered]

end Schema

open Schema

variable {files : List File} {o : Options} {i j k l : Nat} {f g : File} {m target : Message}
  {document document' : Json} {b : Site} {key : String} {keys : List String} {h : Field} {s : Scope}

/-- Where a field that is not repeated stands for a top-level message of a file, be it the file of the
document or another, its properties are those of the message on its own, in the scope of its file and
with the top-level enumerations of the file of the document. They are the properties in the message's own
document if these enumerations offer the same choices as those of its file. -/
theorem properties_inlined_from_file (hf : Documented files o i j f m document)
    (hg : Documented files o k l g target document')
    (hs : Shows (.ofFiles files) o (f.site i j m) (key :: keys) b h) (hk : h.kind = .message ∨ h.kind = .group)
    (hl : (Catalog.ofFiles files).lookup b.scope h.typeName = some (⟨[k, l], target⟩, s))
    (hone : h.isRepeated = false) (hmap : target.mapEntry = false) :
    ∃ p properties record, document.property? (key :: keys) = some p ∧
      p.member? "properties" = some properties ∧
      schemaAt (.ofFiles files) o f.enums (g.site k l target) = .ok record ∧
      record.toJson.member? "properties" = some properties ∧
      (SameChoices (.ofFiles files) f.enums g.enums (g.site k l target) →
        document'.member? "properties" = some properties) := by
  obtain ⟨n, hschema, rfl⟩ := hf.exists_schemaAt
  obtain ⟨n', hschema', rfl⟩ := hg.exists_schemaAt
  have hscope : s = g.scope := by
    rw [(declared_of_lookup hl).2]
    simp [homeScope, hg.named.file]
  subst hscope
  have href : RefersTo (.ofFiles files) b h (g.site k l target) := ⟨hs.mem, hk, hl⟩
  obtain ⟨p, record, properties, hp, hrecord, hproperties, hmember⟩ :=
    property?_toDocument_of_shows hschema hs href hone hmap
  refine ⟨p, properties, record, hp, hmember, hrecord, hproperties, fun hsame => ?_⟩
  obtain rfl := Except.ok.inj (hschema'.symm.trans (schemaAt_congr hsame hrecord))
  rw [Node.member?_toDocument (by decide), hproperties]

/-! ## A car and its paint -/

def paintField : Field := ⟨"paint", "paint", 1, .message, .optional, ".paint.Paint", none⟩

def car : Message := ⟨"Car", [paintField], [], [], false, none⟩

def carFile : File := ⟨"car.proto", some "cars", [car], []⟩

def color : Enum := ⟨"Color", [⟨"RED", 0, none⟩, ⟨"BLUE", 7, none⟩], none⟩

def finish : Enum := ⟨"Finish", [⟨"MATTE", 1, none⟩], none⟩

def colorField (typeName : String) : Field := ⟨"color", "color", 1, .enum, .optional, typeName, none⟩

/-- A paint with a color that some type name refers to. -/
def paint (typeName : String) (enums : List Enum) : Message :=
  ⟨"Paint", [colorField typeName], [], enums, false, none⟩

def paintFile (p : Message) (enums : List Enum) : File := ⟨"paint.proto", some "paint", [p], enums⟩

def garage (p : Message) (enums : List Enum) : List File := [carFile, paintFile p enums]

section Garage
variable (typeName : String) (own enums : List Enum)

theorem garage_names (p : Message) : ((garage p enums).map File.name).Nodup := by
  simp [garage, carFile, paintFile]

theorem lookup_paint : (Catalog.ofFiles (garage (paint typeName own) enums)).lookup carFile.scope
    ".paint.Paint" = some (⟨[1, 0], paint typeName own⟩, ["paint"]) := by
  have hfilings : filings (garage (paint typeName own) enums) =
      [("cars", ⟨[0, 0], car⟩), ("paint", ⟨[1, 0], paint typeName own⟩)] := rfl
  rw [ofFiles_eq_ofFilings, hfilings]
  simp only [Catalog.ofFilings, List.foldl_cons, List.foldl_nil]
  rfl

theorem exists_expand_paint (c : Catalog) (path : List Place) (s : Scope) :
    ∃ x, c.expand path s (paint typeName own) [colorField typeName] = .ok x :=
  Catalog.exists_expand_singleton ⟨_, Catalog.content_choice rfl⟩

theorem exists_documented_car : ∃ n,
    schemaAt (.ofFiles (garage (paint typeName own) enums)) {} [] (carFile.site 0 0 car) = .ok n ∧
    Documented (garage (paint typeName own) enums) {} 0 0 carFile car n.toDocument := by
  have hcar : ∃ x, (Catalog.ofFiles (garage (paint typeName own) enums)).expand [[0, 0]] carFile.scope
      car [paintField] = .ok x :=
    Catalog.exists_expand_singleton (Catalog.exists_content_record rfl (lookup_paint typeName own enums)
      (by simp) (exists_expand_paint typeName own _ _ _))
  obtain ⟨n, hn⟩ : ∃ n, schemaAt _ {} [] (carFile.site 0 0 car) = .ok n := schemaAt_isOk_iff.2 hcar
  exact ⟨n, hn, documented_of_schemaAt (named_of_nodup (garage_names enums _) rfl) rfl hn⟩

theorem exists_documented_paint : ∃ n,
    schemaAt (.ofFiles (garage (paint typeName own) enums)) {} enums
      ((paintFile (paint typeName own) enums).site 1 0 (paint typeName own)) = .ok n ∧
    Documented (garage (paint typeName own) enums) {} 1 0 (paintFile (paint typeName own) enums)
      (paint typeName own) n.toDocument := by
  obtain ⟨n, hn⟩ : ∃ n, schemaAt (.ofFiles (garage (paint typeName own) enums)) {} enums
      ((paintFile (paint typeName own) enums).site 1 0 (paint typeName own)) = .ok n :=
    schemaAt_isOk_iff.2 (exists_expand_paint typeName own _ _ _)
  exact ⟨n, hn, documented_of_schemaAt (named_of_nodup (garage_names enums _) rfl) rfl hn⟩

/-- The paint stands under its name in the car. -/
theorem shows_paint : Shows (.ofFiles (garage (paint typeName own) enums)) {} (carFile.site 0 0 car) ["paint"]
    (carFile.site 0 0 car) paintField :=
  .here rfl

variable {typeName own}

/-- The numbers that the color of a paint is chosen from. -/
theorem color_of_paint {c : Catalog} {outer : List Enum} {s : Scope} {place : Place} {n : Node}
    {properties : Json} (h : schemaAt c {} outer ⟨s, ⟨place, paint typeName own⟩⟩ = .ok n)
    (hp : n.toJson.member? "properties" = some properties) :
    (properties.member? "color").bind (Json.member? "enum") =
      (Node.choice (Node.choices outer (paint typeName own) (colorField typeName))).toJson.member? "enum" := by
  have hcolor : n.properties.get? "color" = some _ :=
    (get?_properties_iff h "color").2 ⟨colorField typeName, _, rfl, fieldAt_choice rfl, rfl⟩
  have hrendered := Node.property_toJson (ascending_schemaAt h) "color"
  rw [hp, hcolor, Option.bind_some, Option.map_some] at hrendered
  rw [hrendered, Option.bind_some, Node.member?_enum, Node.member?_enum]
  rfl

end Garage

/-- A paint with a color of its own is the same in a car, whatever else its file declares. -/
theorem properties_inlined_from_file_car : ∃ document document' p properties,
    Documented (garage (paint ".paint.Paint.Color" [color]) [finish]) {} 0 0 carFile car document ∧
    Documented (garage (paint ".paint.Paint.Color" [color]) [finish]) {} 1 0
      (paintFile (paint ".paint.Paint.Color" [color]) [finish]) (paint ".paint.Paint.Color" [color]) document' ∧
    document.property? ["paint"] = some p ∧ p.member? "properties" = some properties ∧
    document'.member? "properties" = some properties := by
  obtain ⟨n, -, hf⟩ := exists_documented_car ".paint.Paint.Color" [color] [finish]
  obtain ⟨n', -, hg⟩ := exists_documented_paint ".paint.Paint.Color" [color] [finish]
  obtain ⟨p, properties, record, hp, hmember, -, -, hsame⟩ := properties_inlined_from_file hf hg
    (shows_paint _ _ _) (.inl rfl) (lookup_paint _ _ _) rfl rfl
  refine ⟨_, _, p, properties, hf, hg, hp, hmember, hsame ?_⟩
  intro b hb g hg' _
  rcases hb.cases_head with rfl | ⟨d, ⟨g', hmem, hk, -⟩, -⟩
  · obtain rfl := List.mem_singleton.1 hg'
    rfl
  · -- A paint has no field that refers to a message.
    obtain rfl := List.mem_singleton.1 hmem
    simp [colorField] at hk

/-- A paint whose color is declared beside it in its file loses the numbers in a car. -/
theorem properties_inlined_from_file_differ : ∃ document document' p properties properties',
    WellNamed (garage (paint ".paint.Color" []) [color]) ∧
    ((garage (paint ".paint.Color" []) [color]).map File.name).Nodup ∧
    Documented (garage (paint ".paint.Color" []) [color]) {} 0 0 carFile car document ∧
    Documented (garage (paint ".paint.Color" []) [color]) {} 1 0
      (paintFile (paint ".paint.Color" []) [color]) (paint ".paint.Color" []) document' ∧
    Shows (.ofFiles (garage (paint ".paint.Color" []) [color])) {} (carFile.site 0 0 car) ["paint"]
      (carFile.site 0 0 car) paintField ∧
    (Catalog.ofFiles (garage (paint ".paint.Color" []) [color])).lookup carFile.scope paintField.typeName =
      some (⟨[1, 0], paint ".paint.Color" []⟩, ["paint"]) ∧
    paintField.kind = .message ∧ paintField.isRepeated = false ∧ (paint ".paint.Color" []).mapEntry = false ∧
    document.property? ["paint"] = some p ∧ p.member? "properties" = some properties ∧
    document'.member? "properties" = some properties' ∧
    (properties.member? "color").bind (Json.member? "enum") = none ∧
    (properties'.member? "color").bind (Json.member? "enum") = some (.arr [.num 0, .num 7]) ∧
    properties ≠ properties' := by
  obtain ⟨n, hn, hf⟩ := exists_documented_car ".paint.Color" [] [color]
  obtain ⟨n', hn', hg⟩ := exists_documented_paint ".paint.Color" [] [color]
  have href : RefersTo (.ofFiles (garage (paint ".paint.Color" []) [color])) (carFile.site 0 0 car) paintField
      ⟨["paint"], ⟨[1, 0], paint ".paint.Color" []⟩⟩ := ⟨.head _, .inl rfl, lookup_paint _ _ _⟩
  obtain ⟨p, record, properties, hp, hrecord, hproperties, hmember⟩ :=
    property?_toDocument_of_shows hn (shows_paint _ _ _) href rfl rfl
  have hproperties' : n'.toJson.member? "properties" = some (.obj n'.propertyMembers) := by
    rw [Node.member?_properties, if_pos (.inl (isObject_schemaAt hn').type)]
  have hnone : (properties.member? "color").bind (Json.member? "enum") = none := by
    rw [color_of_paint hrecord hproperties, Node.member?_enum]
    rfl
  have hsome : ((Json.obj n'.propertyMembers).member? "color").bind (Json.member? "enum") =
      some (.arr [.num 0, .num 7]) := by
    rw [color_of_paint hn' hproperties', Node.member?_enum]
    rfl
  refine ⟨_, _, p, properties, _, by decide +kernel, garage_names _ _, hf, hg, shows_paint _ _ _,
    lookup_paint _ _ _, rfl, rfl, rfl, hp, hmember, by rw [Node.member?_toDocument (by decide), hproperties'],
    hnone, hsome, ?_⟩
  rintro rfl
  rw [hnone] at hsome
  cases hsome

end ProtoSchema
