import ProtoSchema.Proofs.Catalog.AbsoluteNames
import ProtoSchema.Proofs.Generation.Documents
/-!
# The numbers of an enumeration

An enumeration field is a choice among the enumerations in sight: those of its
own message and the top-level ones of the file of the document
(`exists_choice`). So where its type name is the absolute name of one of them,
every number of that enumeration is listed (`declared_numbers_listed`). One that
is declared in a message around is out of sight (`declared_numbers_missing`).
-/

namespace ProtoSchema

open Schema

theorem suffix_fullName (s : Scope) (name : String) :
    name.toList <:+ (Scope.fullName (s ++ [name])).toList := by
  refine ⟨(Scope.fullName s).toList ++ ['.'], ?_⟩
  simp [Scope.fullName, String.toList_join]

namespace Schema

open Node

variable {outer enums : List Enum} {owner : Message} {f : Field} {e : Enum} {v : EnumValue}

theorem mem_choices (he : e ∈ owner.enums ∨ e ∈ outer) (hs : e.name.toList <:+ f.typeName.toList) :
    e ∈ choices outer owner f :=
  List.mem_filter.2 ⟨List.mem_append.2 he, List.isSuffixOf_iff_suffix.2 hs⟩

theorem number_mem_choice (he : e ∈ enums) (hv : v ∈ e.values) :
    Json.num v.number.toInt ∈ (choice enums).enumValues :=
  List.mem_map_of_mem (List.mem_flatMap.2 ⟨e, he, hv⟩)

/-- An enumeration field that is shown in a schema lists the numbers of the enumerations in sight, in its
items if it is repeated. -/
theorem exists_choice {c : Catalog} {o : Options} {a b : Site} {n : Node} {key : String} {keys : List String}
    (h : schemaAt c o outer a = .ok n) (hs : Shows c o a (key :: keys) b f) (hk : f.kind = .enum) :
    ∃ p q, n.toDocument.property? (key :: keys) = some p ∧
      (if f.isRepeated then p.member? "items" = some q else p = q) ∧
      q.member? "enum" = (choice (choices outer b.message f)).toJson.member? "enum" := by
  have hfield : fieldAt c o outer b f = .ok _ := fieldAt_choice (FieldKind.role_eq_choice.2 hk)
  have hproperty := (property?_eq_some_iff h key keys).2 ⟨b, f, _, hs, hfield, rfl⟩
  rw [property?_toDocument h, hproperty, Option.map_some]
  by_cases hr : f.isRepeated = true
  · simp only [if_pos hr]
    exact ⟨_, _, rfl, member?_items _, rfl⟩
  · simp only [if_neg hr]
    refine ⟨_, _, rfl, rfl, ?_⟩
    rw [member?_enum, member?_enum]
    rfl

end Schema

variable {files : List File} {o : Options} {i j : Nat} {f : File} {m : Message} {document : Json} {b : Site}
  {key : String} {keys : List String} {h : Field} {e : Enum}

/-- Where the type name of an enumeration field is the absolute name of an enumeration at the top of the
file of the document or in the field's own message, the property of the field lists each of its numbers,
in its items if it is repeated. -/
theorem declared_numbers_listed (hf : Documented files o i j f m document)
    (hs : Shows (.ofFiles files) o (f.site i j m) (key :: keys) b h) (hk : h.kind = .enum)
    (he : (e ∈ f.enums ∧ h.typeName = Scope.fullName (f.scope ++ [e.name])) ∨
      (e ∈ b.message.enums ∧ ∃ x ∈ f.definitions i, x.declaration = b.declaration ∧
        h.typeName = Scope.fullName (x.parts ++ [e.name]))) :
    ∃ p q, document.property? (key :: keys) = some p ∧
      (if h.isRepeated then p.member? "items" = some q else p = q) ∧
      ∀ v ∈ e.values, ∃ numbers, q.member? "enum" = some (.arr numbers) ∧ .num v.number.toInt ∈ numbers := by
  obtain ⟨n, hschema, rfl⟩ := hf.exists_schemaAt
  obtain ⟨p, q, hp, hq, hchoice⟩ := exists_choice hschema hs hk
  refine ⟨p, q, hp, hq, fun v hv => ?_⟩
  have hsight : e ∈ Node.choices f.enums b.message h := by
    rcases he with ⟨htop, hname⟩ | ⟨hown, x, -, -, hname⟩
    · exact mem_choices (.inr htop) (hname ▸ suffix_fullName _ _)
    · exact mem_choices (.inl hown) (hname ▸ suffix_fullName _ _)
  have hnumber := number_mem_choice hsight hv
  refine ⟨_, ?_, hnumber⟩
  rw [hchoice, Node.member?_enum, if_neg]
  simpa using List.ne_nil_of_mem hnumber

/-! ## A tray of cups -/

def sizes : Enum := ⟨"Size", [⟨"SMALL", 1, none⟩, ⟨"LARGE", 2, none⟩], none⟩

def sizeField (typeName : String) : Field := ⟨"size", "size", 1, .enum, .optional, typeName, none⟩

def cup (typeName : String) : Message := ⟨"Cup", [sizeField typeName], [], [], false, none⟩

def cupsField : Field := ⟨"cups", "cups", 1, .message, .repeated, "Tray.Cup", none⟩

def tray (typeName : String) (enums : List Enum) : Message :=
  ⟨"Tray", [cupsField], [cup typeName], enums, false, none⟩

/-- A file with sizes at its top, in the tray, or in both. -/
def cafe (typeName : String) (own top : List Enum) : File :=
  ⟨"cafe.proto", some "cafe", [tray typeName own], top⟩

section Cafe
variable (typeName : String) (own top : List Enum)

def cafeTray : Site := (cafe typeName own top).site 0 0 (tray typeName own)

def cafeCup : Site := ⟨["cafe"], ⟨[0, 0, 0], cup typeName⟩⟩

theorem lookup_cup : (Catalog.ofFiles [cafe typeName own top]).lookup (cafeTray typeName own top).scope "Tray.Cup" =
    some ((cafeCup typeName).declaration, (cafeCup typeName).scope) := by
  have hfilings : filings [cafe typeName own top] = [("cafe", ⟨[0, 0], tray typeName own⟩)] := rfl
  have hpackage : (cafe typeName own top).packageName = "cafe" := rfl
  have hscope : (cafeTray typeName own top).scope = _ := congrArg Scope.ofPackage hpackage
  rw [ofFiles_eq_ofFilings, hfilings, hscope]
  simp only [Catalog.ofFilings, List.foldl_cons, List.foldl_nil]
  rfl

theorem exists_documented_tray : ∃ n,
    schemaAt (.ofFiles [cafe typeName own top]) {} top (cafeTray typeName own top) = .ok n ∧
    Documented [cafe typeName own top] {} 0 0 (cafe typeName own top) (tray typeName own) n.toDocument := by
  have hcup : ∀ path, ∃ x, (Catalog.ofFiles [cafe typeName own top]).expand path ["cafe"] (cup typeName)
      [sizeField typeName] = .ok x := fun path =>
    Catalog.exists_expand_singleton ⟨_, Catalog.content_choice rfl⟩
  have htray : ∃ x, (Catalog.ofFiles [cafe typeName own top]).expand [[0, 0]] (cafeTray typeName own top).scope
      (tray typeName own) [cupsField] = .ok x :=
    Catalog.exists_expand_singleton (Catalog.exists_content_record rfl (lookup_cup typeName own top)
      (by simp [cafeCup]) (hcup _))
  obtain ⟨n, hn⟩ : ∃ n, schemaAt (.ofFiles [cafe typeName own top]) {} top (cafeTray typeName own top) = .ok n :=
    schemaAt_isOk_iff.2 htray
  exact ⟨n, hn, documented_of_schemaAt (named_of_nodup (List.nodup_singleton _) rfl) rfl hn⟩

theorem shows_size : Shows (.ofFiles [cafe typeName own top]) {} (cafeTray typeName own top) ["cups", "size"]
    (cafeCup typeName) (sizeField typeName) := by
  have hcup : RefersTo (.ofFiles [cafe typeName own top]) (cafeTray typeName own top) cupsField
      (cafeCup typeName) := ⟨.head _, .inl rfl, lookup_cup typeName own top⟩
  exact .inside rfl hcup (.here rfl)

end Cafe

/-- Sizes at the top of the file are listed in every cup of a tray. -/
theorem declared_numbers_listed_tray : ∃ document p numbers,
    Documented [cafe ".cafe.Size" [] [sizes]] {} 0 0 (cafe ".cafe.Size" [] [sizes]) (tray ".cafe.Size" [])
      document ∧
    document.property? ["cups", "size"] = some p ∧ p.member? "enum" = some (.arr numbers) ∧
    .num 2 ∈ numbers := by
  obtain ⟨n, -, hf⟩ := exists_documented_tray ".cafe.Size" [] [sizes]
  obtain ⟨p, q, hp, hq, hlisted⟩ := declared_numbers_listed (e := sizes) hf (shows_size _ _ _)
    rfl (.inl ⟨.head _, by decide +kernel⟩)
  obtain ⟨numbers, hnumbers, hmem⟩ := hlisted ⟨"LARGE", 2, none⟩ (by decide)
  obtain rfl : p = q := hq
  exact ⟨_, p, numbers, hf, hp, hnumbers, hmem⟩

/-- Sizes that the tray declares are not listed in its cups. -/
theorem declared_numbers_missing : ∃ document p,
    WellNamed [cafe ".cafe.Tray.Size" [sizes] []] ∧
    Documented [cafe ".cafe.Tray.Size" [sizes] []] {} 0 0 (cafe ".cafe.Tray.Size" [sizes] [])
      (tray ".cafe.Tray.Size" [sizes]) document ∧
    Shows (.ofFiles [cafe ".cafe.Tray.Size" [sizes] []]) {} (cafeTray ".cafe.Tray.Size" [sizes] [])
      ["cups", "size"] (cafeCup ".cafe.Tray.Size") (sizeField ".cafe.Tray.Size") ∧
    (sizeField ".cafe.Tray.Size").kind = .enum ∧ (sizeField ".cafe.Tray.Size").isRepeated = false ∧
    sizes.values ≠ [] ∧
    (∃ x ∈ (cafe ".cafe.Tray.Size" [sizes] []).definitions 0, sizes ∈ x.message.enums ∧
      (sizeField ".cafe.Tray.Size").typeName = Scope.fullName (x.parts ++ [sizes.name])) ∧
    document.property? ["cups", "size"] = some p ∧ p.member? "enum" = none := by
  obtain ⟨n, hn, hf⟩ := exists_documented_tray ".cafe.Tray.Size" [sizes] []
  obtain ⟨p, q, hp, hq, hchoice⟩ := exists_choice hn (shows_size _ _ _) rfl
  obtain rfl : p = q := hq
  refine ⟨_, p, by decide +kernel, hf, shows_size _ _ _, rfl, rfl, by decide, ?_, hp, ?_⟩
  · refine ⟨⟨["cafe"], ["Tray"], ⟨[0, 0], tray ".cafe.Tray.Size" [sizes]⟩⟩, ?_, .head _, by decide +kernel⟩
    refine Message.mem_definitionsFrom.2 ⟨0, tray ".cafe.Tray.Size" [sizes], rfl, ?_⟩
    rw [Message.definitions_eq]
    exact .head _
  · rw [hchoice, Node.member?_enum]
    rfl

end ProtoSchema
