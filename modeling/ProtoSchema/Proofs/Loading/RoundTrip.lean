import ProtoSchema.DescriptorSet
import ProtoSchema.Proofs.Loading.Spots
/-!
# Records of descriptors

`record` spells a descriptor out in the form in which it is transmitted: all names and numbers, and apart from
them one location for each declaration with comments. Reading that record gives the descriptor back, in whatever
order the locations stand and whatever others there are for paths that belong to no declaration
(`File.resolve_record_of_perm`).
-/

namespace ProtoSchema

namespace FieldKind

/-- The number that stands for a kind. -/
def number : FieldKind → Int32
  | double => 1
  | float => 2
  | int64 => 3
  | uint64 => 4
  | int32 => 5
  | fixed64 => 6
  | fixed32 => 7
  | bool => 8
  | string => 9
  | group => 10
  | message => 11
  | bytes => 12
  | uint32 => 13
  | enum => 14
  | sfixed32 => 15
  | sfixed64 => 16
  | sint32 => 17
  | sint64 => 18
  | unknown n => n

/-- The numbers of the known kinds are not those of an unknown one. -/
def Proper (k : FieldKind) : Prop := ∀ n, k = .unknown n → ¬ (1 ≤ n ∧ n ≤ 18)

theorem ofNumber_number {k : FieldKind} (h : k.Proper) : ofNumber k.number = k := by
  cases k with
  | unknown n =>
    have hn := h n rfl
    rw [number, ofNumber]
    split
    case isTrue hpos =>
      have hlength : known.length ≤ n.toInt.toNat - 1 := by
        have hlt : ¬ n ≤ 18 := fun hle => hn ⟨hpos, hle⟩
        rw [Int32.le_iff_toInt_le, show (18 : Int32).toInt = 18 from rfl] at hlt
        rw [show known.length = 18 from rfl]
        omega
      rw [List.getD_eq_getElem?_getD, List.getElem?_eq_none hlength, Option.getD_none]
    case isFalse => rfl
  | _ => rfl

end FieldKind

def Label.number : Label → Int32
  | optional => 1
  | required => 2
  | repeated => 3

/-! ## Descriptors as records -/

def Field.record (f : Field) : Record.Field where
  name := some f.name
  number := some f.number
  labelNumber := some f.label.number
  type := some f.kind.number
  typeName := some f.typeName
  jsonName := some f.jsonName

def EnumValue.record (v : EnumValue) : Record.EnumValue := ⟨some v.name, some v.number⟩

def Enum.record (e : Enum) : Record.Enum := ⟨some e.name, e.values.map EnumValue.record⟩

namespace Message

mutual

def record : Message → Record.Message
  | ⟨name, fields, nested, enums, mapEntry, _⟩ =>
    ⟨some name, fields.map Field.record, recordAll nested, enums.map Enum.record, some mapEntry⟩

def recordAll : List Message → List Record.Message
  | [] => []
  | m :: rest => m.record :: recordAll rest

end

theorem recordAll_eq (ms : List Message) : recordAll ms = ms.map record := by
  induction ms with
  | nil => rw [recordAll]; rfl
  | cons m ms ih => rw [recordAll, ih]; rfl

theorem record_eq (m : Message) : m.record =
    ⟨some m.name, m.fields.map Field.record, m.nested.map record, m.enums.map Enum.record, some m.mapEntry⟩ := by
  obtain ⟨_, _, _, _, _, _⟩ := m
  rw [record, recordAll_eq]

end Message

/-- A file without its comments, which stand in the locations. -/
def File.record (f : File) (locations : List Record.Location) : Record.File where
  name := some f.name
  package := f.package
  messages := f.messages.map Message.record
  enums := f.enums.map Enum.record
  locations

/-- The location that holds the comments of a declaration, if it has any. -/
def Spot.location? (s : Spot) : Option Record.Location :=
  s.comments.map fun c => ⟨s.path, c.leading, c.trailing, c.detached⟩

/-- One location for each declaration with comments. -/
def File.locations (f : File) : List Record.Location := f.spots.filterMap Spot.location?

namespace Record

/-! ## Comments by path -/

section
variable {spots : List Spot} {locations others : List Location} {s : Spot}

theorem comments_of_location? {l : Location} (h : s.location? = some l) :
    l.path = s.path ∧ s.comments = some l.comments := by
  obtain ⟨c, hc, rfl⟩ := Option.map_eq_some_iff.1 h
  exact ⟨rfl, hc⟩

theorem filter_spots (hn : (spots.map Spot.path).Nodup) (hs : s ∈ spots) :
    spots.filter (·.path = s.path) = [s] := by
  induction spots with
  | nil => cases hs
  | cons t spots ih =>
    rw [List.map_cons, List.nodup_cons] at hn
    rcases List.mem_cons.1 hs with rfl | hs
    · have hnone : spots.filter (·.path = s.path) = [] := by
        simpa using fun u hu heq => hn.1 (List.mem_map.2 ⟨u, hu, heq⟩)
      simp [hnone]
    · have hne : t.path ≠ s.path := fun heq => hn.1 (List.mem_map.2 ⟨s, hs, heq.symm⟩)
      simp [hne, ih hn.2 hs]

/-- Among the locations of some declarations, those with the path of one are its own. -/
theorem filter_locations (hn : (spots.map Spot.path).Nodup) (hs : s ∈ spots) :
    (spots.filterMap Spot.location?).filter (·.path = s.path) = s.location?.toList := by
  have hcommute : (spots.filterMap Spot.location?).filter (·.path = s.path) =
      (spots.filter (·.path = s.path)).filterMap Spot.location? := by
    rw [List.filter_filterMap, List.filterMap_filter]
    refine congrArg (List.filterMap · spots) (funext fun t => ?_)
    cases hl : t.location? with
    | none => simp
    | some l => simp [(comments_of_location? hl).1, Option.filter_some]
  rw [hcommute, filter_spots hn hs, List.filterMap_cons, List.filterMap_nil]
  cases s.location? <;> rfl

/-- Under the path of a declaration stand its comments and no others. -/
theorem commentsAt_of_mem (hn : (spots.map Spot.path).Nodup) (hs : s ∈ spots)
    (hp : locations.Perm (spots.filterMap Spot.location? ++ others)) (ho : ∀ l ∈ others, l.path ≠ s.path) :
    commentsAt locations s.path = s.comments := by
  have hothers : others.filter (·.path = s.path) = [] := by
    simpa using ho
  have hfilter : (locations.filter (·.path = s.path)).Perm s.location?.toList := by
    have h := hp.filter (·.path = s.path)
    rwa [List.filter_append, hothers, List.append_nil, filter_locations hn hs] at h
  rw [commentsAt]
  cases hl : s.location? with
  | none =>
    rw [hl] at hfilter
    rw [List.perm_nil.1 hfilter]
    exact (Option.map_eq_none_iff.1 hl).symm
  | some l =>
    rw [hl] at hfilter
    rw [List.perm_singleton.1 hfilter]
    exact (comments_of_location? hl).2.symm

end

/-! ## Reading a record -/

variable {locations : List Location} {path : List Int32}

/-- The locations say of each declaration in a list what the declaration says itself. -/
abbrev Tells (locations : List Location) (spots : List Spot) : Prop :=
  ∀ s ∈ spots, commentsAt locations s.path = s.comments

/-- A list is read back if that is so for each element, wherever it stands. -/
theorem Tells.mapIdx_resolve {α β : Type} {spots : List Int32 → α → List Spot} {l : List α} {f : α → β} (step : Step)
    (g : List Int32 → β → α) (h : Tells locations (spotsIn spots path step.number l))
    (hg : ∀ x ∈ l, ∀ p, Tells locations (spots p x) → g p (f x) = x) :
    (l.map f).mapIdx (fun i y => g (child path step i) y) = l := by
  refine List.ext_getElem? fun i => ?_
  rw [List.getElem?_mapIdx, List.getElem?_map]
  cases hx : l[i]? with
  | none => rfl
  | some x =>
    have htells : Tells locations (spots (child path step i) x) := fun s hs => h s (mem_spotsIn.2 ⟨i, x, hx, hs⟩)
    exact congrArg some (hg x (List.mem_of_getElem? hx) _ htells)

theorem Field.resolve_record {f : ProtoSchema.Field} (hk : f.kind.Proper)
    (hc : commentsAt locations path = f.comments) : f.record.resolve locations path = f := by
  have hlabel : f.record.label = f.label := by
    unfold Field.label ProtoSchema.Field.record
    cases f.label <;> rfl
  unfold resolve
  rw [hlabel, hc]
  simp only [ProtoSchema.Field.record, Option.getD_some, FieldKind.ofNumber_number hk]

theorem EnumValue.resolve_record {v : ProtoSchema.EnumValue} (hc : commentsAt locations path = v.comments) :
    v.record.resolve locations path = v := by
  rw [resolve, hc]
  rfl

theorem Enum.resolve_record {e : ProtoSchema.Enum} (h : Tells locations (e.spots path)) :
    e.record.resolve locations path = e := by
  obtain ⟨hown, hvalues⟩ := List.forall_mem_cons.1 h
  have hread := Tells.mapIdx_resolve .enumValue (EnumValue.resolve locations) hvalues
    fun _ _ _ hv => EnumValue.resolve_record (hv _ (.head _))
  rw [resolve, ProtoSchema.Enum.record, hread, hown]
  rfl

theorem Message.resolveFrom_eq (step : Step) (ms : List Message) :
    resolveFrom locations path step 0 ms = ms.mapIdx fun i m => m.resolve locations (child path step i) := by
  suffices h : ∀ i, resolveFrom locations path step i ms =
      ms.mapIdx fun k m => m.resolve locations (child path step (i + k)) by
    simpa only [Nat.zero_add] using h 0
  induction ms with
  | nil => intro i; rw [resolveFrom]; rfl
  | cons m ms ih =>
    intro i
    rw [resolveFrom, ih, List.mapIdx_cons]
    simp only [Nat.add_zero, Nat.add_assoc, Nat.add_comm 1]

theorem Message.resolve_record {m : ProtoSchema.Message}
    (hk : m.Throughout fun m => ∀ f ∈ m.fields, f.kind.Proper) (h : Tells locations (m.spots path)) :
    m.record.resolve locations path = m := by
  induction hk generalizing path with
  | @intro m hkinds _ ih =>
    rw [ProtoSchema.Message.spots_eq] at h
    obtain ⟨hown, hinside⟩ := List.forall_mem_cons.1 h
    obtain ⟨hinside, htellsEnums⟩ := List.forall_mem_append.1 hinside
    obtain ⟨htellsFields, htellsNested⟩ := List.forall_mem_append.1 hinside
    have hfields := Tells.mapIdx_resolve .messageField (Field.resolve locations) htellsFields
      fun f hf _ htells => Field.resolve_record (hkinds f hf) (htells _ (.head _))
    have hnested := Tells.mapIdx_resolve .nestedMessage (resolve locations) htellsNested
      fun n hn _ htells => ih n hn htells
    have henums := Tells.mapIdx_resolve .messageEnum (Enum.resolve locations) htellsEnums
      fun _ _ _ htells => Enum.resolve_record htells
    rw [ProtoSchema.Message.record_eq, resolve, hfields, resolveFrom_eq, hnested, henums, hown]
    -- A type of trees has no equation by eta, so the parts have to be named.
    obtain ⟨_, _, _, _, _, _⟩ := m
    rfl

end Record

/-- No field of a file has a kind that is unknown under the number of a known one. -/
def File.ProperKinds (f : File) : Prop :=
  ∀ m ∈ f.messages, m.Throughout fun m => ∀ field ∈ m.fields, field.kind.Proper

/-- A file is read back from the record that spells it out with locations in any order, which are one for
each declaration with comments, at its path, and others for paths of no declaration at all. -/
theorem File.resolve_record_of_perm {f : File} (hs : f.Short) (hk : f.ProperKinds)
    {locations others : List Record.Location} (hp : locations.Perm (f.locations ++ others))
    (ho : ∀ l ∈ others, ∀ s ∈ f.spots, l.path ≠ s.path) : (f.record locations).resolve = f := by
  have htells : Record.Tells locations f.spots := fun s hmem =>
    Record.commentsAt_of_mem (File.nodup_paths hs) hmem hp fun l hl => ho l hl s hmem
  obtain ⟨htellsMessages, htellsEnums⟩ := List.forall_mem_append.1 htells
  have hmessages := Record.Tells.mapIdx_resolve .fileMessage (Record.Message.resolve locations) htellsMessages
    fun m hm _ htells => Record.Message.resolve_record (hk m hm) htells
  have henums := Record.Tells.mapIdx_resolve .fileEnum (Record.Enum.resolve locations) htellsEnums
    fun _ _ _ htells => Record.Enum.resolve_record htells
  rw [record, Record.File.resolve, Record.Message.resolveFrom_eq, hmessages, henums]
  rfl

/-! ## A file with comments in lists of equal numbers -/

def remark (s : String) : Option Comments := some ⟨some s, none, []⟩

/-- The pages of a book. -/
def pageMessage : Message :=
  ⟨"Page", [⟨"text", "words", -3, .bytes, .required, "", remark "@max=9"⟩], [], [], true, remark "@title=Leaf"⟩

/-- A field, the pages and an enumeration, all at position 0 of their lists. -/
def bookMessage : Message :=
  ⟨"Book", [⟨"code", "code", 1, .unknown 77, .repeated, "", remark "@min=1"⟩], [pageMessage],
    [⟨"Cover", [⟨"SOFT", 0, remark "Paper"⟩, ⟨"HARD", 1, none⟩], remark "@title=Binding"⟩], false, none⟩

def bookFile : File := ⟨"book.proto", some "shelf", [bookMessage], [⟨"Genre", [⟨"VERSE", 5, remark "Poems"⟩], none⟩]⟩

/-- Locations of the syntax and of a list as a whole. -/
def bookOthers : List Record.Location :=
  [⟨[12], some "@title=Syntax", none, []⟩, ⟨[4, 0, 2], some "@title=Fields", none, []⟩]

theorem short_bookFile : bookFile.Short where
  messages := by decide
  enums := by decide
  values := by decide
  inside := List.forall_mem_singleton.2 (.intro ⟨by decide, by decide, by decide, by decide⟩
    (List.forall_mem_singleton.2 (.intro ⟨by decide, by decide, by decide, by decide⟩ nofun)))

theorem properKinds_bookFile : bookFile.ProperKinds := by
  have hcode : FieldKind.Proper (.unknown 77) := fun n hn => FieldKind.unknown.inj hn ▸ by decide
  exact List.forall_mem_singleton.2 (.intro (List.forall_mem_singleton.2 hcode)
    (List.forall_mem_singleton.2 (.intro (List.forall_mem_singleton.2 nofun) nofun)))

theorem resolve_record_of_perm_book : bookFile.Short ∧ bookFile.ProperKinds ∧
    (bookOthers ++ bookFile.locations.reverse).Perm (bookFile.locations ++ bookOthers) ∧
    (∀ l ∈ bookOthers, ∀ s ∈ bookFile.spots, l.path ≠ s.path) ∧ bookFile.locations.length = 6 ∧
    (bookFile.record (bookOthers ++ bookFile.locations.reverse)).resolve = bookFile := by
  have hp : (bookOthers ++ bookFile.locations.reverse).Perm (bookFile.locations ++ bookOthers) :=
    (List.perm_append_comm).trans ((List.reverse_perm _).append_right _)
  have ho : ∀ l ∈ bookOthers, ∀ s ∈ bookFile.spots, l.path ≠ s.path := by decide
  exact ⟨short_bookFile, properKinds_bookFile, hp, ho, by decide,
    File.resolve_record_of_perm short_bookFile properKinds_bookFile hp ho⟩

end ProtoSchema
