import ProtoSchema.Proofs.Loading.RoundTrip
/-!
# Comments by path

An address leads from a file to one of its declarations, by steps into lists and positions there. Loading keeps
every declaration at its address and gives it the comments of the last location whose path is that of the
address, exactly, or none. Declarations at different addresses have different paths, so no location is for two
of them (`comments_by_path`).
-/

namespace ProtoSchema

open Record (Step Location child)

/-! ## Addresses -/

/-- The steps from a file to a declaration, each with the position in the list that it leads into. -/
abbrev Address := List (Step × Nat)

namespace Address

/-- The path that a location for the declaration at an address has. -/
def path (a : Address) : List Int32 := a.flatMap fun s => [s.1.number, Int32.ofNat s.2]

/-- What an address leads to from `x`, where `inside` gives the lists of each thing. -/
def follow {α : Type} (inside : α → Step → List α) : Address → α → Option α
  | [], x => some x
  | (step, i) :: a, x => (inside x step)[i]?.bind (follow inside a)

end Address

/-- A declaration of a file. -/
inductive Descriptor where
  | message (m : Message)
  | field (f : Field)
  | enum (e : Enum)
  | value (v : EnumValue)

namespace Descriptor

def comments : Descriptor → Option Comments
  | message m => m.comments
  | field f => f.comments
  | enum e => e.comments
  | value v => v.comments

/-- The list that a step leads into. -/
def inside : Descriptor → Step → List Descriptor
  | message m, .messageField => m.fields.map field
  | message m, .nestedMessage => m.nested.map message
  | message m, .messageEnum => m.enums.map enum
  | enum e, .enumValue => e.values.map value
  | _, _ => []

end Descriptor

namespace File

def inside (f : File) : Step → List Descriptor
  | .fileMessage => f.messages.map .message
  | .fileEnum => f.enums.map .enum
  | _ => []

/-- The declaration at an address; the file itself is none. -/
def at? (f : File) : Address → Option Descriptor
  | [] => none
  | (step, i) :: a => (f.inside step)[i]?.bind (Address.follow Descriptor.inside a)

end File

namespace Record

/-- A declaration of a file as transmitted. -/
inductive Descriptor where
  | message (m : Message)
  | field (f : Field)
  | enum (e : Enum)
  | value (v : EnumValue)

namespace Descriptor

def inside : Descriptor → Step → List Descriptor
  | message m, .messageField => m.fields.map field
  | message m, .nestedMessage => m.nested.map message
  | message m, .messageEnum => m.enums.map enum
  | enum e, .enumValue => e.values.map value
  | _, _ => []

def resolve (locations : List Location) (path : List Int32) : Descriptor → ProtoSchema.Descriptor
  | message m => .message (m.resolve locations path)
  | field f => .field (f.resolve locations path)
  | enum e => .enum (e.resolve locations path)
  | value v => .value (v.resolve locations path)

/-- No list of a declaration, at any depth, is longer than positions go. -/
inductive Short : Descriptor → Prop where
  | intro {d : Descriptor} (here : ∀ step, (d.inside step).length ≤ positions)
    (below : ∀ step, ∀ x ∈ d.inside step, Short x) : Short d

end Descriptor

namespace File

def inside (f : File) : Step → List Descriptor
  | .fileMessage => f.messages.map .message
  | .fileEnum => f.enums.map .enum
  | _ => []

def at? (f : File) : Address → Option Descriptor
  | [] => none
  | (step, i) :: a => (f.inside step)[i]?.bind (Address.follow Descriptor.inside a)

/-- No list of a file, at any depth, is longer than positions go. -/
structure Short (f : File) : Prop where
  here : ∀ step, (f.inside step).length ≤ positions
  below : ∀ step, ∀ x ∈ f.inside step, x.Short

end File

/-- What the last location with a path says; nothing, if no location has this path. -/
inductive LastAt (locations : List Location) (path : List Int32) : Option Comments → Prop where
  | last {before after : List Location} {l : Location} (h : locations = before ++ l :: after) (hl : l.path = path)
    (later : ∀ m ∈ after, m.path ≠ path) : LastAt locations path (some ⟨l.leading, l.trailing, l.detached⟩)
  | none (h : ∀ l ∈ locations, l.path ≠ path) : LastAt locations path none

variable {locations : List Location} {path : List Int32} {c : Option Comments}

/-! ## The last location -/

theorem filter_path_eq_nil (h : ∀ l ∈ locations, l.path ≠ path) : locations.filter (·.path = path) = [] := by
  simpa using h

theorem commentsAt_of_lastAt (h : LastAt locations path c) : commentsAt locations path = c := by
  unfold commentsAt
  cases h with
  | last h hl later =>
    rw [h, List.filter_append, List.filter_cons_of_pos (by simpa using hl), filter_path_eq_nil later]
    simp [Location.comments]
  | none h =>
    rw [filter_path_eq_nil h]
    rfl

theorem exists_lastAt (locations : List Location) (path : List Int32) : ∃ c, LastAt locations path c := by
  induction locations with
  | nil => exact ⟨_, .none nofun⟩
  | cons l locations ih =>
    obtain ⟨c, h⟩ := ih
    cases h with
    | last h hl later =>
      subst h
      exact ⟨_, .last (List.cons_append ..).symm hl later⟩
    | none h =>
      by_cases hl : l.path = path
      · exact ⟨_, .last (List.nil_append _).symm hl h⟩
      · exact ⟨_, .none (List.forall_mem_cons.2 ⟨hl, h⟩)⟩

theorem lastAt_iff : LastAt locations path c ↔ commentsAt locations path = c := by
  refine ⟨commentsAt_of_lastAt, ?_⟩
  rintro rfl
  obtain ⟨c, h⟩ := exists_lastAt locations path
  rwa [commentsAt_of_lastAt h]

/-! ## Declarations at their addresses -/

theorem comments_resolve (d : Descriptor) : (d.resolve locations path).comments = commentsAt locations path := by
  cases d with
  | message m =>
    obtain ⟨_, _, _, _, _⟩ := m
    rw [Descriptor.resolve, Message.resolve]
    rfl
  | field f => rfl
  | enum e => rfl
  | value v => rfl

theorem map_mapIdx_resolve {α β : Type} {make : α → Descriptor} {make' : β → ProtoSchema.Descriptor}
    {read : Nat → α → β} {step : Step} (h : ∀ i x, make' (read i x) = (make x).resolve locations (child path step i))
    (l : List α) :
    (l.mapIdx read).map make' = (l.map make).mapIdx fun i x => x.resolve locations (child path step i) := by
  refine List.ext_getElem? fun i => ?_
  rw [List.getElem?_map, List.getElem?_mapIdx, List.getElem?_mapIdx, List.getElem?_map]
  cases l[i]? with
  | none => rfl
  | some x => exact congrArg some (h i x)

/-- The lists of a declaration are loaded element by element, each with the path of its position. -/
theorem inside_resolve (d : Descriptor) (step : Step) : (d.resolve locations path).inside step =
    (d.inside step).mapIdx fun i x => x.resolve locations (child path step i) := by
  cases d with
  | message m =>
    obtain ⟨_, _, _, _, _⟩ := m
    rw [Descriptor.resolve, Message.resolve, Message.resolveFrom_eq]
    cases step with
    | messageField | nestedMessage | messageEnum => exact map_mapIdx_resolve (fun _ _ => rfl) _
    | _ => rfl
  | enum e =>
    cases step with
    | enumValue => exact map_mapIdx_resolve (fun _ _ => rfl) _
    | _ => rfl
  | field f => cases step <;> rfl
  | value v => cases step <;> rfl

theorem inside_resolve_file (f : File) (step : Step) : f.resolve.inside step =
    (f.inside step).mapIdx fun i x => x.resolve f.locations (child [] step i) := by
  rw [File.resolve, Message.resolveFrom_eq]
  cases step with
  | fileMessage | fileEnum => exact map_mapIdx_resolve (fun _ _ => rfl) _
  | _ => rfl

theorem child_append_path (step : Step) (i : Nat) (a : Address) :
    child path step i ++ a.path = path ++ Address.path ((step, i) :: a) := by
  simp [child, Address.path]

theorem follow_resolve (a : Address) (d : Descriptor) :
    a.follow ProtoSchema.Descriptor.inside (d.resolve locations path) =
      (a.follow Descriptor.inside d).map (·.resolve locations (path ++ a.path)) := by
  induction a generalizing d path with
  | nil => simp [Address.follow, Address.path]
  | cons s a ih =>
    obtain ⟨step, i⟩ := s
    rw [Address.follow, Address.follow, inside_resolve, List.getElem?_mapIdx, ← child_append_path]
    cases (d.inside step)[i]? with
    | none => rfl
    | some x => exact ih x

/-- Every declaration is loaded where it stands, with the path of its address. -/
theorem at?_resolve (f : File) (a : Address) : f.resolve.at? a = (f.at? a).map (·.resolve f.locations a.path) := by
  cases a with
  | nil => rfl
  | cons s a =>
    obtain ⟨step, i⟩ := s
    rw [ProtoSchema.File.at?, File.at?, inside_resolve_file, List.getElem?_mapIdx]
    cases (f.inside step)[i]? with
    | none => rfl
    | some x => exact follow_resolve a x

/-! ## Different paths -/

/-- No two of some lists are under one number, unless one of them is empty. -/
def Apart (lists : Step → List Descriptor) : Prop :=
  ∀ step step', lists step ≠ [] → lists step' ≠ [] → step.number = step'.number → step = step'

/-- The number 2 is for the fields of a message and for the values of an enumeration, and 4 for the messages of a
file and for the enumerations of a message, but nothing has lists of both kinds. -/
theorem Descriptor.apart_inside (d : Descriptor) : Apart d.inside := by
  intro step step' hne hne' hnumber
  cases d <;> cases step <;> cases step' <;> simp_all [Descriptor.inside, Step.number]

theorem File.apart_inside (f : File) : Apart f.inside := by
  intro step step' hne hne' hnumber
  cases step <;> cases step' <;> simp_all [File.inside, Step.number]

/-- In lists that are short and apart, the first two numbers of a path tell the step and the position. -/
theorem Apart.cons_inj {lists : Step → List Descriptor} (h : Apart lists)
    (hs : ∀ step, (lists step).length ≤ positions) {s t : Step × Nat} {a b : Address} {x y : Descriptor}
    (ha : (lists s.1)[s.2]?.bind (a.follow Descriptor.inside) = some x)
    (hb : (lists t.1)[t.2]?.bind (b.follow Descriptor.inside) = some y)
    (hp : Address.path (s :: a) = Address.path (t :: b)) :
    s = t ∧ ∃ u ∈ lists s.1, a.follow Descriptor.inside u = some x ∧ b.follow Descriptor.inside u = some y ∧
      a.path = b.path := by
  obtain ⟨step, i⟩ := s
  obtain ⟨step', j⟩ := t
  obtain ⟨u, hu, ha⟩ := Option.bind_eq_some_iff.1 ha
  obtain ⟨v, hv, hb⟩ := Option.bind_eq_some_iff.1 hb
  have hpath : step.number = step'.number ∧ Int32.ofNat i = Int32.ofNat j ∧ a.path = b.path := by
    simpa [Address.path] using hp
  obtain rfl := h step step' (List.ne_nil_of_mem (List.mem_of_getElem? hu))
    (List.ne_nil_of_mem (List.mem_of_getElem? hv)) hpath.1
  have hlt : ∀ k z, (lists step)[k]? = some z → k < positions := fun k z hk =>
    Nat.lt_of_lt_of_le (List.getElem?_eq_some_iff.1 hk).1 (hs step)
  obtain rfl := ofNat_inj_of_lt (hlt i u hu) (hlt j v hv) hpath.2.1
  obtain rfl := Option.some.inj (hu.symm.trans hv)
  exact ⟨rfl, u, List.mem_of_getElem? hu, ha, hb, hpath.2.2⟩

theorem Descriptor.Short.path_inj {d x y : Descriptor} (h : d.Short) {a b : Address}
    (ha : a.follow Descriptor.inside d = some x) (hb : b.follow Descriptor.inside d = some y)
    (hp : a.path = b.path) : a = b := by
  induction a generalizing d b with
  | nil =>
    cases b with
    | nil => rfl
    | cons t b => cases hp
  | cons s a ih =>
    cases b with
    | nil => cases hp
    | cons t b =>
      obtain ⟨hshort, hbelow⟩ := h
      obtain ⟨rfl, u, hu, ha, hb, hp⟩ := d.apart_inside.cons_inj hshort ha hb hp
      rw [ih (hbelow _ u hu) ha hb hp]

/-- Declarations at different addresses have different paths. -/
theorem File.Short.path_inj {f : File} (h : f.Short) {a b : Address} {x y : Descriptor} (ha : f.at? a = some x)
    (hb : f.at? b = some y) (hp : a.path = b.path) : a = b := by
  cases a with
  | nil => cases ha
  | cons s a =>
    cases b with
    | nil => cases hb
    | cons t b =>
      obtain ⟨rfl, u, hu, ha, hb, hp⟩ := f.apart_inside.cons_inj h.here ha hb hp
      rw [(h.below _ u hu).path_inj ha hb hp]

/-- Every declaration of a file is loaded at its address. Its comments are those of the last location with exactly
the path of the address, and there are none without such a location; and the path is that of no other address of
a declaration, so that no location is for two. -/
theorem comments_by_path {f : File} (h : f.Short) :
    (∀ a, f.resolve.at? a = (f.at? a).map fun d => d.resolve f.locations a.path) ∧
    (∀ a d, f.resolve.at? a = some d → ∀ c, LastAt f.locations a.path c ↔ d.comments = c) ∧
    ∀ a b x y, f.at? a = some x → f.at? b = some y → a.path = b.path → a = b := by
  refine ⟨at?_resolve f, fun a d hd c => ?_, fun a b x y => h.path_inj⟩
  rw [at?_resolve] at hd
  obtain ⟨x, -, rfl⟩ := Option.map_eq_some_iff.1 hd
  rw [lastAt_iff, comments_resolve]

/-! ## A file with locations that are not for its declarations -/

namespace Descriptor

theorem short_field (f : Field) : (field f).Short :=
  .intro (by simp [inside]) (by simp [inside])

theorem short_value (v : EnumValue) : (value v).Short :=
  .intro (by simp [inside]) (by simp [inside])

theorem short_enum {e : Enum} (h : e.values.length ≤ positions) : (enum e).Short := by
  constructor
  · intro step
    cases step <;> simp [inside, h]
  · intro step x hx
    cases step with
    | enumValue =>
      obtain ⟨v, -, rfl⟩ := List.mem_map.1 hx
      exact short_value v
    | _ => cases hx

theorem short_message {m : Message} (hf : m.fields.length ≤ positions) (hn : m.nested.length ≤ positions)
    (he : m.enums.length ≤ positions) (hnested : ∀ n ∈ m.nested, (message n).Short)
    (hvalues : ∀ e ∈ m.enums, e.values.length ≤ positions) : (message m).Short := by
  constructor
  · intro step
    cases step <;> simp [inside, hf, hn, he]
  · intro step x hx
    cases step with
    | messageField =>
      obtain ⟨f, -, rfl⟩ := List.mem_map.1 hx
      exact short_field f
    | nestedMessage =>
      obtain ⟨n, hn, rfl⟩ := List.mem_map.1 hx
      exact hnested n hn
    | messageEnum =>
      obtain ⟨e, he, rfl⟩ := List.mem_map.1 hx
      exact short_enum (hvalues e he)
    | _ => cases hx

end Descriptor

/-- The path of the field `name` three times, once with another number behind it, and paths of no declaration. -/
def songLocations : List Location :=
  [⟨[4, 0, 2, 0], some "@id", none, []⟩, ⟨[4, 0, 2], some "All fields", none, []⟩,
    ⟨[4, 0, 2, 0], some "@title=Name", some "As sung", ["Of the song"]⟩, ⟨[4, 0, 4], some "All moods", none, []⟩,
    ⟨[4, 0, 2, 0, 1], some "The word itself", none, []⟩, ⟨[6, 0], some "A service", none, []⟩]

/-- A message with a field and an enumeration, which both have elements under the number 2. -/
def songFile : File where
  name := some "song.proto"
  package := none
  messages := [⟨some "Song", [⟨some "name", some 1, none, some 9, none, none⟩], [],
    [⟨some "Mood", [⟨some "CALM", some 0⟩]⟩], none⟩]
  enums := []
  locations := songLocations

theorem short_songFile : songFile.Short where
  here step := by cases step <;> decide
  below step x hx := by
    cases step with
    | fileMessage =>
      obtain rfl := List.mem_singleton.1 hx
      exact Descriptor.short_message (by decide) (by decide) (by decide) nofun (by decide)
    | _ => cases hx

/-- The address of the field. -/
def nameAddress : Address := [(.fileMessage, 0), (.messageField, 0)]

/-- The address of the enumeration. -/
def moodAddress : Address := [(.fileMessage, 0), (.messageEnum, 0)]

theorem comments_by_path_song : songFile.Short ∧
    (∃ d, songFile.resolve.at? nameAddress = some d ∧
      d.comments = some ⟨some "@title=Name", some "As sung", ["Of the song"]⟩) ∧
    (∃ d, songFile.resolve.at? moodAddress = some d ∧ d.comments = none) ∧ nameAddress.path ≠ moodAddress.path := by
  obtain ⟨hat, hcomments, hpaths⟩ := comments_by_path short_songFile
  have hlast : songLocations = songLocations.take 2 ++ songLocations[2] :: songLocations.drop 3 := rfl
  have hname : LastAt songLocations nameAddress.path (some ⟨some "@title=Name", some "As sung", ["Of the song"]⟩) :=
    .last hlast rfl (by decide)
  have hmood : LastAt songLocations moodAddress.path none := .none (by decide)
  refine ⟨short_songFile, ⟨_, hat nameAddress, ?_⟩, ⟨_, hat moodAddress, ?_⟩, fun hp => ?_⟩
  · exact (hcomments nameAddress _ (hat nameAddress) _).1 hname
  · exact (hcomments moodAddress _ (hat moodAddress) _).1 hmood
  · exact absurd (hpaths _ _ _ _ rfl rfl hp) (by decide)

end Record
end ProtoSchema
