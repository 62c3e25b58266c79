import Mathlib.Data.List.Nodup
import ProtoSchema.Descriptor
/-!
# Where declarations stand

Comments are transmitted apart from the declarations that they belong to, each with a path: for every step
inwards the number of the list that is entered and the position there. `spots` lists the declarations of a
file with their paths and comments. Small numbers stand for several lists, 2 for fields and for values of
enumerations, 4 for messages of a file and for enumerations of a message, and yet no two declarations of a
file have the same path (`File.nodup_paths`).
-/

namespace ProtoSchema

/-- A declaration as far as comments go: where it stands, and what is said about it. -/
structure Spot where
  path : List Int32
  comments : Option Comments

/-- The path of what stands at position `i` of a list of what stands at `path`. -/
def pathIn (path : List Int32) (list : Int32) (i : Nat) : List Int32 := path ++ [list, Int32.ofNat i]

/-- The spots of all that one list holds, where each element has those that `spots` says. -/
def spotsIn {α : Type} (spots : List Int32 → α → List Spot) (path : List Int32) (list : Int32) (l : List α) :
    List Spot :=
  l.zipIdx.flatMap fun e => spots (pathIn path list e.2) e.1

def Field.spots (path : List Int32) (f : Field) : List Spot := [⟨path, f.comments⟩]

def EnumValue.spots (path : List Int32) (v : EnumValue) : List Spot := [⟨path, v.comments⟩]

def Enum.spots (path : List Int32) (e : Enum) : List Spot :=
  ⟨path, e.comments⟩ :: spotsIn EnumValue.spots path 2 e.values

namespace Message

mutual

def spots (path : List Int32) : Message → List Spot
  | ⟨_, fields, nested, enums, _, comments⟩ =>
    ⟨path, comments⟩ :: (spotsIn Field.spots path 2 fields ++ spotsFrom path 3 0 nested
      ++ spotsIn Enum.spots path 4 enums)

/-- The spots of the messages of a list, `i` being the position of its head. -/
def spotsFrom (path : List Int32) (list : Int32) (i : Nat) : List Message → List Spot
  | [] => []
  | m :: rest => m.spots (pathIn path list i) ++ spotsFrom path list (i + 1) rest

end

theorem spotsFrom_eq (path : List Int32) (list : Int32) (i : Nat) (ms : List Message) :
    spotsFrom path list i ms = (ms.zipIdx i).flatMap fun e => e.1.spots (pathIn path list e.2) := by
  induction ms generalizing i with
  | nil => rw [spotsFrom]; rfl
  | cons m ms ih => rw [spotsFrom, ih, List.zipIdx_cons, List.flatMap_cons]

theorem spots_eq (path : List Int32) (m : Message) : m.spots path =
    ⟨path, m.comments⟩ :: (spotsIn Field.spots path 2 m.fields ++ spotsIn spots path 3 m.nested
      ++ spotsIn Enum.spots path 4 m.enums) := by
  obtain ⟨_, _, _, _, _, _⟩ := m
  rw [spots, spotsFrom_eq]
  rfl

/-- Something holds of a message and of all that are nested in it, at any depth. -/
inductive Throughout (P : Message → Prop) : Message → Prop where
  | intro {m : Message} (here : P m) (inside : ∀ n ∈ m.nested, Throughout P n) : Throughout P m

end Message

def File.spots (f : File) : List Spot :=
  spotsIn Message.spots [] 4 f.messages ++ spotsIn Enum.spots [] 5 f.enums

/-! ## Lists whose positions can be told apart -/

/-- A position in a path is a 32-bit number with a sign, so there are this many. -/
def positions : Nat := 2147483648

/-- The lists of one message are no longer than positions go. -/
structure Message.Short (m : Message) : Prop where
  fields : m.fields.length ≤ positions
  nested : m.nested.length ≤ positions
  enums : m.enums.length ≤ positions
  values : ∀ e ∈ m.enums, e.values.length ≤ positions

structure File.Short (f : File) : Prop where
  messages : f.messages.length ≤ positions
  enums : f.enums.length ≤ positions
  values : ∀ e ∈ f.enums, e.values.length ≤ positions
  inside : ∀ m ∈ f.messages, m.Throughout Message.Short

/-! ## Different paths -/

variable {path q : List Int32} {list list' : Int32} {i j : Nat}

theorem ofNat_inj_of_lt (hi : i < positions) (hj : j < positions) (h : Int32.ofNat i = Int32.ofNat j) : i = j := by
  have h := congrArg Int32.toInt h
  rw [Int32.toInt_ofNat_of_lt hi, Int32.toInt_ofNat_of_lt hj] at h
  exact Int.ofNat.inj h

theorem prefix_of_pathIn (h : pathIn path list i <+: q) : path <+: q := (List.prefix_append _ _).trans h

/-- What stands below two positions of the same declaration stands in one list, at one position. -/
theorem pathIn_unique (h : pathIn path list i <+: q) (h' : pathIn path list' j <+: q) :
    list = list' ∧ Int32.ofNat i = Int32.ofNat j := by
  have heq : pathIn path list i = pathIn path list' j :=
    (List.prefix_of_prefix_length_le h h' (by simp [pathIn])).eq_of_length (by simp [pathIn])
  simpa [pathIn] using heq

theorem not_pathIn (h : pathIn path list i <+: path) : False := by
  have hlength := h.length_le
  simp only [pathIn, List.length_append, List.length_cons, List.length_nil] at hlength
  omega

/-- Spots at a path and below it, each with a path of its own. -/
structure Rooted (path : List Int32) (spots : List Spot) : Prop where
  begins : ∀ s ∈ spots, path <+: s.path
  nodup : (spots.map Spot.path).Nodup

/-- A declaration and what stands in its lists. -/
theorem Rooted.cons {comments : Option Comments} {inside : List Spot}
    (hbelow : ∀ s ∈ inside, ∃ list i, pathIn path list i <+: s.path) (hn : (inside.map Spot.path).Nodup) :
    Rooted path (⟨path, comments⟩ :: inside) where
  begins := by
    refine List.forall_mem_cons.2 ⟨List.prefix_rfl, fun s hs => ?_⟩
    obtain ⟨list, i, h⟩ := hbelow s hs
    exact prefix_of_pathIn h
  nodup := by
    refine List.nodup_cons.2 ⟨fun hmem => ?_, hn⟩
    obtain ⟨s, hs, heq⟩ := List.mem_map.1 hmem
    obtain ⟨list, i, h⟩ := hbelow s hs
    exact not_pathIn (heq ▸ h)

theorem Rooted.single (comments : Option Comments) : Rooted path [⟨path, comments⟩] :=
  .cons (by simp) List.nodup_nil

section
variable {α : Type} {spots : List Int32 → α → List Spot} {l : List α} {s : Spot}

theorem mem_spotsIn : s ∈ spotsIn spots path list l ↔
    ∃ (i : Nat) (x : α), l[i]? = some x ∧ s ∈ spots (pathIn path list i) x := by
  simp only [spotsIn, List.mem_flatMap, Prod.exists, List.mem_zipIdx_iff_getElem?]
  exact exists_comm

variable (h : ∀ x ∈ l, ∀ p, Rooted p (spots p x))
include h

theorem exists_pathIn_of_mem (hs : s ∈ spotsIn spots path list l) : ∃ i, pathIn path list i <+: s.path := by
  obtain ⟨i, x, hx, hs⟩ := mem_spotsIn.1 hs
  exact ⟨i, (h x (List.mem_of_getElem? hx) _).begins s hs⟩

theorem nodup_spotsIn (hl : l.length ≤ positions) : ((spotsIn spots path list l).map Spot.path).Nodup := by
  rw [spotsIn, List.map_flatMap, List.nodup_flatMap]
  have hlt : ∀ e ∈ l.zipIdx, e.2 < positions := fun e he =>
    Nat.lt_of_lt_of_le (List.snd_lt_of_mem_zipIdx he) (by simpa using hl)
  constructor
  · intro e he
    exact (h e.1 (List.fst_mem_of_mem_zipIdx he) _).nodup
  · have hindices : l.zipIdx.Pairwise fun e e' => e.2 < e'.2 := by
      rw [← List.pairwise_map, List.zipIdx_map_snd]
      exact List.pairwise_lt_range'
    refine hindices.imp_of_mem fun he he' hne => ?_
    intro q hq hq'
    obtain ⟨s, hs, rfl⟩ := List.mem_map.1 hq
    obtain ⟨s', hs', hpath⟩ := List.mem_map.1 hq'
    have hbelow := (h _ (List.fst_mem_of_mem_zipIdx he) _).begins s hs
    have hbelow' := (h _ (List.fst_mem_of_mem_zipIdx he') _).begins s' hs'
    rw [hpath] at hbelow'
    exact Nat.ne_of_lt hne (ofNat_inj_of_lt (hlt _ he) (hlt _ he') (pathIn_unique hbelow hbelow').2)

end

/-- Two lists with different numbers have no spot in common. -/
theorem disjoint_spotsIn {α β : Type} {spots : List Int32 → α → List Spot} {spots' : List Int32 → β → List Spot}
    {l : List α} {l' : List β} (h : ∀ x ∈ l, ∀ p, Rooted p (spots p x)) (h' : ∀ x ∈ l', ∀ p, Rooted p (spots' p x))
    (hne : list ≠ list') :
    List.Disjoint ((spotsIn spots path list l).map Spot.path) ((spotsIn spots' path list' l').map Spot.path) := by
  rw [List.disjoint_left]
  rintro q hq hq'
  obtain ⟨s, hs, rfl⟩ := List.mem_map.1 hq
  obtain ⟨s', hs', hpath⟩ := List.mem_map.1 hq'
  obtain ⟨i, hi⟩ := exists_pathIn_of_mem h hs
  obtain ⟨j, hj⟩ := exists_pathIn_of_mem h' hs'
  exact hne (pathIn_unique hi (hpath ▸ hj)).1

theorem Enum.rooted_spots {e : Enum} (h : e.values.length ≤ positions) (path : List Int32) :
    Rooted path (e.spots path) :=
  .cons (fun _ hs => ⟨2, exists_pathIn_of_mem (fun _ _ _ => .single _) hs⟩) (nodup_spotsIn (fun _ _ _ => .single _) h)

theorem Message.rooted_spots {m : Message} (h : m.Throughout Message.Short) (path : List Int32) :
    Rooted path (m.spots path) := by
  induction h generalizing path with
  | @intro m hshort _ ih =>
    have hfields : ∀ f ∈ m.fields, ∀ p, Rooted p (Field.spots p f) := fun _ _ _ => .single _
    have henums : ∀ e ∈ m.enums, ∀ p, Rooted p (Enum.spots p e) := fun e he => e.rooted_spots (hshort.values e he)
    rw [spots_eq]
    refine .cons (fun s hs => ?_) ?_
    · rcases List.mem_append.1 hs with hs | hs
      · rcases List.mem_append.1 hs with hs | hs
        · exact ⟨2, exists_pathIn_of_mem hfields hs⟩
        · exact ⟨3, exists_pathIn_of_mem ih hs⟩
      · exact ⟨4, exists_pathIn_of_mem henums hs⟩
    · rw [List.map_append, List.map_append]
      refine List.nodup_append'.2 ⟨List.nodup_append'.2 ⟨nodup_spotsIn hfields hshort.fields,
        nodup_spotsIn ih hshort.nested, disjoint_spotsIn hfields ih (by decide)⟩,
        nodup_spotsIn henums hshort.enums, List.disjoint_append_left.2 ⟨?_, ?_⟩⟩
      · exact disjoint_spotsIn hfields henums (by decide)
      · exact disjoint_spotsIn ih henums (by decide)

/-- No two declarations of a file have the same path. -/
theorem File.nodup_paths {f : File} (h : f.Short) : (f.spots.map Spot.path).Nodup := by
  have hmessages : ∀ m ∈ f.messages, ∀ p, Rooted p (Message.spots p m) := fun m hm =>
    m.rooted_spots (h.inside m hm)
  have henums : ∀ e ∈ f.enums, ∀ p, Rooted p (Enum.spots p e) := fun e he => e.rooted_spots (h.values e he)
  rw [spots, List.map_append]
  exact List.nodup_append'.2 ⟨nodup_spotsIn hmessages h.messages, nodup_spotsIn henums h.enums,
    disjoint_spotsIn hmessages henums (by decide)⟩

end ProtoSchema
