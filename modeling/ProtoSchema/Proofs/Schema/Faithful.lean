import ProtoSchema.Proofs.Schema.Everywhere
import ProtoSchema.Proofs.Schema.Permissions
/-!
# Documents lose nothing

Each attribute of a node may be written under one key of its object, and what stands there, or that
nothing does, tells the attribute (`slots`). By induction over the parts, nodes with equal objects are
equal. The order of members is no part of a JSON value as readers compare it, so this is proved for any
way to compare values (`Json.Comparing`): as they are written, and with the members of all objects in
one order (`Json.sorted`), where only values to choose from and their labels can differ at all.
-/

namespace ProtoSchema

namespace Json

mutual

/-- The value with the members of all objects sorted by key, the first one where a key stands twice. -/
def sorted : Json → Json
  | .arr elements => .arr (sortedElements elements)
  | .obj members => .obj (sortedMembers members)
  | .null => .null
  | .bool b => .bool b
  | .num n => .num n
  | .str s => .str s

def sortedElements : List Json → List Json
  | [] => []
  | j :: rest => j.sorted :: sortedElements rest

def sortedMembers : List (String × Json) → List (String × Json)
  | [] => []
  | (key, j) :: rest => Dictionary.insertEntry key j.sorted (sortedMembers rest)

end

/-- What is compared of a value in a sense of equality that compares arrays by their elements and objects by their
members. -/
structure Comparing (g : Json → Json) : Prop where
  bool : ∀ b, g (.bool b) = .bool b
  num : ∀ n, g (.num n) = .num n
  str : ∀ s, g (.str s) = .str s
  arr : ∀ elements, g (.arr elements) = .arr (elements.map g)
  member? : ∀ j key, (g j).member? key = (j.member? key).map g

theorem comparing_id : Comparing id where
  bool _ := rfl
  num _ := rfl
  str _ := rfl
  arr elements := by rw [List.map_id]; rfl
  member? j key := by rw [Option.map_id]; rfl

theorem sortedElements_eq (elements : List Json) : sortedElements elements = elements.map sorted := by
  induction elements with
  | nil => rw [sortedElements]; rfl
  | cons j rest ih => rw [sortedElements, ih]; rfl

theorem lookup_sortedMembers (key : String) (members : List (String × Json)) :
    (sortedMembers members).lookup key = (members.lookup key).map sorted := by
  induction members with
  | nil => rw [sortedMembers]; rfl
  | cons e rest ih =>
    obtain ⟨k, j⟩ := e
    rw [sortedMembers, Dictionary.lookup_insertEntry, Dictionary.lookup_cons, ih]
    split <;> rfl

theorem comparing_sorted : Comparing sorted where
  bool _ := by rw [sorted]
  num _ := by rw [sorted]
  str _ := by rw [sorted]
  arr elements := by rw [sorted, sortedElements_eq]
  member? j key := by
    cases j with
    | obj members => rw [sorted]; exact lookup_sortedMembers key members
    | _ => rw [sorted]; rfl

end Json

namespace Schema

attribute [ext] Annotations

theorem Kind.name_injective : Function.Injective Kind.name := by
  intro kind kind' h
  cases kind <;> cases kind' <;> first | rfl | simp [Kind.name] at h

theorem ValueType.json_injective : Function.Injective ValueType.json := by
  intro type type' h
  cases type <;> cases type' <;> simp only [ValueType.json, reduceCtorEq, Json.str.injEq, Json.arr.injEq] at h
  case single.single kind kind' => exact congrArg _ (Kind.name_injective h)
  case union.union kinds kinds' =>
    exact congrArg _ ((List.map_inj_right fun k k' hk => Kind.name_injective (Json.str.inj hk)).1 h)

theorem ValueType.compared_json {g : Json → Json} (hg : Json.Comparing g) (type : ValueType) :
    g type.json = type.json := by
  cases type with
  | single kind => exact hg.str _
  | union kinds => simp [ValueType.json, hg.arr, hg.str]

end Schema

namespace Schema.Node

/-! ## A member for each attribute -/

/-- What is written for a flag. -/
def flagJson (holds : Bool) : Option Json := if holds then some (.bool true) else none

/-- The keys that an object may have, in order, each with what is written there if anything is. -/
def slots (n : Node) : List (String × Option Json) :=
  [("type", some n.type.json),
   ("title", n.annotations.title.map .str),
   ("description", n.annotations.description.map .str),
   ("properties", if n.type = .single .object ∨ n.properties.isEmpty = false then some (.obj n.propertyMembers)
      else none),
   ("items", n.items.map toJson),
   ("additionalProperties", n.additionalProperties.map .bool),
   ("enum", if n.enumValues = [] then none else some (.arr n.enumValues)),
   ("optionLabels", if n.enumValues = [] then none else some (.arr n.optionLabels)),
   ("minimum", n.annotations.minimum.map .num),
   ("maximum", n.annotations.maximum.map .num),
   ("minLength", n.annotations.minLength.map fun n => .num (Int.ofNat n)),
   ("maxLength", n.annotations.maxLength.map fun n => .num (Int.ofNat n)),
   ("pattern", n.annotations.pattern.map .str),
   ("format", n.annotations.format.map .str),
   ("required", flagJson n.annotations.required),
   ("primaryKey", flagJson n.annotations.primaryKey),
   ("autoIncrement", flagJson n.annotations.autoIncrement),
   ("index", flagJson n.annotations.index),
   ("query", flagJson n.annotations.query),
   ("propertyOrder", n.order.map fun n => .num n.toInt)]

/-- The member for what is written under a key. -/
def filled (slot : String × Option Json) : List (String × Json) := slot.2.toList.map (slot.1, ·)

theorem member_eq_filled {α : Type} (key : String) (write : α → Json) (value : Option α) :
    member key write value = filled (key, value.map write) := by
  cases value <;> rfl

theorem flag_eq_filled (key : String) (holds : Bool) : flag key holds = filled (key, flagJson holds) := by
  cases holds <;> rfl

theorem members_eq_slots (n : Node) : n.members = n.slots.flatMap filled := by
  have hproperties : (if n.type = .single .object || !n.properties.isEmpty then
        [("properties", Json.obj n.propertyMembers)] else []) = filled ("properties",
      if n.type = .single .object ∨ n.properties.isEmpty = false then some (.obj n.propertyMembers) else none) := by
    by_cases h : n.type = .single .object ∨ n.properties.isEmpty = false
    · rw [if_pos h, if_pos (by simpa using h)]
      rfl
    · rw [if_neg h, if_neg (by simpa using h)]
      rfl
  have hvalues : (if n.enumValues.isEmpty then []
        else [("enum", .arr n.enumValues), ("optionLabels", .arr n.optionLabels)]) =
      filled ("enum", if n.enumValues = [] then none else some (.arr n.enumValues)) ++
        filled ("optionLabels", if n.enumValues = [] then none else some (.arr n.optionLabels)) := by
    cases n.enumValues <;> rfl
  rw [members_eq, hproperties, hvalues]
  simp only [member_eq_filled, flag_eq_filled, slots, List.flatMap_cons, List.flatMap_nil, List.append_assoc,
    List.append_nil]
  rfl

section Slots

variable {l l' : List (String × Option Json)} {g : Json → Json}

theorem keys_filled_sublist (l : List (String × Option Json)) :
    ((l.flatMap filled).map Prod.fst).Sublist (l.map Prod.fst) := by
  induction l with
  | nil => exact .slnil
  | cons slot l ih =>
    obtain ⟨key, _ | j⟩ := slot
    · exact ih.cons key
    · exact ih.cons_cons key

theorem lookup_filled (hn : (l.map Prod.fst).Nodup) (key : String) :
    (l.flatMap filled).lookup key = (l.lookup key).join := by
  induction l with
  | nil => rfl
  | cons slot l ih =>
    obtain ⟨k, value⟩ := slot
    obtain ⟨hk, hn⟩ := List.nodup_cons.1 hn
    rw [List.flatMap_cons, List.lookup_append, ih hn, Dictionary.lookup_cons]
    by_cases heq : key = k
    · subst heq
      have hnone : l.lookup key = none := Dictionary.lookup_eq_none hk
      cases value <;> simp [filled, hnone]
    · cases value <;> simp [filled, Dictionary.lookup_cons, heq]

/-- Where the same keys may be written, equal answers under each of them are equal slots. -/
theorem slots_agree (hkeys : l.map Prod.fst = l'.map Prod.fst) (hn : (l.map Prod.fst).Nodup)
    (h : ∀ key, ((l.lookup key).join).map g = ((l'.lookup key).join).map g) :
    (l.map fun slot => slot.2.map g) = l'.map fun slot => slot.2.map g := by
  induction l generalizing l' with
  | nil => rw [List.map_eq_nil_iff.1 hkeys.symm]
  | cons slot l ih =>
    obtain ⟨k, value⟩ := slot
    obtain ⟨⟨k', value'⟩, l', rfl, rfl, htail⟩ := List.map_eq_cons_iff.1 hkeys.symm
    obtain ⟨hk, hn⟩ := List.nodup_cons.1 hn
    have hhead : value.map g = value'.map g := by simpa using h k'
    refine List.cons_eq_cons.2 ⟨hhead, ih htail.symm hn fun key => ?_⟩
    -- Below the head its key has no slot on either side, and for other keys the head does not count.
    by_cases heq : key = k'
    · subst heq
      rw [Dictionary.lookup_eq_none hk, Dictionary.lookup_eq_none (htail ▸ hk)]
    · simpa [Dictionary.lookup_cons, heq] using h key

end Slots

/-- No key has two slots. -/
theorem slots_keys_nodup (n : Node) : (n.slots.map Prod.fst).Nodup := by
  simp [slots]

theorem keys_members_sublist (n : Node) : (n.members.map Prod.fst).Sublist (n.slots.map Prod.fst) := by
  rw [members_eq_slots]
  exact keys_filled_sublist n.slots

theorem member?_toJson (n : Node) (key : String) : n.toJson.member? key = (n.slots.lookup key).join := by
  rw [toJson, Json.member?, members_eq_slots, lookup_filled n.slots_keys_nodup]

/-! ## Attributes read back -/

section Written

variable {g : Json → Json} {a b : Node}

theorem eq_of_written {α : Type} {write : α → Json} (hfix : ∀ v, g (write v) = write v)
    (hinj : Function.Injective write) {v v' : Option α} (h : (v.map write).map g = (v'.map write).map g) :
    v = v' := by
  have hg : g ∘ write = write := funext hfix
  rw [Option.map_map, Option.map_map, hg] at h
  exact Option.map_injective hinj h

theorem eq_of_flagJson {holds holds' : Bool} (h : (flagJson holds).map g = (flagJson holds').map g) :
    holds = holds' := by
  cases holds <;> cases holds' <;> simp_all [flagJson]

theorem slots_eq (hg : Json.Comparing g) (h : g a.toJson = g b.toJson) :
    (a.slots.map fun slot => slot.2.map g) = b.slots.map fun slot => slot.2.map g := by
  refine slots_agree rfl a.slots_keys_nodup fun key => ?_
  rw [← member?_toJson, ← member?_toJson, ← hg.member?, ← hg.member?, h]

/-- What belongs to a node itself is read off its object. -/
theorem own_eq (hg : Json.Comparing g) (h : g a.toJson = g b.toJson) :
    a.type = b.type ∧ a.annotations = b.annotations ∧ a.additionalProperties = b.additionalProperties ∧
      a.order = b.order := by
  have hs := slots_eq hg h
  simp only [slots, List.map_cons, List.map_nil, List.cons.injEq, and_true] at hs
  obtain ⟨htype, htitle, hdescription, -, -, hadditional, -, -, hminimum, hmaximum, hminLength, hmaxLength,
    hpattern, hformat, hrequired, hprimaryKey, hautoIncrement, hindex, hquery, horder⟩ := hs
  have htext {v v' : Option String} : (v.map Json.str).map g = (v'.map Json.str).map g → v = v' :=
    eq_of_written hg.str fun _ _ => Json.str.inj
  have hint {v v' : Option Int} : (v.map Json.num).map g = (v'.map Json.num).map g → v = v' :=
    eq_of_written hg.num fun _ _ => Json.num.inj
  have hnat {v v' : Option Nat} : (v.map fun n => Json.num (Int.ofNat n)).map g =
      (v'.map fun n => Json.num (Int.ofNat n)).map g → v = v' :=
    eq_of_written (fun _ => hg.num _) fun _ _ hn => Int.ofNat.inj (Json.num.inj hn)
  refine ⟨?type, ?annotations, ?additional, ?order⟩
  case type =>
    exact Option.some.inj (eq_of_written (ValueType.compared_json hg) ValueType.json_injective htype)
  case annotations =>
    rw [Annotations.ext_iff]
    exact ⟨htext htitle, htext hdescription, htext hformat, htext hpattern, hint hminimum, hint hmaximum,
      hnat hminLength, hnat hmaxLength, eq_of_flagJson hrequired, eq_of_flagJson hprimaryKey,
      eq_of_flagJson hautoIncrement, eq_of_flagJson hindex, eq_of_flagJson hquery⟩
  case additional => exact eq_of_written hg.bool (fun _ _ => Json.bool.inj) hadditional
  case order => exact eq_of_written (fun _ => hg.num _) (fun _ _ hn => Int32.toInt_inj.1 (Json.num.inj hn)) horder

/-- The values to choose from and their labels, where there are no labels without values. -/
theorem values_eq (hg : Json.Comparing g) (ha : a.enumValues = [] → a.optionLabels = [])
    (hb : b.enumValues = [] → b.optionLabels = []) (h : g a.toJson = g b.toJson) :
    a.enumValues.map g = b.enumValues.map g ∧ a.optionLabels.map g = b.optionLabels.map g := by
  have hs := slots_eq hg h
  simp only [slots, List.map_cons, List.map_nil, List.cons.injEq, and_true] at hs
  obtain ⟨-, -, -, -, -, -, henum, hlabels, -⟩ := hs
  by_cases hva : a.enumValues = [] <;> by_cases hvb : b.enumValues = []
  · rw [hva, hvb, ha hva, hb hvb]
    exact ⟨rfl, rfl⟩
  · simp [hva, hvb] at henum
  · simp [hva, hvb] at henum
  · simpa [hva, hvb, hg.arr] using And.intro henum hlabels

theorem items_eq (hg : Json.Comparing g) (h : g a.toJson = g b.toJson) :
    (a.items.map toJson).map g = (b.items.map toJson).map g := by
  rw [← member?_items, ← member?_items, ← hg.member?, ← hg.member?, h]

theorem property_eq (hg : Json.Comparing g) (ha : a.properties.Ascending) (hb : b.properties.Ascending)
    (h : g a.toJson = g b.toJson) (key : String) :
    ((a.properties.get? key).map toJson).map g = ((b.properties.get? key).map toJson).map g := by
  have hread (n : Node) (hn : n.properties.Ascending) : ((n.properties.get? key).map toJson).map g =
      ((g n.toJson).member? "properties").bind (Json.member? key) := by
    rw [← property_toJson hn, hg.member?, Option.bind_map, Option.map_bind]
    exact congrArg _ (funext fun _ => (hg.member? _ _).symm)
  rw [hread a ha, hread b hb, h]

end Written

/-! ## Equal objects -/

/-- Keys ascend, as in every dictionary that is built by insertion, and no label stands without a value, at every
depth. -/
structure Regular (n : Node) : Prop where
  ascending : ∀ {p}, n.Within p → p.properties.Ascending
  labels : ∀ {p}, n.Within p → p.enumValues = [] → p.optionLabels = []

theorem Regular.within {n p : Node} (h : n.Regular) (hp : n.Within p) : p.Regular where
  ascending hq := h.ascending (hp.trans hq)
  labels hq := h.labels (hp.trans hq)

/-- A node is regular as soon as its parts are and it is so itself. -/
theorem Regular.of_parts {n : Node} (hascending : n.properties.Ascending)
    (hlabels : n.enumValues = [] → n.optionLabels = []) (hproperties : ∀ p ∈ n.properties.values, p.Regular)
    (hitems : ∀ item, n.items = some item → item.Regular) : n.Regular := by
  have hparts {p : Node} (hp : n.Within p) : p = n ∨ p.Regular := by
    induction hp with
    | top => exact .inl rfl
    | property _ hq ih =>
      rcases ih with rfl | h
      · exact .inr (hproperties _ hq)
      · exact .inr (h.within (.property .top hq))
    | item _ hi ih =>
      rcases ih with rfl | h
      · exact .inr (hitems _ hi)
      · exact .inr (h.within (.item .top hi))
  constructor
  · intro p hp
    rcases hparts hp with rfl | h
    · exact hascending
    · exact h.ascending .top
  · intro p hp
    rcases hparts hp with rfl | h
    · exact hlabels
    · exact h.labels .top

/-- The node with all that counts of its values and labels. -/
def withValues (g : Json → Json) (n : Node) : Node :=
  { n with enumValues := n.enumValues.map g, optionLabels := n.optionLabels.map g }

theorem withValues_id : withValues id = id := by
  funext ⟨_, _, _, _, _, values, labels, _⟩
  rw [withValues, List.map_id, List.map_id]
  rfl

theorem everywhere_id (n : Node) : n.everywhere id = n := by
  induction n using Node.induction with
  | step n hproperties hitems =>
    have hp : n.properties.map (everywhere id) = n.properties := Dictionary.map_eq_self hproperties
    have hi : n.items.map (everywhere id) = n.items := by
      cases hi : n.items with
      | none => rfl
      | some item => exact congrArg some (hitems item hi)
    rw [everywhere_eq, hp, hi]
    cases n
    rfl

/-- What is the same for any two parts with equal objects is the same for parts that may be missing. -/
theorem map_eq_of_toJson {β : Type} {g : Json → Json} {F : Node → β} {v v' : Option Node}
    (h : (v.map toJson).map g = (v'.map toJson).map g)
    (hF : ∀ n n', v = some n → v' = some n' → g n.toJson = g n'.toJson → F n = F n') : v.map F = v'.map F := by
  match v, v', h with
  | none, none, _ => rfl
  | some n, some n', h => exact congrArg some (hF n n' rfl rfl (Option.some.inj h))

/-- Nodes with equal objects are equal, where values count for what is compared of them. -/
theorem everywhere_withValues_eq {g : Json → Json} (hg : Json.Comparing g) (a : Node) : ∀ b : Node, a.Regular →
    b.Regular → g a.toJson = g b.toJson → a.everywhere (withValues g) = b.everywhere (withValues g) := by
  induction a using Node.induction with
  | step a hproperties hitems =>
    intro b ha hb h
    obtain ⟨htype, hannotations, hadditional, horder⟩ := own_eq hg h
    obtain ⟨hvalues, hlabels⟩ := values_eq hg (ha.labels .top) (hb.labels .top) h
    have hp : a.properties.map (everywhere (withValues g)) = b.properties.map (everywhere (withValues g)) := by
      -- The members stand in the order of numbers, so properties are compared key by key.
      refine ((ha.ascending .top).map _).ext ((hb.ascending .top).map _) fun key => ?_
      rw [Dictionary.get?_map, Dictionary.get?_map]
      refine map_eq_of_toJson (property_eq hg (ha.ascending .top) (hb.ascending .top) h key) fun p p' hpa hpb => ?_
      have hmem := Dictionary.mem_values_of_get? hpa
      have hmem' := Dictionary.mem_values_of_get? hpb
      exact hproperties p hmem p' (ha.within (.property .top hmem)) (hb.within (.property .top hmem'))
    have hi : a.items.map (everywhere (withValues g)) = b.items.map (everywhere (withValues g)) :=
      map_eq_of_toJson (items_eq hg h) fun item item' hia hib =>
        hitems item hia item' (ha.within (.item .top hia)) (hb.within (.item .top hib))
    rw [everywhere_eq, everywhere_eq, hp, hi]
    simp only [withValues, withParts, htype, hannotations, hadditional, horder, hvalues, hlabels]

theorem eq_of_toJson {a b : Node} (ha : a.Regular) (hb : b.Regular) (h : a.toJson = b.toJson) : a = b := by
  have heq := everywhere_withValues_eq Json.comparing_id a b ha hb h
  rwa [withValues_id, everywhere_id, everywhere_id] at heq

/-- An object tells everything about its node, and a document has the version of the schema language before the
members of the object and repeats no key of theirs. -/
theorem toJson_lossless {a b : Node} (ha : a.Regular) (hb : b.Regular) :
    (a.toJson = b.toJson → a = b) ∧
      (a.toJson.sorted = b.toJson.sorted →
        a.everywhere (withValues Json.sorted) = b.everywhere (withValues Json.sorted)) ∧
      ∀ n : Node, ∃ members, n.toJson = .obj members ∧
        n.toDocument = .obj (("$schema", .str schemaVersion) :: members) ∧
        ("$schema" :: members.map Prod.fst).Nodup := by
  refine ⟨eq_of_toJson ha hb, everywhere_withValues_eq Json.comparing_sorted a b ha hb, fun n => ?_⟩
  refine ⟨n.members, rfl, rfl, List.nodup_cons.2 ⟨fun hmem => ?_, ?_⟩⟩
  · exact absurd (n.keys_members_sublist.subset hmem) (by simp [slots])
  · exact n.slots_keys_nodup.sublist n.keys_members_sublist

/-- An object without a title that has a property of that name. -/
def untitled : Node := { plain .object with properties := .ofList [("title", plain .string)] }

def emptyTitled : Node := { untitled with annotations := { title := some "" } }

/-- An unset title and an empty one are told apart, also where the order of members does not count. -/
theorem toJson_lossless_title : untitled.Regular ∧ emptyTitled.Regular ∧ untitled.toJson ≠ emptyTitled.toJson ∧
    untitled.toJson.sorted ≠ emptyTitled.toJson.sorted := by
  have hplain : (plain .string).Regular :=
    .of_parts Dictionary.ascending_empty (fun _ => rfl) (fun _ hp => absurd hp List.not_mem_nil) nofun
  have hproperties : ∀ p ∈ untitled.properties.values, p.Regular := fun p hp => by
    obtain rfl := List.mem_singleton.1 hp
    exact hplain
  have hu : untitled.Regular := .of_parts (Dictionary.ascending_ofList _) (fun _ => rfl) hproperties nofun
  have he : emptyTitled.Regular := .of_parts (Dictionary.ascending_ofList _) (fun _ => rfl) hproperties nofun
  obtain ⟨hsame, hsorted, -⟩ := toJson_lossless hu he
  refine ⟨hu, he, fun h => ?_, fun h => ?_⟩
  · exact absurd (congrArg (·.annotations.title) (hsame h)) (by decide)
  · exact absurd (congrArg (·.annotations.title) (hsorted h)) (by decide)

end Schema.Node
end ProtoSchema
