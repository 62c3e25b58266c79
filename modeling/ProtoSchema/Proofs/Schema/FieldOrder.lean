import Mathlib.Data.List.Perm.Basic
import ProtoSchema.Proofs.Schema.Names
import ProtoSchema.Proofs.Schema.Rendering
import ProtoSchema.Proofs.Schema.Shape
/-!
# Properties in the order of their fields

The properties of a node are held by name and written by number, and for equal numbers by name
(`pairwise_inOrder`). Where fields stand under their own names only, and no two fields of a message share one,
the object of each message in a document lists all its fields, each once and in the order of their numbers,
whatever the order of their declarations (`listed_in_order`).
-/

namespace ProtoSchema

open Relation

namespace Dictionary

/-- Entries with different keys stay, in the order of their keys. -/
theorem ofList_perm {α : Type} {l : List (String × α)} (h : (l.map Prod.fst).Nodup) : (ofList l).entries.Perm l := by
  have hascending := ascending_ofList l
  refine (List.perm_ext_iff_of_nodup hascending.nodup (.of_map _ h)).2 fun ⟨key, value⟩ => ?_
  rw [← lookup_eq_some_iff hascending.nodup_keys, ← lookup_eq_some_iff h]
  have hget := get?_ofList l key
  rw [get?, ← lookup_perm l.reverse_perm.symm h] at hget
  rw [hget]

end Dictionary

namespace Schema

section InOrder
variable {α : Type} (order : α → Option Int32)

/-- The number that decides where an entry stands. -/
def rank (e : String × α) : Int32 := (order e.2).getD Int32.maxValue

/-- A smaller number, or the same number and no greater name. -/
def RankedBefore (a b : String × α) : Prop :=
  rank order a < rank order b ∨ (rank order a = rank order b ∧ a.1 ≤ b.1)

theorem inOrder_perm (l : List (String × α)) : (inOrder order l).Perm l := List.mergeSort_perm _ _

variable {order}

theorem RankedBefore.trans {a b d : String × α} (hab : RankedBefore order a b) (hbd : RankedBefore order b d) :
    RankedBefore order a d := by
  rw [RankedBefore, Int32.lt_iff_toInt_lt, ← Int32.toInt_inj] at hab hbd ⊢
  rcases hab with hab | ⟨hab, hname⟩ <;> rcases hbd with hbd | ⟨hbd, hname'⟩
  · exact .inl (Int.lt_trans hab hbd)
  · exact .inl (hbd ▸ hab)
  · exact .inl (hab ▸ hbd)
  · exact .inr ⟨hab.trans hbd, String.le_trans hname hname'⟩

theorem RankedBefore.total (a b : String × α) : RankedBefore order a b ∨ RankedBefore order b a := by
  rw [RankedBefore, RankedBefore, Int32.lt_iff_toInt_lt, Int32.lt_iff_toInt_lt, ← Int32.toInt_inj,
    ← Int32.toInt_inj]
  rcases Int.lt_trichotomy (rank order a).toInt (rank order b).toInt with h | h | h
  · exact .inl (.inl h)
  · exact (String.le_total a.1 b.1).imp (fun hname => .inr ⟨h, hname⟩) fun hname => .inr ⟨h.symm, hname⟩
  · exact .inr (.inl h)

variable (order) in
theorem pairwise_inOrder (l : List (String × α)) : (inOrder order l).Pairwise (RankedBefore order) := by
  have hle (a b : String × α) : (rank order a < rank order b || (rank order a == rank order b && a.1 ≤ b.1)) = true ↔
      RankedBefore order a b := by simp [RankedBefore]
  have hsorted : (inOrder order l).Pairwise fun a b =>
      (rank order a < rank order b || (rank order a == rank order b && a.1 ≤ b.1)) = true := by
    refine List.pairwise_mergeSort (fun a b d hab hbd => ?_) (fun a b => ?_) l
    · exact (hle a d).2 (((hle a b).1 hab).trans ((hle b d).1 hbd))
    · exact Bool.or_eq_true _ _ ▸ (RankedBefore.total a b).imp (hle a b).2 (hle b a).2
  exact hsorted.imp (hle _ _).1

variable (order) in
/-- Ranked before, and under another name. -/
def StrictlyBefore (a b : String × α) : Prop := RankedBefore order a b ∧ a.1 ≠ b.1

variable (order) in
theorem pairwise_strictlyBefore {d : Dictionary α} (h : d.Ascending) :
    (inOrder order d.entries).Pairwise (StrictlyBefore order) := by
  have hkeys : ((inOrder order d.entries).map Prod.fst).Nodup :=
    ((inOrder_perm order d.entries).map Prod.fst).nodup_iff.2 h.nodup_keys
  exact (pairwise_inOrder order d.entries).imp₂ (fun _ _ => And.intro) (List.pairwise_map.1 hkeys)

end InOrder
end Schema

/-! ## Fields in order -/

/-- Has a smaller number, or the same number and a smaller name. -/
def Field.Precedes (f g : Field) : Prop := f.number < g.number ∨ (f.number = g.number ∧ f.name < g.name)

instance (f g : Field) : Decidable (f.Precedes g) := inferInstanceAs (Decidable (_ ∨ _))

theorem Field.Precedes.asymm {f g : Field} (h : f.Precedes g) : ¬ g.Precedes f := by
  rw [Precedes, Int32.lt_iff_toInt_lt, ← Int32.toInt_inj] at h ⊢
  rintro (hlt | ⟨heq, hname⟩) <;> rcases h with hlt' | ⟨heq', hname'⟩
  · exact absurd hlt (Int.lt_asymm hlt')
  · exact absurd heq' (Int.ne_of_gt hlt)
  · exact absurd heq (Int.ne_of_gt hlt')
  · exact String.lt_irrefl _ (String.lt_trans hname hname')

/-- Members for all fields of a message, each under the name of its field and with its number, in order. -/
def Message.ListedIn (m : Message) (members : List (String × Json)) : Prop :=
  ∃ fields : List Field, fields.Perm m.fields ∧ fields.Pairwise Field.Precedes ∧
    List.Forall₂ (fun f e => e.1 = f.name ∧ e.2.member? "propertyOrder" = some (.num f.number.toInt)) fields members

/-- There is only one order in which the fields can be listed. -/
theorem Message.ListedIn.keys_eq {m : Message} {members : List (String × Json)} (h : m.ListedIn members)
    (fields : List Field) (hp : fields.Perm m.fields) (hs : fields.Pairwise Field.Precedes) :
    members.map Prod.fst = fields.map Field.name := by
  obtain ⟨listed, hperm, hsorted, hmembers⟩ := h
  obtain rfl : listed = fields :=
    List.Perm.eq_of_pairwise (fun _ _ _ _ hfg hgf => absurd hgf hfg.asymm) hsorted hs (hperm.trans hp.symm)
  refine List.forall₂_eq_eq_eq ▸ List.forall₂_map_left_iff.2 (List.forall₂_map_right_iff.2 ?_)
  exact hmembers.flip.imp fun _ _ he => he.1

namespace Schema

open Node

theorem Node.member?_propertyOrder (n : Node) :
    n.toJson.member? "propertyOrder" = n.order.map fun number => .num number.toInt := by
  rw [toJson, Json.member?, members_eq]
  simp [List.lookup_append, lookup_member, lookup_flag, Dictionary.lookup_cons, apply_ite (List.lookup _)]

variable {c : Catalog} {o : Options} {outer : List Enum} {a b : Site} {f : Field} {n : Node}

theorem fieldNames_single (ho : o.protoAndJsonFieldnames = false) (f : Field) : fieldNames o f = [f.name] := by
  simp [fieldNames, ho]

theorem written_single (ho : o.protoAndJsonFieldnames = false) (nodes : List (Field × Node)) :
    written o nodes = nodes.map fun e => (e.1.name, e.2.asProperty e.1) := by
  induction nodes with
  | nil => rfl
  | cons e nodes ih =>
    rw [written_cons, ih, fieldNames_single ho]
    rfl

/-- What is a list of images up to order is, as it stands, the list of the images of a list. -/
theorem exists_map_of_perm {α β : Type} {g : α → β} {l : List β} {u : List α} (h : l.Perm (u.map g)) :
    ∃ w : List α, w.Perm u ∧ l = w.map g := by
  have hself : List.Forall₂ (fun x e => x = g e) (u.map g) u := List.forall₂_map_left_iff.2 (List.forall₂_same.2 fun _ _ => rfl)
  obtain ⟨w, hw, hperm⟩ := List.perm_comp_forall₂ h hself
  refine ⟨w, hperm, ?_⟩
  rw [← List.forall₂_eq_eq_eq]
  exact List.forall₂_map_right_iff.2 hw

/-- The properties of a message in the order in which they are written. -/
theorem exists_orderedProperties (ho : o.protoAndJsonFieldnames = false)
    (hn : (a.message.fields.map Field.name).Nodup) (h : schemaAt c o outer a = .ok n) :
    ∃ nodes : List (Field × Node), (nodes.map Prod.fst).Perm a.message.fields ∧
      (nodes.map Prod.fst).Pairwise Field.Precedes ∧
      n.orderedProperties = nodes.map fun e => (e.1.name, e.2.asProperty e.1) := by
  obtain ⟨nodes, hfields, -, rfl⟩ := schemaAt_eq_ok_iff.1 h
  have hkeys : (nodes.map fun e => (e.1.name, e.2.asProperty e.1)).map Prod.fst = a.message.fields.map Field.name := by
    rw [← hfields, List.map_map, List.map_map]
    rfl
  have hperm := (inOrder_perm Node.order _).trans (Dictionary.ofList_perm (hkeys ▸ hn))
  have hsorted := pairwise_strictlyBefore Node.order
    (Dictionary.ascending_ofList (nodes.map fun e => (e.1.name, e.2.asProperty e.1)))
  obtain ⟨sorted, hsorted_perm, heq⟩ := exists_map_of_perm hperm
  have hfields' : (sorted.map Prod.fst).Perm a.message.fields := hfields ▸ hsorted_perm.map Prod.fst
  refine ⟨sorted, hfields', ?_, ?_⟩
  · rw [heq, List.pairwise_map] at hsorted
    refine List.pairwise_map.2 (hsorted.imp fun {e e'} hbefore => ?_)
    -- As a property a node has the number of its field, so this is what it is ranked by.
    obtain ⟨hlt | ⟨heq, hle⟩, hne⟩ := hbefore
    · exact .inl hlt
    · exact .inr ⟨heq, Std.lt_of_le_of_ne hle hne⟩
  · rw [orderedProperties, ofProperties_properties, written_single ho, heq]

theorem listedIn_propertyMembers (ho : o.protoAndJsonFieldnames = false)
    (hn : (a.message.fields.map Field.name).Nodup) (h : schemaAt c o outer a = .ok n) :
    a.message.ListedIn n.propertyMembers := by
  obtain ⟨nodes, hperm, hsorted, heq⟩ := exists_orderedProperties ho hn h
  refine ⟨nodes.map Prod.fst, hperm, hsorted, ?_⟩
  rw [propertyMembers, heq, List.map_map, List.forall₂_map_left_iff, List.forall₂_map_right_iff, List.forall₂_same]
  exact fun e _ => ⟨rfl, member?_propertyOrder _⟩

/-! ## Messages inside messages -/

/-- Some fields lead from one message to another, each a field of the message that the one before it
refers to. -/
inductive Route (c : Catalog) : Site → List Field → Site → Prop where
  | nil (a : Site) : Route c a [] a
  | cons {a b d : Site} {f : Field} {fields : List Field} (hr : RefersTo c a f b) (h : Route c b fields d) :
      Route c a (f :: fields) d

/-- Fields have different names in a message and in all that it holds. -/
abbrev NamesDiffer (c : Catalog) (a : Site) : Prop :=
  ∀ b, ReflTransGen (Inlines c) a b → (b.message.fields.map Field.name).Nodup

theorem NamesDiffer.of_refersTo (hn : NamesDiffer c a) (hr : RefersTo c a f b) : NamesDiffer c b :=
  fun d hd => hn d (.head ⟨f, hr⟩ hd)

theorem fieldUnder?_single (ho : o.protoAndJsonFieldnames = false) (hn : (a.message.fields.map Field.name).Nodup)
    (hf : f ∈ a.message.fields) : a.message.fieldUnder? o f.name = some f :=
  Message.fieldUnder?_name hn hf fun hs => Bool.false_ne_true (ho.symm.trans hs.1)

/-- The names of the fields on the way lead to the property of the last of them. -/
theorem Route.exists_shows {fields : List Field} (ho : o.protoAndJsonFieldnames = false) (hn : NamesDiffer c a)
    (h : Route c a (f :: fields) b) :
    ∃ d g, Shows c o a (f.name :: fields.map Field.name) d g ∧ RefersTo c d g b := by
  induction fields generalizing a f with
  | nil =>
    obtain _ | ⟨hr, h⟩ := h
    cases h
    exact ⟨a, f, .here (fieldUnder?_single ho (hn a .refl) hr.mem), hr⟩
  | cons g fields ih =>
    obtain _ | ⟨hr, h⟩ := h
    obtain ⟨d, last, hs, hlast⟩ := ih (hn.of_refersTo hr) h
    exact ⟨d, last, .inside (fieldUnder?_single ho (hn a .refl) hr.mem) hr hs, hlast⟩

theorem ofRecord_record_type {record : Node} (ht : record.type = .single .object) (target : Message) (f : Field) :
    ((ofRecord target f record).asProperty f).record.type = .single .object := by
  by_cases hr : target.mapEntry = true ∨ f.isRepeated = true
  · simp [Node.record, ofRecord_items record hr, ht]
  · simp [Node.record, ofRecord, hr, plain]

/-- Wherever fields lead, the object there lists the fields of its message in order. -/
theorem exists_listedIn_of_route {fields : List Field} (h : schemaAt c o outer a = .ok n)
    (ho : o.protoAndJsonFieldnames = false) (hn : NamesDiffer c a) (hr : Route c a fields b) :
    ∃ j members, n.toJson.property? (fields.map Field.name) = some j ∧
      j.record.member? "properties" = some (.obj members) ∧ b.message.ListedIn members := by
  cases fields with
  | nil =>
    cases hr
    refine ⟨n.toJson, n.propertyMembers, rfl, ?_, listedIn_propertyMembers ho (hn a .refl) h⟩
    rw [record_toJson, schemaAt_record h, member?_properties_of_object n (isObject_schemaAt h).type]
  | cons f fields =>
    obtain ⟨d, g, hs, href⟩ := hr.exists_shows ho hn
    obtain ⟨owner, howner⟩ := exists_schemaAt_of_reaches h hs.reaches
    obtain ⟨b', record, hb', hrecord, hg⟩ := exists_record howner href.mem href.kind
    obtain rfl := href.unique hb'
    have hproperty := (property?_eq_some_iff h f.name (fields.map Field.name)).2 ⟨d, g, _, hs, hg, rfl⟩
    have hobject := isObject_schemaAt hrecord
    have hnames := hn b (hs.reaches.tail ⟨g, href⟩)
    refine ⟨((ofRecord b.message g record).asProperty g).toJson, record.propertyMembers, ?_, ?_,
      listedIn_propertyMembers ho hnames hrecord⟩
    · rw [List.map_cons, property?_toJson (.message h), hproperty]
      rfl
    · rw [record_toJson, member?_properties_congr (ofRecord_record_type hobject.type b.message g) hobject.type
        (ofRecord_record b.message g record), member?_properties_of_object record hobject.type]

/-- Where fields stand under their own names only, and those differ in each message, the object of a message
lists its fields, each once with its number, in the order of their numbers and then of their names. So does the
object of every message inside, to which the names of the fields on the way lead. -/
theorem listed_in_order {scope : Scope} {d : Declaration} (h : ofMessage c o scope d outer = .ok n)
    (ho : o.protoAndJsonFieldnames = false) (hn : NamesDiffer c ⟨scope, d⟩) :
    (∃ members, n.toJson.member? "properties" = some (.obj members) ∧ d.message.ListedIn members) ∧
    ∀ fields b, Route c ⟨scope, d⟩ fields b → ∃ j members,
      n.toJson.property? (fields.map Field.name) = some j ∧
      j.record.member? "properties" = some (.obj members) ∧ b.message.ListedIn members := by
  have hschema : schemaAt c o outer ⟨scope, d⟩ = .ok n := h
  refine ⟨⟨n.propertyMembers, ?_, listedIn_propertyMembers ho (hn _ .refl) hschema⟩, fun fields b hr =>
    exists_listedIn_of_route hschema ho hn hr⟩
  exact member?_properties_of_object n (isObject_schemaAt hschema).type

/-! ### A trip with its stops, declared in another order than they are numbered -/

def zone : Field := ⟨"zone", "zone", 3, .int64, .optional, "", none⟩

def code : Field := ⟨"code", "code", 3, .string, .required, "", none⟩

def stops : Field := ⟨"stops", "stops", 7, .message, .repeated, "Stop", none⟩

def label : Field := ⟨"label", "label", -2, .string, .optional, "", none⟩

def stop : Declaration := ⟨[1], "Stop", [zone, code], [], [], false, none⟩

def trip : Declaration := ⟨[0], "Trip", [stops, label], [], [], false, none⟩

def trips : Catalog := (Catalog.empty.insert "road" trip).insert "road" stop

theorem trips_stop : trips.lookup ["road"] "Stop" = some (stop, ["road"]) := rfl

theorem stops_refers : RefersTo trips ⟨["road"], trip⟩ stops ⟨["road"], stop⟩ := ⟨.head _, .inl rfl, trips_stop⟩

theorem exists_schemaAt_trip : ∃ top, schemaAt trips {} [] ⟨["road"], trip⟩ = .ok top := by
  have hstop : ∃ x, trips.expand [stop.place, trip.place] ["road"] stop.message [zone, code] = .ok x :=
    Catalog.expand_isOk_iff.2 (List.forall_mem_cons.2 ⟨⟨_, Catalog.content_value rfl⟩,
      List.forall_mem_singleton.2 ⟨_, Catalog.content_value rfl⟩⟩)
  refine schemaAt_isOk_iff.2 (Catalog.expand_isOk_iff.2 (List.forall_mem_cons.2 ⟨?_, List.forall_mem_singleton.2 ?_⟩))
  · exact Catalog.exists_content_record rfl trips_stop (by decide) hstop
  · exact ⟨_, Catalog.content_value rfl⟩

theorem namesDiffer_trip : NamesDiffer trips ⟨["road"], trip⟩ := by
  have hall : ∀ b, ReflTransGen (Inlines trips) ⟨["road"], trip⟩ b →
      b = ⟨["road"], trip⟩ ∨ b = ⟨["road"], stop⟩ := by
    intro b hb
    induction hb with
    | refl => exact .inl rfl
    | tail _ hi ih =>
      obtain ⟨f, hf⟩ := hi
      rcases ih with rfl | rfl
      · rcases List.mem_pair.1 hf.mem with rfl | rfl
        · exact .inr (hf.unique stops_refers)
        · exact absurd hf.kind (by decide)
      · rcases List.mem_pair.1 hf.mem with rfl | rfl <;> exact absurd hf.kind (by decide)
  intro b hb
  rcases hall b hb with rfl | rfl <;> decide

/-- A negative number comes first, and of two fields with one number the one whose name does. -/
theorem listed_in_order_trip : ∃ top members j inner, ofMessage trips {} ["road"] trip [] = .ok top ∧
    NamesDiffer trips ⟨["road"], trip⟩ ∧ top.toJson.member? "properties" = some (.obj members) ∧
    members.map Prod.fst = ["label", "stops"] ∧ top.toJson.property? ["stops"] = some j ∧
    j.record.member? "properties" = some (.obj inner) ∧ inner.map Prod.fst = ["code", "zone"] := by
  obtain ⟨top, htop⟩ := exists_schemaAt_trip
  obtain ⟨⟨members, hmembers, hlisted⟩, hroutes⟩ := listed_in_order htop rfl namesDiffer_trip
  obtain ⟨j, inner, hj, hinner, hlisted'⟩ := hroutes [stops] _ (.cons stops_refers (.nil _))
  have hkeys := hlisted.keys_eq [label, stops] (.swap _ _ _) (by decide)
  have hkeys' := hlisted'.keys_eq [code, zone] (.swap _ _ _) (by decide)
  exact ⟨top, members, j, inner, htop, namesDiffer_trip, hmembers, hkeys, hj, hinner, hkeys'⟩

end Schema
end ProtoSchema
