import Mathlib.Data.List.Find
import ProtoSchema.Proofs.Catalog.AbsoluteNames
import ProtoSchema.Proofs.Catalog.Hierarchy
/-!
# Qualified names

A type name that refers to a message from some scope can be written so that it does so from everywhere: with
the absolute name of the nearest scope that knows it in front (`lookup_qualified`). What the qualified name
refers to stands in that scope or in one inside it.
-/

namespace ProtoSchema

namespace Catalog

/-- The first scope that knows a name, from `current` outwards. -/
def nearest? (c : Catalog) (current : Scope) (name : String) : Option Scope :=
  current.inits.reverse.find? fun s => (c.resolveAt s (segments name)).isSome

/-- The message stands in the scope or is nested in one that does. -/
def Declares (c : Catalog) (s : Scope) (d : Declaration) : Prop :=
  ∃ name names top, c.type? s name = some top ∧ top.descend names = some d

/-- The nearest scope that knows a name can be put in front of it: with the absolute name of that scope it
refers to the message from everywhere. -/
structure Qualified (c : Catalog) (current : Scope) (name : String) (d : Declaration) (found s : Scope) : Prop where
  nearest : c.nearest? current name = some s
  everywhere : ∀ start, c.lookup start (s.fullName ++ "." ++ name) = some (d, found)
  inside : s <+: found
  declared : c.Declares found d

variable {c : Catalog} {current found s : Scope} {name : String} {d : Declaration}

theorem plain_of_contains {l : List (String × Declaration)} (h : (ofFilings l).contains s = true) : s.Plain := by
  rcases (contains_ofFilings l s).1 h with rfl | ⟨r, -, hr⟩
  · simp [Scope.Plain]
  · exact fun n hn => Scope.plain_ofPackage r.1 n (hr.subset hn)

/-- A name is looked up where the nearest scope that knows it resolves it. -/
theorem exists_nearest (hdot : ∀ absolute, name.toList ≠ '.' :: absolute)
    (h : c.lookup current name = some (d, found)) :
    ∃ s, c.nearest? current name = some s ∧ c.resolveAt s (segments name) = some (d, found) := by
  rw [lookup_relative hdot, resolveOutward_eq_findSome?, List.findSome?_eq_some_iff] at h
  obtain ⟨nearer, s, farther, hscopes, hs, hnone⟩ := h
  refine ⟨s, ?_, hs⟩
  rw [nearest?, hscopes, List.find?_append, List.find?_eq_none.2 fun p hp => by simp [hnone p hp]]
  simp [hs]

theorem contains_of_resolveAt {parts : List String} (h : c.resolveAt s parts = some (d, found)) : c.contains s = true := by
  by_contra hno
  rw [resolveAt_of_not_contains (Bool.eq_false_iff.2 hno)] at h
  cases h

theorem prefix_of_resolveAt {parts : List String} (h : c.resolveAt s parts = some (d, found)) : s <+: found := by
  obtain ⟨inner, -, h⟩ := Option.bind_eq_some_iff.1 h
  obtain ⟨⟨e, t⟩, -, heq⟩ := Option.map_eq_some_iff.1 h
  obtain ⟨-, rfl⟩ := Prod.mk.inj heq
  exact List.prefix_append _ _

/-- The absolute name of a scope in front of a name leads into that scope, from everywhere. -/
theorem lookup_fullName_append (hs : c.contains s = true) (hplain : s.Plain) (start : Scope) :
    c.lookup start (s.fullName ++ "." ++ name) = c.resolveAt s (segments name) := by
  have hne : segments name ≠ [] := by simp [segments]
  have hparts : s.fullName ++ "." ++ name = Scope.fullName (s ++ segments name) := by
    rw [Scope.fullName_append, Scope.fullName_segments, String.append_assoc]
  have hdots : ∀ part ∈ s ++ segments name, '.' ∉ part.toList := by
    intro part hpart
    rcases List.mem_append.1 hpart with hpart | hpart
    · exact (hplain part hpart).2
    · exact dot_not_mem_segments hpart
  rw [hparts, lookup_eq_resolve (by simp [hne]) hdots, resolveAt_eq_resolve hs hne]

theorem exists_qualified {l : List (String × Declaration)} (hdot : ∀ absolute, name.toList ≠ '.' :: absolute)
    (h : (ofFilings l).lookup current name = some (d, found)) : ∃ s, (ofFilings l).Qualified current name d found s := by
  obtain ⟨s, hnearest, hs⟩ := exists_nearest hdot h
  have hknown := contains_of_resolveAt hs
  refine ⟨s, hnearest, fun start => ?_, prefix_of_resolveAt hs, lookup_eq_some h⟩
  rw [lookup_fullName_append hknown (plain_of_contains hknown), hs]

end Catalog

namespace Namespaces

/-! ## By number -/

/-- A number and those of the namespaces around it, from the inside outwards. -/
def outwards (t : Namespaces) (ht : t.Inward) (i : Nat) : List Nat :=
  i :: match hp : t.parent? i with
    | some p =>
      have := ht i p hp
      t.outwards ht p
    | none => []
termination_by i

/-- The first namespace that knows a name, from number `current` outwards. -/
def nearest? (t : Namespaces) (ht : t.Inward) (current : Nat) (name : String) : Option Nat :=
  (t.outwards ht current).find? fun i => (t.resolve i (segments name)).isSome

/-- The message stands in the namespace or is nested in one that does. -/
def Declares (t : Namespaces) (i : Nat) (d : Declaration) : Prop :=
  ∃ name names top, t.type? i name = some top ∧ top.descend names = some d

/-- As for scopes: `k` is the nearest namespace and `j` the one that the name leads to from `i`. -/
structure Qualified (t : Namespaces) (ht : t.Inward) (i : Nat) (name : String) (d : Declaration) (j k : Nat) : Prop where
  nearest : t.nearest? ht i name = some k
  everywhere : ∃ full, t.name? k = some full ∧
    ∀ start < t.nodes.length, t.lookup ht start (full ++ "." ++ name) = some (d, j)
  inside : k ∈ t.outwards ht j
  declared : t.Declares j d

theorem outwards_of_parent {t : Namespaces} (ht : t.Inward) {i p : Nat} (hp : t.parent? i = some p) :
    t.outwards ht i = i :: t.outwards ht p := by
  rw [outwards]
  split <;> simp_all

theorem outwards_of_no_parent {t : Namespaces} (ht : t.Inward) {i : Nat} (hp : t.parent? i = none) :
    t.outwards ht i = [i] := by
  rw [outwards]
  split <;> simp_all

variable {t : Namespaces} {scopes : List Scope} {c : Catalog} {i j k : Nat} {s u : Scope} {name : String} {d : Declaration}

/-- The numbers outwards stand for the scopes outwards. -/
theorem Numbers.outwards (h : Numbers t scopes) (ht : t.Inward) (hi : scopes[i]? = some s) :
    (t.outwards ht i).map (scopes[·]?) = s.inits.reverse.map some := by
  induction s using List.reverseRecOn generalizing i with
  | nil =>
    have hroot : t.parent? i = none := by rw [h.unique hi h.root, h.parent_root]
    rw [outwards_of_no_parent ht hroot, List.map_singleton, hi]
    rfl
  | append_singleton s n ih =>
    obtain ⟨p, -, hp, hparent⟩ := h.parent hi
    rw [outwards_of_parent ht hparent, List.map_cons, ih hp, hi]
    simp [List.inits_append]

theorem Numbers.mem_outwards (h : Numbers t scopes) (ht : t.Inward) (hi : scopes[i]? = some s)
    (hk : scopes[k]? = some u) : k ∈ t.outwards ht i ↔ u <+: s := by
  have hmap : some u ∈ (t.outwards ht i).map (scopes[·]?) ↔ u <+: s := by
    rw [h.outwards ht hi]
    simp
  rw [← hmap, List.mem_map]
  refine ⟨fun hm => ⟨k, hm, hk⟩, ?_⟩
  rintro ⟨k', hm, hk'⟩
  rwa [h.unique hk hk']

namespace Tabulates

/-- The nearest number stands for the nearest scope. -/
theorem nearest (h : Tabulates t scopes c) (ht : t.Inward) (hi : scopes[i]? = some s) (name : String) :
    (t.nearest? ht i name).map (scopes[·]?) = (c.nearest? s name).map some := by
  have hknows : ∀ k ∈ t.outwards ht i, (t.resolve k (segments name)).isSome =
      (scopes[k]?).any fun u => (c.resolveAt u (segments name)).isSome := by
    intro k hk
    have hm : scopes[k]? ∈ s.inits.reverse.map some := h.outwards ht hi ▸ List.mem_map_of_mem hk
    obtain ⟨u, -, hu⟩ := List.mem_map.1 hm
    rw [← hu, Option.any_some, (h.resolve hu.symm (segments name)).isSome_eq]
  have hmap := congrArg (List.find? (Option.any fun u => (c.resolveAt u (segments name)).isSome)) (h.outwards ht hi)
  rw [List.find?_map, List.find?_map] at hmap
  rw [nearest?, List.find?_congr hknows]
  exact hmap

theorem exists_qualified {found : Scope} (h : Tabulates t scopes c) (ht : t.Inward) (hi : scopes[i]? = some s)
    (hj : scopes[j]? = some found) (hq : c.Qualified s name d found u) : ∃ k, t.Qualified ht i name d j k := by
  have hnearest := h.nearest ht hi name
  rw [hq.nearest, Option.map_some, Option.map_eq_some_iff] at hnearest
  obtain ⟨k, hk, hu⟩ := hnearest
  obtain ⟨n, names, top, htop, hd⟩ := hq.declared
  refine ⟨k, hk, ⟨_, h.name hu, fun start hstart => ?_⟩, (h.mem_outwards ht hj hu).2 hq.inside, n, names, top, ?_, hd⟩
  · obtain ⟨v, hv⟩ := h.exists_scope hstart
    have hsame := h.lookup ht hv (u.fullName ++ "." ++ name)
    rw [hq.everywhere v] at hsame
    exact hsame.eq_some h.toNumbers hj
  · rw [h.type hj, htop]

end Tabulates

/-- A type name without a leading dot that refers to a message from some namespace, told by its number or by
its scope, can be qualified: let the nearest namespace be the first that knows the name, from there outwards.
With its absolute name and a dot in front, the name refers to the same message from everywhere. The message is
declared in the nearest namespace or in one inside it. -/
theorem lookup_qualified (l : List (String × Declaration)) (name : String)
    (hdot : ∀ absolute, name.toList ≠ '.' :: absolute) :
    (∀ i < (ofFilings l).nodes.length, ∀ d j, (ofFilings l).lookup (inward_ofFilings l) i name = some (d, j) →
      ∃ k, (ofFilings l).Qualified (inward_ofFilings l) i name d j k) ∧
    ∀ current d found, (Catalog.ofFilings l).lookup current name = some (d, found) →
      ∃ s, (Catalog.ofFilings l).Qualified current name d found s := by
  refine ⟨fun i hi d j hj => ?_, fun current d found h => Catalog.exists_qualified hdot h⟩
  obtain ⟨scopes, h⟩ := exists_tabulates l
  obtain ⟨current, hcurrent⟩ := h.exists_scope hi
  have hsame := h.lookup (inward_ofFilings l) hcurrent name
  rw [hj] at hsame
  obtain ⟨found, hlookup, hfound⟩ := hsame.exists_scope
  obtain ⟨s, hq⟩ := Catalog.exists_qualified hdot hlookup
  exact h.exists_qualified (inward_ofFilings l) hcurrent hfound hq

/-! ### A name that leads into a package inside -/

def item : Declaration := ⟨[0], ⟨"Item", [], [], [], false, none⟩⟩

def items : List (String × Declaration) := [("shop.v1", item)]

theorem outwards_item : (ofFilings items).outwards (inward_ofFilings items) 2 = [2, 1, 0] := by
  have hinner : (ofFilings items).parent? 2 = some 1 := rfl
  have houter : (ofFilings items).parent? 1 = some 0 := rfl
  rw [outwards_of_parent _ hinner, outwards_of_parent _ houter, outwards_of_no_parent _ rfl]

theorem lookup_item : (ofFilings items).lookup (inward_ofFilings items) 2 "v1.Item" = some (item, 2) := by
  have hdot : ∀ absolute, "v1.Item".toList ≠ '.' :: absolute := by simp
  have hsegments : segments "v1.Item" = ["v1", "Item"] := by decide
  have hhere : (ofFilings items).resolve 2 ["v1", "Item"] = none := rfl
  have haround : (ofFilings items).resolve 1 ["v1", "Item"] = some (item, 2) := rfl
  have hparent : (ofFilings items).parent? 2 = some 1 := rfl
  rw [lookup_relative _ hdot, hsegments, resolveOutward_eq_or, hhere, hparent, Option.none_or, Option.bind_some,
    resolveOutward_eq_or, haround, Option.some_or]

theorem lookup_qualified_item : (∀ absolute, "v1.Item".toList ≠ '.' :: absolute) ∧
    (ofFilings items).lookup (inward_ofFilings items) 2 "v1.Item" = some (item, 2) ∧
    (ofFilings items).lookup (inward_ofFilings items) 0 ".shop.v1.Item" = some (item, 2) ∧
    (Catalog.ofFilings items).lookup ["shop", "v1"] "v1.Item" = some (item, ["shop", "v1"]) ∧
    (Catalog.ofFilings items).nearest? ["shop", "v1"] "v1.Item" = some ["shop"] ∧
    ∀ start, (Catalog.ofFilings items).lookup start ".shop.v1.Item" = some (item, ["shop", "v1"]) := by
  have hdot : ∀ absolute, "v1.Item".toList ≠ '.' :: absolute := by simp
  have hitem : (Catalog.ofFilings items).lookup ["shop", "v1"] "v1.Item" = some (item, ["shop", "v1"]) := rfl
  have hshop : (Catalog.ofFilings items).nearest? ["shop", "v1"] "v1.Item" = some ["shop"] := by decide
  obtain ⟨hnumbers, hscopes⟩ := lookup_qualified items "v1.Item" hdot
  obtain ⟨k, hk⟩ := hnumbers 2 (by decide) item 2 lookup_item
  obtain ⟨s, hs⟩ := hscopes _ _ _ hitem
  obtain rfl : ["shop"] = s := Option.some.inj (hshop.symm.trans hs.nearest)
  have hone : (ofFilings items).nearest? (inward_ofFilings items) 2 "v1.Item" = some 1 := by
    rw [nearest?, outwards_item]
    rfl
  obtain rfl : 1 = k := Option.some.inj (hone.symm.trans hk.nearest)
  obtain ⟨full, hfull, hlookup⟩ := hk.everywhere
  obtain rfl : ".shop" = full := Option.some.inj hfull
  exact ⟨hdot, lookup_item, hlookup 0 (by decide), hitem, hshop, hs.everywhere⟩

end Namespaces
end ProtoSchema
