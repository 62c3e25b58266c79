import Mathlib.Data.List.Nodup
import ProtoSchema.Proofs.Catalog.DottedNames
import ProtoSchema.Proofs.Catalog.FileSet
/-!
# Absolute names

In a file set whose names do not clash, every message is found under its
absolute name, from every scope (`lookup_fullName`). Scopes are preferred to
messages on the way and no step is taken back, so the names of messages have to
be apart from those of packages as well as from each other.
-/

namespace ProtoSchema

/-- Names that tell all messages of a set apart: each is a plain name, no two messages have the same
absolute name, and no absolute name is that of a package or of a scope around one. -/
structure WellNamed (files : List File) : Prop where
  plain : ∀ e ∈ definitionsOf files, e.message.name ≠ "" ∧ '.' ∉ e.message.name.toList
  distinct : ((definitionsOf files).map Definition.parts).Nodup
  apart : ∀ e ∈ definitionsOf files, ∀ f ∈ files, ¬ e.parts <+: f.scope

instance (files : List File) : Decidable (WellNamed files) :=
  decidable_of_iff
    ((∀ e ∈ definitionsOf files, e.message.name ≠ "" ∧ '.' ∉ e.message.name.toList) ∧
      ((definitionsOf files).map Definition.parts).Nodup ∧
      ∀ e ∈ definitionsOf files, ∀ f ∈ files, ¬ e.parts <+: f.scope)
    ⟨fun ⟨h, h', h''⟩ => ⟨h, h', h''⟩, fun ⟨h, h', h''⟩ => ⟨h, h', h''⟩⟩

/-- An absolute name is read as the parts that it was written from. -/
theorem lookup_eq_resolve {parts : List String} (hp : parts ≠ []) (h : ∀ x ∈ parts, '.' ∉ x.toList)
    (c : Catalog) (current : Scope) : c.lookup current (Scope.fullName parts) = c.resolve parts := by
  obtain ⟨name, rest, rfl⟩ := List.exists_cons_of_ne_nil hp
  have hl : (Scope.fullName (name :: rest)).toList =
      '.' :: (name.toList ++ rest.flatMap fun x => '.' :: x.toList) := Scope.toList_fullName _
  have hs := splitOn_dotted (h name (.head _)) fun x hx => h x (.tail _ hx)
  unfold Catalog.lookup
  rw [hl]
  simp only [segments, String.toList_ofList, hs, List.map_map]
  simp [Function.comp_def]

/-- A name with a leading dot that refers to a message is the absolute name of this message. -/
theorem eq_fullName_of_lookup {files : List File} {current s : Scope} {typeName : String} {d : Declaration}
    (hdot : typeName.toList.head? = some '.') (h : (Catalog.ofFiles files).lookup current typeName = some (d, s)) :
    ∃ e ∈ definitionsOf files, e.declaration = d ∧ e.scope = s ∧ typeName = Scope.fullName e.parts := by
  obtain ⟨absolute, habsolute⟩ := List.head?_eq_some_iff.1 hdot
  rw [Catalog.lookup, habsolute] at h
  obtain ⟨name, rest, top, hparts, htop, hd⟩ := Catalog.resolve_eq_some h
  obtain ⟨e, he, rfl, hn, rfl⟩ := type?_ofFiles htop
  obtain ⟨x, hx, hs, hnames, rfl⟩ := descend_mem e he hd
  refine ⟨x, hx, rfl, hs, ?_⟩
  rw [Definition.parts, hs, hnames, hn, List.singleton_append, ← hparts, Scope.fullName_segments,
    ← String.toList_inj, habsolute]
  simp

/-! ## Names that do not clash -/

namespace WellNamed

variable {files : List File} (w : WellNamed files)
include w

theorem eq_of_parts_eq {a b : Definition} (ha : a ∈ definitionsOf files) (hb : b ∈ definitionsOf files)
    (h : a.parts = b.parts) : a = b :=
  List.inj_on_of_nodup_map w.distinct ha hb h

theorem plain_names : ∀ e ∈ definitionsOf files, ∀ n ∈ e.names, n ≠ "" ∧ '.' ∉ n.toList := by
  apply definitions_induction
  · intro i f j m hf hm n hn
    obtain rfl : n = m.name := by simpa [File.definition] using hn
    exact w.plain _ (definition_mem hf hm)
  · intro e he ih k m hk n hn
    rcases List.mem_append.1 hn with hn | hn
    · exact ih n hn
    · obtain rfl : n = m.name := by simpa using hn
      exact w.plain _ (inside_mem he hk)

theorem dot_not_mem_parts {e : Definition} (he : e ∈ definitionsOf files) : ∀ n ∈ e.parts, '.' ∉ n.toList := by
  intro n hn
  rcases List.mem_append.1 hn with hn | hn
  · obtain ⟨f, -, hf⟩ := scope_of_mem_definitionsOf e he
    exact dot_not_mem_ofPackage (hf ▸ hn)
  · exact (w.plain_names e he n hn).2

theorem type?_definition {i j : Nat} {f : File} {m : Message} (hf : files[i]? = some f)
    (hm : f.messages[j]? = some m) :
    (Catalog.ofFiles files).type? f.scope m.name = some (f.definition i j m).declaration := by
  cases h : (Catalog.ofFiles files).type? f.scope m.name with
  | none =>
    rw [ofFiles_eq_ofFilings, Catalog.type?_ofFilings, Option.map_eq_none_iff, List.getLast?_eq_none_iff,
      List.filter_eq_nil_iff] at h
    exact absurd (decide_eq_true ⟨rfl, rfl⟩) (h _ (mem_filings.2 ⟨i, f, j, m, hf, hm, rfl, rfl⟩))
  | some d =>
    -- Whichever message was filed here last, it has the same absolute name.
    obtain ⟨e, he, hs, hn, rfl⟩ := type?_ofFiles h
    rw [w.eq_of_parts_eq he (definition_mem hf hm) (by rw [Definition.parts, hs, hn]; rfl)]

/-- The names of a message lead to it from the top-level message that it is nested in. -/
theorem descend_names : ∀ e ∈ definitionsOf files, ∃ name rest top, e.names = name :: rest ∧
    (Catalog.ofFiles files).type? e.scope name = some top ∧ top.descend rest = some e.declaration := by
  apply definitions_induction
  · intro i f j m hf hm
    exact ⟨m.name, [], _, rfl, w.type?_definition hf hm, rfl⟩
  · rintro e he ⟨name, rest, top, hn, ht, hd⟩ k m hk
    refine ⟨name, rest ++ [m.name], top, by simp [Definition.inside, hn], ht, ?_⟩
    obtain ⟨d, h⟩ : ∃ d, e.declaration.nested? m.name = some d := findIn_isSome hk rfl
    -- The first message of the name inside `e` can be no other than this one.
    obtain ⟨l, n, hl, hln, rfl⟩ := nested?_eq_some h
    have := w.eq_of_parts_eq (inside_mem he hl) (inside_mem he hk)
      (by simp [Definition.inside, Definition.parts, hln])
    rw [descend_append, hd, Option.bind_some, ← this]
    exact h

theorem not_contains_top {e : Definition} (he : e ∈ definitionsOf files) {name : String}
    (hn : e.names = [name]) : (Catalog.ofFiles files).contains (e.scope ++ [name]) = false := by
  rw [Bool.eq_false_iff]
  intro h
  obtain ⟨f, hf, hp⟩ := prefix_of_contains_ofFiles h (by simp)
  exact w.apart e he f hf (by rwa [Definition.parts, hn])

end WellNamed

/-- Every message of a well-named set is found under its absolute name from any scope: the very
declaration, in the scope of the package of its file. -/
theorem lookup_fullName {files : List File} (w : WellNamed files) {e : Definition}
    (he : e ∈ definitionsOf files) (current : Scope) :
    (Catalog.ofFiles files).lookup current (Scope.fullName e.parts) = some (e.declaration, e.scope) := by
  obtain ⟨name, rest, top, hn, ht, hd⟩ := w.descend_names e he
  obtain ⟨x, hx, hs, hxn, -⟩ := type?_ofFiles ht
  have hc : (Catalog.ofFiles files).contains e.scope = true := by
    obtain ⟨inner, hi, -⟩ := Option.bind_eq_some_iff.1 ht
    exact Option.isSome_iff_exists.2 ⟨inner, hi⟩
  have hp : e.parts = e.scope ++ name :: rest := by rw [Definition.parts, hn]
  rw [lookup_eq_resolve (by simp [hp]) (w.dot_not_mem_parts he), hp,
    Catalog.resolve_message hc (w.plain_names e he name (by simp [hn])).1
      fun _ => hs ▸ w.not_contains_top hx hxn,
    ht, Option.bind_some, hd]
  rfl

/-- A message that holds others and has no fields. -/
def enclosing (name : String) (nested : List Message) : Message where
  name
  fields := []
  nested
  enums := []
  mapEntry := false
  comments := none

/-- A package around another one, and files with messages of one name in different packages. -/
def nestedPackages : List File :=
  [⟨"order.proto", some "shop.v1", [enclosing "Order" [enclosing "Line" [enclosing "Order" []]]], []⟩,
    ⟨"item.proto", some ".shop", [enclosing "Item" [enclosing "v1" []]], []⟩,
    ⟨"root.proto", none, [enclosing "Order" []], []⟩]

theorem lookup_fullName_nested : WellNamed nestedPackages ∧
    ∃ e ∈ definitionsOf nestedPackages, e.parts = ["shop", "v1", "Order", "Line", "Order"] ∧
      ∀ current, (Catalog.ofFiles nestedPackages).lookup current (Scope.fullName e.parts) =
        some (e.declaration, ["shop", "v1"]) := by
  have w : WellNamed nestedPackages := by decide +kernel
  have order : File.definition _ 0 0 _ ∈ definitionsOf nestedPackages := definition_mem rfl rfl
  have line : Definition.inside _ 0 _ ∈ definitionsOf nestedPackages := inside_mem order rfl
  have inner : Definition.inside _ 0 _ ∈ definitionsOf nestedPackages := inside_mem line rfl
  exact ⟨w, _, inner, by decide +kernel, lookup_fullName w inner⟩

end ProtoSchema
