import Mathlib.Data.List.Dedup
import Mathlib.Data.List.Induction
import ProtoSchema.Proofs.Directives.Tags
/-!
# The last tag of a key counts

Directives are made from tags, one after the other: those of the lines of comments, or those of lines read and
entries put in by hand, in any mixture. Whatever the tags are, a key has the value of the last tag with this key,
where keys are the same if they are in small letters, and there is one directive for each key that some tag has
(`last_tag_counts`).
-/

namespace ProtoSchema.Directives

open Text

/-- An addition to directives: an entry put in as it is, or the tags of a line. -/
inductive Addition where
  | entry (key value : String)
  | line (line : String)

def Addition.addTo (d : Directives) : Addition → Directives
  | entry key value => d.insert key value
  | line s => d.addLine s

/-- The tags that additions bring, in order. -/
inductive Bring : List Addition → List Tag → Prop where
  | nil : Bring [] []
  | entry {additions : List Addition} {tags : List Tag} (key value : String) (rest : Bring additions tags) :
    Bring (.entry key value :: additions) (⟨key, value⟩ :: tags)
  | line {additions : List Addition} {s : String} {here tags : List Tag} (h : Tag.InLine s here)
    (rest : Bring additions tags) : Bring (.line s :: additions) (here ++ tags)

/-- Directives in which the last of some tags counts for each key. -/
structure Keeps (d : Directives) (tags : List Tag) : Prop where
  get : ∀ key, d.get? key = (tags.filter fun t => lowercase t.key = lowercase key).getLast?.map Tag.value
  contains : ∀ key, d.contains key = true ↔ ∃ t ∈ tags, lowercase t.key = lowercase key
  size : d.size = (tags.map fun t => lowercase t.key).dedup.length

/-! ## Directives made from tags -/

theorem addTags_append (d : Directives) (tags others : List Tag) :
    d.addTags (tags ++ others) = (d.addTags tags).addTags others :=
  List.foldl_append

theorem entries_addTags (tags : List Tag) :
    (empty.addTags tags).entries = .ofList (tags.map fun t => (lowercase t.key, t.value)) := by
  unfold addTags Dictionary.ofList
  rw [List.foldl_map]
  exact (List.foldl_hom entries fun _ _ => rfl).symm

theorem lookup_reverse_tags (tags : List Tag) (key : String) :
    (tags.map fun t => (lowercase t.key, t.value)).reverse.lookup key =
      (tags.filter fun t => lowercase t.key = key).getLast?.map Tag.value := by
  induction tags using List.reverseRecOn with
  | nil => rfl
  | append_singleton tags t ih =>
    rw [List.map_append, List.map_singleton, List.reverse_append, List.reverse_singleton, List.singleton_append,
      Dictionary.lookup_cons, List.filter_append, ih]
    by_cases h : lowercase t.key = key
    · simp [h]
    · simp [h, Ne.symm h]

theorem size_ofList (l : List (String × String)) : (Dictionary.ofList l).size = (l.map Prod.fst).dedup.length := by
  have hnodup := (Dictionary.ascending_ofList l).nodup_keys
  have hperm : (Dictionary.ofList l).keys.Perm (l.map Prod.fst).dedup := by
    refine (List.perm_ext_iff_of_nodup hnodup (List.nodup_dedup _)).2 fun key => ?_
    rw [Dictionary.mem_keys_ofList, List.mem_dedup]
  rw [← hperm.length_eq, Dictionary.keys, List.length_map, Dictionary.size]

theorem keeps_addTags (tags : List Tag) : (empty.addTags tags).Keeps tags where
  get key := by
    rw [get?, value?, entries_addTags, Dictionary.get?_ofList, lookup_reverse_tags]
  contains key := by
    rw [contains, get?, value?, ← Dictionary.mem_keys_iff, entries_addTags, Dictionary.mem_keys_ofList]
    simp
  size := by
    rw [size, entries_addTags, size_ofList, List.map_map]
    rfl

/-! ## Additions -/

def Addition.tags : Addition → List Tag
  | entry key value => [⟨key, value⟩]
  | line s => Tag.ofLine s

theorem addTo_eq (d : Directives) (a : Addition) : a.addTo d = d.addTags a.tags := by
  cases a <;> rfl

theorem foldl_addTo (d : Directives) (additions : List Addition) :
    additions.foldl (fun d a => a.addTo d) d = d.addTags (additions.flatMap Addition.tags) := by
  induction additions generalizing d with
  | nil => rfl
  | cons a additions ih => rw [List.foldl_cons, ih, addTo_eq, List.flatMap_cons, addTags_append]

theorem bring_iff {additions : List Addition} {tags : List Tag} :
    Bring additions tags ↔ tags = additions.flatMap Addition.tags := by
  constructor
  · intro h
    induction h with
    | nil => rfl
    | entry key value _ ih => rw [List.flatMap_cons, ← ih]; rfl
    | line h _ ih => rw [List.flatMap_cons, ← ih, Addition.tags, Tag.inLine_iff.1 h]
  · rintro rfl
    induction additions with
    | nil => exact .nil
    | cons a additions ih =>
      cases a with
      | entry key value => exact .entry key value ih
      | line s => exact .line (Tag.inLine_iff.2 rfl) ih

theorem ofComments_eq (c : Comments) :
    ofComments (some c) = (c.lines.map Addition.line).foldl (fun d a => a.addTo d) empty := by
  simp [ofComments, List.foldl_map, Addition.addTo]

/-- The directives that any additions make keep the tags that these bring, and the directives of comments keep the
tags of their lines, in the order of the lines. -/
theorem last_tag_counts :
    (∀ additions : List Addition, ∃ tags, (∀ ts, Bring additions ts ↔ ts = tags) ∧
      (additions.foldl (fun d a => a.addTo d) empty).Keeps tags) ∧
    ∀ c : Comments, ∃ tags, (∀ ts, Bring (c.lines.map .line) ts ↔ ts = tags) ∧ (ofComments (some c)).Keeps tags := by
  have hadditions : ∀ additions : List Addition, ∃ tags, (∀ ts, Bring additions ts ↔ ts = tags) ∧
      (additions.foldl (fun d a => a.addTo d) empty).Keeps tags := by
    intro additions
    refine ⟨additions.flatMap Addition.tags, fun ts => bring_iff, ?_⟩
    rw [foldl_addTo]
    exact keeps_addTags _
  refine ⟨hadditions, fun c => ?_⟩
  rw [ofComments_eq]
  exact hadditions _

/-- Of three tags with one key the trailing comment has the last; the piece with slashes is no tag. -/
example :
    let d := ofComments (some ⟨some "Prose @Min = 1 @max=a=b\n@min=http://x", some "@MIN", ["@min=0"]⟩)
    d.get? "min" = some "true" ∧ d.get? "max" = some "a=b" ∧ d.size = 2 := by
  decide +kernel

end ProtoSchema.Directives
