import Mathlib.Data.List.Infix
import ProtoSchema.Proofs.Directives.LastTag
/-!
# Directives written out

Directives can be written into a line, each as `@key=value` with spaces between them and prose in front, or into
a leading comment, over as many lines as one likes. If keys and values are such as can be told apart in a line
(`Tag.Writable`), reading gives back exactly these directives, in whatever order they were written (`read_back`).
-/

namespace ProtoSchema

open Text

namespace Tag

/-- A tag as it is written after its `@`, with spaces behind it. -/
def text (t : Tag) (spaces : Nat) : List Char :=
  t.key.toList ++ '=' :: (t.value.toList ++ List.replicate spaces ' ')

/-- A trimmed key in small letters and a trimmed value, without the characters that tags are told apart by. A
value can be empty, and it can have `=` in it. -/
structure Writable (t : Tag) : Prop where
  key_trimmed : trim t.key.toList = t.key.toList
  key_small : lowercase t.key = t.key
  key_plain : '@' ∉ t.key.toList ∧ '=' ∉ t.key.toList ∧ ¬ ['/', '/'] <:+: t.key.toList
  value_trimmed : trim t.value.toList = t.value.toList
  value_plain : '@' ∉ t.value.toList ∧ ¬ ['/', '/'] <:+: t.value.toList

instance (t : Tag) : Decidable t.Writable :=
  decidable_of_iff
    (trim t.key.toList = t.key.toList ∧ lowercase t.key = t.key ∧
      ('@' ∉ t.key.toList ∧ '=' ∉ t.key.toList ∧ ¬ ['/', '/'] <:+: t.key.toList) ∧
      trim t.value.toList = t.value.toList ∧ '@' ∉ t.value.toList ∧ ¬ ['/', '/'] <:+: t.value.toList)
    ⟨fun ⟨h, h', h'', h''', h''''⟩ => ⟨h, h', h'', h''', h''''⟩,
      fun ⟨h, h', h'', h''', h''''⟩ => ⟨h, h', h'', h''', h''''⟩⟩

end Tag

/-- A line of a comment: prose, then tags, each with a number of spaces behind it. -/
structure Passage where
  prose : String
  entries : List (Tag × Nat)

namespace Passage

def tags (p : Passage) : List Tag := p.entries.map Prod.fst

def text (p : Passage) : List Char := p.prose.toList ++ p.entries.flatMap fun e => '@' :: e.1.text e.2

def line (p : Passage) : String := String.ofList p.text

/-- The text whose lines are these passages. -/
def joined (ps : List Passage) : String := "\n".intercalate (ps.map line)

end Passage

/-- The entries of directives, as tags. -/
def Directives.tags (d : Directives) : List Tag := d.entries.entries.map fun e => ⟨e.1, e.2⟩

/-! ## One line -/

namespace Tag

variable {t : Tag}

theorem blank_replicate (n : Nat) : Blank (List.replicate n ' ') := by
  intro c hc
  rw [(List.mem_replicate.1 hc).2]
  decide

theorem Writable.gives (h : t.Writable) (spaces : Nat) : Gives (t.text spaces) t := by
  have hgives := @Gives.valued t.key.toList (t.value.toList ++ List.replicate spaces ' ') h.key_plain.2.1
  rwa [trim_append_blank_right (blank_replicate spaces), h.key_trimmed, h.value_trimmed, String.ofList_toList,
    String.ofList_toList] at hgives

/-- Slashes at the end of the key and around the value do not come together. -/
theorem Writable.not_ignored (h : t.Writable) (spaces : Nat) : ¬ Ignored (t.text spaces) := by
  unfold text
  rintro (hslashes | hblank)
  · rw [← hasSlashes_iff, hasSlashes_append_cons (by decide), hasSlashes_append_blank (blank_replicate spaces),
      Bool.or_eq_true, hasSlashes_iff, hasSlashes_iff] at hslashes
    exact hslashes.elim h.key_plain.2.2 h.value_plain.2
  · exact not_mem_of_blank hblank (show isBlank '=' = false by decide) (by simp)

theorem Writable.at_not_mem (h : t.Writable) (spaces : Nat) : '@' ∉ t.text spaces := by
  simp [text, h.key_plain.1, h.value_plain.1, List.mem_replicate]

theorem ofPieces_text {entries : List (Tag × Nat)} (h : ∀ e ∈ entries, e.1.Writable) :
    OfPieces (entries.map fun e => e.1.text e.2) (entries.map Prod.fst) := by
  induction entries with
  | nil => exact .nil
  | cons e entries ih =>
    obtain ⟨he, hrest⟩ := List.forall_mem_cons.1 h
    exact .tag (he.not_ignored e.2) (he.gives e.2) (ih hrest)

/-- The tags of a passage are those that stand in its line. -/
theorem inLine_passage {p : Passage} (hprose : '@' ∉ p.prose.toList) (hw : ∀ t ∈ p.tags, t.Writable) :
    InLine p.line p.tags := by
  have hentries : ∀ e ∈ p.entries, e.1.Writable := fun e he => hw e.1 (List.mem_map_of_mem he)
  refine ⟨p.prose.toList, p.entries.map fun e => e.1.text e.2, ?_, hprose, ?_, ofPieces_text hentries⟩
  · rw [Passage.line, String.toList_ofList, Passage.text, List.flatMap_map]
  · intro piece hpiece
    obtain ⟨e, he, rfl⟩ := List.mem_map.1 hpiece
    exact (hentries e he).at_not_mem e.2

end Tag

namespace Directives

theorem addTags_of_perm {d : Directives} (hd : d.entries.Ascending) {tags : List Tag} (hp : tags.Perm d.tags)
    (hw : ∀ t ∈ tags, t.Writable) : empty.addTags tags = d := by
  have hsmall : tags.map (fun t => (lowercase t.key, t.value)) = tags.map fun t => (t.key, t.value) :=
    List.map_congr_left fun t ht => by rw [(hw t ht).key_small]
  have hentries : d.tags.map (fun t => (t.key, t.value)) = d.entries.entries := by
    rw [Directives.tags, List.map_map]
    exact List.map_id _
  have heq : (empty.addTags tags).entries = d.entries := by
    rw [entries_addTags, hsmall, hd.ofList_eq (hentries ▸ hp.map _)]
  exact congrArg Directives.mk heq

/-! ## Comments -/

/-- Blank ends and blank lines hold no tags. -/
theorem flatMap_ofLine_contents (texts : List String) :
    (texts.filterMap content?).flatMap Tag.ofLine = texts.flatMap Tag.ofLine := by
  induction texts with
  | nil => rfl
  | cons s texts ih =>
    rw [List.filterMap_cons, List.flatMap_cons]
    cases hs : content? s with
    | none =>
      have hat : '@' ∉ s.toList := Tag.not_mem_of_blank (content?_eq_none hs) (by decide)
      have hnone : Tag.ofLine s = [] := by
        rw [Tag.ofLine, List.splitOn_eq_singleton hat]
        rfl
      rw [hnone, List.nil_append, ih]
    | some line => rw [List.flatMap_cons, ih, Tag.ofLine_trim (content?_eq_some hs).2, String.ofList_toList]

theorem ofComments_leading (s : String) :
    ofComments (some ⟨some s, none, []⟩) = empty.addTags ((Comments.linesOf s).flatMap Tag.ofLine) := by
  have hlines : Comments.lines ⟨some s, none, []⟩ = (Comments.linesOf s).filterMap content? := by
    simp [Comments.lines]
  rw [ofComments_eq, foldl_addTo, hlines, List.flatMap_map, ← flatMap_ofLine_contents]
  rfl

theorem flatMap_ofLine_joined {ps : List Passage} (h : ∀ p ∈ ps, '\n' ∉ p.text) :
    (Comments.linesOf (Passage.joined ps)).flatMap Tag.ofLine = ps.flatMap fun p => Tag.ofLine p.line := by
  cases ps with
  | nil => decide
  | cons p ps =>
    have hline : String.toList ∘ Passage.line = Passage.text := funext fun _ => String.toList_ofList
    have hsplit := List.splitOn_intercalate '\n' (List.forall_mem_map.2 h) (by simp)
    rw [Comments.linesOf, Passage.joined, String.toList_intercalate, List.map_map, hline,
      show "\n".toList = ['\n'] from rfl, hsplit, List.map_map, List.flatMap_map]
    rfl

/-- Directives that are written out, in any order, are read back: from one line, and from a leading comment of
any number of lines, which may hold one directive each. -/
theorem read_back {d : Directives} (hd : d.entries.Ascending) (hw : ∀ t ∈ d.tags, t.Writable) :
    (∀ p : Passage, '@' ∉ p.prose.toList → p.tags.Perm d.tags → empty.addLine p.line = d) ∧
    ∀ ps : List Passage, (∀ p ∈ ps, '@' ∉ p.prose.toList ∧ '\n' ∉ p.text) →
      (ps.flatMap Passage.tags).Perm d.tags → ofComments (some ⟨some (Passage.joined ps), none, []⟩) = d := by
  constructor
  · intro p hprose hp
    have hwritable : ∀ t ∈ p.tags, t.Writable := fun t ht => hw t (hp.mem_iff.1 ht)
    rw [addLine, Tag.ofLine_of_inLine (Tag.inLine_passage hprose hwritable)]
    exact addTags_of_perm hd hp hwritable
  · intro ps hps hp
    have hwritable : ∀ t ∈ ps.flatMap Passage.tags, t.Writable := fun t ht => hw t (hp.mem_iff.1 ht)
    have htags : ps.flatMap (fun p => Tag.ofLine p.line) = ps.flatMap Passage.tags := by
      refine List.flatMap_congr fun p hpmem => ?_
      have hline : ∀ t ∈ p.tags, t.Writable := fun t ht => hwritable t (List.mem_flatMap.2 ⟨p, hpmem, ht⟩)
      exact Tag.ofLine_of_inLine (Tag.inLine_passage (hps p hpmem).1 hline)
    rw [ofComments_leading, flatMap_ofLine_joined fun p hpmem => (hps p hpmem).2, htags]
    exact addTags_of_perm hd hp hwritable

/-- Directives with slashes where key and value meet, an empty value, and a value with `=` and wide blanks in it. -/
def recipe : Directives := ⟨⟨[("form/", "/a=b/"), ("größe", "2 \u3000 cups"), ("note", "")]⟩⟩

def recipeLine : Passage :=
  ⟨"Taken from http://recipes. ", [(⟨"note", ""⟩, 1), (⟨"form/", "/a=b/"⟩, 3), (⟨"größe", "2 \u3000 cups"⟩, 0)]⟩

/-- One directive on each line, and one line without any. -/
def recipeLines : List Passage :=
  [⟨"", [(⟨"größe", "2 \u3000 cups"⟩, 0)]⟩, ⟨" // and ", [(⟨"form/", "/a=b/"⟩, 0)]⟩, ⟨"=", []⟩,
    ⟨" ", [(⟨"note", ""⟩, 2)]⟩]

theorem read_back_recipe : recipe.entries.Ascending ∧ (∀ t ∈ recipe.tags, t.Writable) ∧
    '@' ∉ recipeLine.prose.toList ∧ recipeLine.tags.Perm recipe.tags ∧
    (∀ p ∈ recipeLines, '@' ∉ p.prose.toList ∧ '\n' ∉ p.text) ∧
    (recipeLines.flatMap Passage.tags).Perm recipe.tags ∧
    empty.addLine "Taken from http://recipes. @note= @form/=/a=b/   @größe=2 \u3000 cups" = recipe ∧
    ofComments (some ⟨some "@größe=2 \u3000 cups\n // and @form/=/a=b/\n=\n @note=  ", none, []⟩) = recipe := by
  have hascending : recipe.entries.Ascending := by
    show List.Pairwise _ _
    decide +kernel
  have hwritable : ∀ t ∈ recipe.tags, t.Writable := by decide +kernel
  have hprose : '@' ∉ recipeLine.prose.toList := by decide +kernel
  have hline : recipeLine.tags.Perm recipe.tags := by decide +kernel
  have hproses : ∀ p ∈ recipeLines, '@' ∉ p.prose.toList ∧ '\n' ∉ p.text := by decide +kernel
  have hlines : (recipeLines.flatMap Passage.tags).Perm recipe.tags := by decide +kernel
  obtain ⟨hread, hreadAll⟩ := read_back hascending hwritable
  exact ⟨hascending, hwritable, hprose, hline, hproses, hlines, hread recipeLine hprose hline,
    hreadAll recipeLines hproses hlines⟩

end Directives
end ProtoSchema
