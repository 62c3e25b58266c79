import ProtoSchema.Comments
import ProtoSchema.Proofs.Text.Splitting
import ProtoSchema.Proofs.Text.Trimming
/-!
# What the lines of comments keep

The lines of comments hold all that there is to read in them, in the order detached blocks, leading comment,
trailing comment, and each line is trimmed and not empty (`lines_keep_readable`). Only blanks are left out:
those at the ends of lines, and the line feeds that the leading comment is split at.
-/

namespace ProtoSchema.Comments

open Text

variable {line : String} {texts : List String}

/-- All that there is to read in some texts, one after the other. -/
def readableIn (texts : List String) : List Char := texts.flatMap fun s => readable s.toList

theorem readableIn_append (texts others : List String) :
    readableIn (texts ++ others) = readableIn texts ++ readableIn others :=
  List.flatMap_append

/-! ## Contents of texts -/

/-- Leaving out the blank ends of texts, and the texts that are all blank, leaves out nothing to read. -/
theorem readableIn_contents (texts : List String) : readableIn (texts.filterMap content?) = readableIn texts := by
  unfold readableIn
  induction texts with
  | nil => rfl
  | cons s texts ih =>
    rw [List.filterMap_cons, List.flatMap_cons]
    cases hs : content? s with
    | none => rw [(content?_eq_none hs).readable, List.nil_append, ih]
    | some line => rw [List.flatMap_cons, ih, (content?_eq_some hs).2, readable_trim]

theorem trimmed_of_mem_contents (h : line ∈ texts.filterMap content?) :
    line ≠ "" ∧ trim line.toList = line.toList := by
  obtain ⟨s, -, hline⟩ := List.mem_filterMap.1 h
  obtain ⟨hne, htrim⟩ := content?_eq_some hline
  exact ⟨hne, by rw [htrim, trim_trim]⟩

/-! ## The lines of one text -/

/-- Splitting a text into lines leaves out the line feeds, which are blank. -/
theorem readableIn_linesOf (s : String) : readableIn (linesOf s) = readable s.toList := by
  have hkept : ∀ c : Char, (!isBlank c && c != '\n') = !isBlank c := by
    intro c
    by_cases hc : c = '\n'
    · subst hc
      decide
    · simp [hc]
  have hflatten : ∀ l : List Char, (l.splitOn '\n').flatMap readable = readable l := by
    intro l
    unfold readable
    rw [List.flatMap_def, ← List.filter_flatten, flatten_splitOn, List.filter_filter]
    exact List.filter_congr fun c _ => hkept c
  simpa [readableIn, linesOf, List.flatMap_map] using hflatten s.toList

theorem readableIn_flatMap_linesOf (texts : List String) :
    readableIn (texts.flatMap linesOf) = readableIn texts := by
  induction texts with
  | nil => rfl
  | cons s texts ih =>
    rw [List.flatMap_cons, readableIn_append, ih, readableIn_linesOf]
    rfl

theorem lineFeed_not_mem_contents {s : String} (h : line ∈ (linesOf s).filterMap content?) : '\n' ∉ line.toList := by
  obtain ⟨part, hpart, hline⟩ := List.mem_filterMap.1 h
  obtain ⟨piece, hpiece, rfl⟩ := List.mem_map.1 hpart
  intro hmem
  rw [(content?_eq_some hline).2, String.toList_ofList] at hmem
  exact not_mem_of_mem_splitOn hpiece (mem_of_mem_trim hmem)

/-! ## All lines -/

/-- Every line is trimmed and has something in it. The lines are those of the detached blocks, those of the leading
comment, none of which holds a line feed, and those of the trailing comment; and what there is to read in them is
what there is to read in the comments, in that order, so that no text is lost, doubled or moved. -/
theorem lines_keep_readable (c : Comments) :
    (∀ line ∈ c.lines, line ≠ "" ∧ trim line.toList = line.toList) ∧
    c.lines = lines ⟨none, none, c.detached⟩ ++ lines ⟨c.leading, none, []⟩ ++ lines ⟨none, c.trailing, []⟩ ∧
    (∀ line ∈ lines ⟨c.leading, none, []⟩, '\n' ∉ line.toList) ∧
    readableIn c.lines = readableIn c.detached ++ readableIn c.leading.toList ++ readableIn c.trailing.toList := by
  refine ⟨fun line h => ?_, ?_, fun line h => ?_, ?_⟩
  · unfold lines at h
    rw [← List.filterMap_append, ← List.filterMap_append] at h
    exact trimmed_of_mem_contents h
  · simp [lines]
  · obtain ⟨s, -, hs⟩ : ∃ s ∈ c.leading.toList, line ∈ (linesOf s).filterMap content? := by
      simpa [lines, List.filterMap_flatMap] using h
    exact lineFeed_not_mem_contents hs
  · unfold lines
    rw [readableIn_append, readableIn_append, readableIn_contents, readableIn_contents, readableIn_contents,
      readableIn_flatMap_linesOf]

/-- Comments of all three kinds, with blank lines, a blank block, and line feeds and wide blanks inside. -/
def menu : Comments where
  leading := some " Soup of the day.\r\n\u3000\n\t@min=1 \n"
  trailing := some "\u00a0Served hot\n since noon "
  detached := ["  The menu\n of the week ", " \n "]

theorem lines_menu :
    menu.lines = ["The menu\n of the week", "Soup of the day.", "@min=1", "Served hot\n since noon"] := by
  decide +kernel

theorem lines_keep_readable_menu : "@min=1" ∈ menu.lines ∧ "@min=1" ∈ lines ⟨menu.leading, none, []⟩ ∧
    "@min=1" ≠ "" ∧ trim "@min=1".toList = "@min=1".toList ∧ '\n' ∉ "@min=1".toList ∧
    readableIn menu.lines = "ThemenuoftheweekSoupoftheday.@min=1Servedhotsincenoon".toList := by
  have hmem : "@min=1" ∈ menu.lines := by simp [lines_menu]
  have hleading : lines ⟨menu.leading, none, []⟩ = ["Soup of the day.", "@min=1"] := by decide +kernel
  obtain ⟨hlines, -, hfeeds, hreadable⟩ := lines_keep_readable menu
  obtain ⟨hne, htrim⟩ := hlines _ hmem
  refine ⟨hmem, by simp [hleading], hne, htrim, hfeeds _ (by simp [hleading]), ?_⟩
  rw [hreadable]
  decide +kernel

end ProtoSchema.Comments
