import ProtoSchema.Identifier
import ProtoSchema.Proofs.Text.Splitting
/-!
# The words of an identifier

Splitting an identifier into words loses its separators and nothing else (`flatten_words`), and no word is
empty (`ne_nil_of_mem_words`). So the title made from an identifier is empty only if there are none but
separators in it (`splitCase_ne_empty`).
-/

namespace ProtoSchema.Identifier

open Text

/-! ## Chunks -/

theorem chunkWords_ne_nil {cs : List Char} (h : cs ≠ []) : chunkWords cs ≠ [] := by
  fun_induction chunkWords cs with
  | case1 => exact absurd rfl h
  | case2 => exact List.cons_ne_nil _ _
  | case3 => exact List.cons_ne_nil _ _
  | case4 a b rest _ ih => simpa using ih (List.cons_ne_nil b rest)

theorem flatten_chunkWords (cs : List Char) : (chunkWords cs).flatten = cs := by
  fun_induction chunkWords cs with
  | case1 => rfl
  | case2 => rfl
  | case3 a b rest _ ih => rw [List.flatten_cons, ih, List.singleton_append]
  | case4 a b rest _ ih => rw [flatten_modifyHead_cons (chunkWords_ne_nil (List.cons_ne_nil b rest)), ih]

theorem ne_nil_of_mem_chunkWords {cs word : List Char} (h : word ∈ chunkWords cs) : word ≠ [] := by
  fun_induction chunkWords cs with
  | case1 => cases h
  | case2 c => exact List.mem_singleton.1 h ▸ List.cons_ne_nil c []
  | case3 a b rest _ ih =>
    rcases List.mem_cons.1 h with rfl | h
    · exact List.cons_ne_nil a []
    · exact ih h
  | case4 a b rest _ ih =>
    cases hwords : chunkWords (b :: rest) with
    | nil => simp [hwords] at h
    | cons first others =>
      rw [hwords, List.modifyHead_cons] at h
      rcases List.mem_cons.1 h with rfl | h
      · exact List.cons_ne_nil a first
      · exact ih (hwords ▸ .tail _ h)

/-! ## Identifiers -/

/-- Put together again, the words are the identifier without its separators. -/
theorem flatten_words (cs : List Char) : (words cs).flatten = cs.filter (!isSeparator ·) := by
  have hchunks : List.flatten ∘ chunkWords = id := funext flatten_chunkWords
  rw [words, List.flatMap_def, List.flatten_flatten, List.map_map, hchunks, List.map_id, flatten_splitOnP]

theorem ne_nil_of_mem_words {cs word : List Char} (h : word ∈ words cs) : word ≠ [] := by
  obtain ⟨chunk, -, hword⟩ := List.mem_flatMap.1 h
  exact ne_nil_of_mem_chunkWords hword

/-! ## Titles -/

theorem upper_ne_nil (c : Char) : upper c ≠ [] := by
  unfold upper
  split <;> exact List.cons_ne_nil _ _

theorem capitalize_ne_nil {word : List Char} (h : word ≠ []) : capitalize word ≠ [] := by
  cases word with
  | nil => exact absurd rfl h
  | cons c rest => exact List.append_ne_nil_of_left_ne_nil (upper_ne_nil c) rest

theorem split_ne_nil {cs : List Char} (h : ∃ c ∈ cs, isSeparator c = false) : split cs ≠ [] := by
  obtain ⟨c, hc, hsep⟩ := h
  have hflatten : (words cs).flatten ≠ [] := by
    rw [flatten_words]
    exact List.ne_nil_of_mem (List.mem_filter.2 ⟨hc, by simp [hsep]⟩)
  rw [split]
  cases hwords : words cs with
  | nil => simp [hwords] at hflatten
  | cons word others =>
    have hword := capitalize_ne_nil (ne_nil_of_mem_words (hwords ▸ List.mem_cons_self : word ∈ words cs))
    cases others with
    | nil => simpa using hword
    | cons next others => simp [List.intercalate_cons_cons, hword]

/-- An identifier that has anything but separators in it makes a title. -/
theorem splitCase_ne_empty {s : String} (h : ∃ c ∈ s.toList, isSeparator c = false) : splitCase s ≠ "" := by
  intro heq
  have htext := congrArg String.toList heq
  rw [splitCase, String.toList_ofList] at htext
  exact split_ne_nil h htext

end ProtoSchema.Identifier
