import ProtoSchema.Proofs.Identifier.Stability
/-!
# Words with gaps between them

A separator parts the words before it from those after it (`words_append_cons`), and so does a run of separators
(`Gap.words_append`). So words that stand in a text with gaps between them, of whatever separators, are found again
(`words_of_spaced`), and to split what has been split changes nothing (`words_resplit`).
-/

namespace ProtoSchema.Identifier

variable {gap : List Char} {ws : List (List Char)}

/-! ## Separators -/

theorem words_append_cons {sep : Char} (hsep : isSeparator sep = true) (before after : List Char) :
    words (before ++ sep :: after) = words before ++ words after := by
  rw [words, List.splitOnP_append_cons before after hsep, List.flatMap_append]
  rfl

/-- Separators at the start of a text belong to no word. -/
theorem words_separators_append (h : ∀ c ∈ gap, isSeparator c = true) (cs : List Char) : words (gap ++ cs) = words cs := by
  induction gap with
  | nil => rfl
  | cons sep gap ih =>
    obtain ⟨hsep, hgap⟩ := List.forall_mem_cons.1 h
    calc words (sep :: gap ++ cs) = words [] ++ words (gap ++ cs) := words_append_cons hsep [] (gap ++ cs)
      _ = words cs := ih hgap

/-- A run of separators, at least one. -/
structure Gap (gap : List Char) : Prop where
  nonempty : gap ≠ []
  separators : ∀ c ∈ gap, isSeparator c = true

theorem gap_iff : Gap gap ↔ gap ≠ [] ∧ gap.all isSeparator = true := by
  rw [List.all_eq_true]
  exact ⟨fun h => ⟨h.nonempty, h.separators⟩, fun h => ⟨h.1, h.2⟩⟩

instance : DecidablePred Gap := fun _ => decidable_of_iff _ gap_iff.symm

theorem Gap.single {sep : Char} (h : isSeparator sep = true) : Gap [sep] where
  nonempty := List.cons_ne_nil sep []
  separators _ hc := List.mem_singleton.1 hc ▸ h

theorem Gap.words_append (h : Gap gap) (before after : List Char) :
    words (before ++ (gap ++ after)) = words before ++ words after := by
  obtain ⟨sep, rest, rfl⟩ := List.exists_cons_of_ne_nil h.nonempty
  obtain ⟨hsep, hrest⟩ := List.forall_mem_cons.1 h.separators
  rw [List.cons_append, words_append_cons hsep, words_separators_append hrest]

/-! ## Words in a row -/

/-- A text made of words with a gap after each of them, which need not follow the last. -/
inductive Spaced : List (List Char) → List Char → Prop where
  | empty : Spaced [] []
  | last (word : List Char) : Spaced [word] word
  | before {text : List Char} {ws : List (List Char)} (word gap : List Char) (hgap : Gap gap) (h : Spaced ws text) :
    Spaced (word :: ws) (word ++ (gap ++ text))

theorem words_of_spaced {text : List Char} (h : Spaced ws text) (hws : ∀ word ∈ ws, Whole word) : words text = ws := by
  -- A gap parts the word before it from the rest of the text, where the induction goes on.
  induction h with
  | empty => rfl
  | last word => exact (hws word (.head _)).words_eq
  | before word gap hgap _ ih =>
    obtain ⟨hword, hws⟩ := List.forall_mem_cons.1 hws
    rw [hgap.words_append, hword.words_eq, ih hws, List.singleton_append]

theorem spaced_intercalate (hgap : Gap gap) (ws : List (List Char)) : Spaced ws (List.intercalate gap ws) := by
  induction ws with
  | nil => exact .empty
  | cons word ws ih =>
    cases ws with
    | nil =>
      rw [List.intercalate_singleton]
      exact .last word
    | cons next ws =>
      rw [List.intercalate_cons_cons, List.append_assoc]
      exact .before word gap hgap ih

theorem words_intercalate (hgap : Gap gap) (hws : ∀ word ∈ ws, Whole word) : words (List.intercalate gap ws) = ws :=
  words_of_spaced (spaced_intercalate hgap ws) hws

/-- The words of an identifier are the identifier without its separators, each of them is a single word when it
stands alone, and with gaps between them, the same everywhere or not, they are the words of what they make up. -/
theorem words_resplit (cs : List Char) :
    (words cs).flatten = cs.filter (!isSeparator ·) ∧
    (∀ word ∈ words cs, word ≠ [] ∧ (∀ c ∈ word, isSeparator c = false) ∧ words word = [word]) ∧
    (∀ gap, Gap gap → words (List.intercalate gap (words cs)) = words cs) ∧
    ∀ text, Spaced (words cs) text → words text = words cs := by
  have hwhole : ∀ word ∈ words cs, Whole word := fun word hword => whole_of_mem_words hword
  refine ⟨flatten_words cs, fun word hword => ?_, fun gap hgap => words_intercalate hgap hwhole,
    fun text htext => words_of_spaced htext hwhole⟩
  have hword := hwhole word hword
  exact ⟨hword.nonempty, hword.joined, hword.words_eq⟩

/-- An acronym, a small letter with a digit, and a word that starts at the last of two capitals. -/
def serverWords : List (List Char) := ["HTTP", "Server", "v2", "I", "Ds"].map String.toList

/-- The words again with one gap everywhere, and with gaps that differ. -/
theorem words_resplit_server :
    words "_HTTPServer\u00a0v2-IDs".toList = serverWords ∧ words "Ds".toList = ["Ds".toList] ∧
    Gap "\u2003_".toList ∧ words "HTTP\u2003_Server\u2003_v2\u2003_I\u2003_Ds".toList = serverWords ∧
    Spaced serverWords "HTTP-Server v2__I-Ds".toList ∧ words "HTTP-Server v2__I-Ds".toList = serverWords := by
  have hwords : words "_HTTPServer\u00a0v2-IDs".toList = serverWords := by decide +kernel
  have hgap : Gap "\u2003_".toList := by decide +kernel
  have hspaced : Spaced serverWords "HTTP-Server v2__I-Ds".toList :=
    .before "HTTP".toList ['-'] (.single rfl) <| .before "Server".toList [' '] (.single rfl) <|
      .before "v2".toList ['_', '_'] (by decide +kernel) <|
        .before "I".toList ['-'] (.single rfl) <| .last "Ds".toList
  obtain ⟨-, halone, hjoined, hagain⟩ := words_resplit "_HTTPServer\u00a0v2-IDs".toList
  rw [hwords] at halone hjoined hagain
  exact ⟨hwords, (halone "Ds".toList (by simp [serverWords])).2.2, hgap, hjoined _ hgap, hspaced, hagain _ hspaced⟩

end ProtoSchema.Identifier
