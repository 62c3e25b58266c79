import ProtoSchema.Proofs.Identifier.Gaps
import ProtoSchema.Proofs.Text.Ascii
/-!
# Spellings of one identifier

In ASCII neither capitals nor small letters make a word start or stop inside another word, so the words of a spelling
are the words of the identifier, spelled (`words_snake`, `words_split`). A spelling of a spelling is then the spelling
of the identifier itself, and words of small letters come back from the spelling that puts nothing between them
(`spelling_of_spelling`).
-/

namespace ProtoSchema.Identifier

open Text

variable {c : Char} {cs word : List Char} {ws : List (List Char)}

/-! ## Separators and letter case -/

theorem isSeparator_toLower (hc : c.toNat < 128) : isSeparator c.toLower = isSeparator c :=
  ascii_forall (P := fun c => isSeparator c.toLower = isSeparator c) (by decide +kernel) hc

theorem isSeparator_toUpper (hc : c.toNat < 128) : isSeparator c.toUpper = isSeparator c :=
  ascii_forall (P := fun c => isSeparator c.toUpper = isSeparator c) (by decide +kernel) hc

/-! ## Words in small letters -/

theorem isUpper_of_mem_lowered (h : Ascii word) (hc : c ∈ lowered word) : isUpper c = false := by
  rw [lowered_ascii h] at hc
  obtain ⟨x, hx, rfl⟩ := List.mem_map.1 hc
  rw [isUpper_ascii (toLower_ascii (h x hx)), Char.isUpper_toLower_eq_false]

theorem lowered_lowered (h : Ascii word) : lowered (lowered word) = lowered word := by
  rw [lowered_ascii h, lowered_ascii h.map_toLower, List.map_map]
  exact List.map_congr_left fun c _ => Char.toLower_toLower_eq_toLower c

theorem Whole.lowered (h : Whole word) (ha : Ascii word) : Whole (lowered word) where
  nonempty := by
    rw [lowered_ascii ha]
    simpa using h.nonempty
  unbroken := unbroken_of_small fun c hc => isUpper_of_mem_lowered ha hc
  joined c hc := by
    rw [lowered_ascii ha] at hc
    obtain ⟨x, hx, rfl⟩ := List.mem_map.1 hc
    rw [isSeparator_toLower (ha x hx), h.joined x hx]

/-! ## Capitalized words -/

theorem capitalize_ascii {rest : List Char} (h : Ascii (c :: rest)) : capitalize (c :: rest) = c.toUpper :: rest := by
  rw [capitalize, upper_ascii (h c (.head _)), List.singleton_append]

theorem ascii_capitalize (h : Ascii word) : Ascii (capitalize word) := by
  cases word with
  | nil => exact h
  | cons c rest =>
    obtain ⟨hc, hrest⟩ := List.forall_mem_cons.1 h
    rw [capitalize_ascii h]
    exact List.forall_mem_cons.2 ⟨toUpper_ascii hc, hrest⟩

theorem capitalize_capitalize (h : Ascii word) : capitalize (capitalize word) = capitalize word := by
  have hcapital := ascii_capitalize h
  cases word with
  | nil => rfl
  | cons c rest =>
    rw [capitalize_ascii h] at hcapital ⊢
    rw [capitalize_ascii hcapital, Char.toUpper_toUpper_eq_toUpper]

theorem lowered_capitalize (h : Ascii word) : lowered (capitalize word) = lowered word := by
  rw [lowered_ascii (ascii_capitalize h), lowered_ascii h]
  cases word with
  | nil => rfl
  | cons c rest => rw [capitalize_ascii h, List.map_cons, List.map_cons, Char.toLower_toUpper_eq_toLower]

/-- A word that starts with a small letter has no capital after it, or another word would start there; so nothing
starts there after a capital in its place either. -/
theorem unbroken_capitalize (h : Unbroken word) (ha : Ascii word) : Unbroken (capitalize word) := by
  cases word with
  | nil => trivial
  | cons a rest =>
    rw [capitalize_ascii ha]
    cases rest with
    | nil => trivial
    | cons b rest =>
      refine ⟨?_, h.2⟩
      by_cases hlower : isLower a = true
      · have hb : isUpper b = false := by
          have hstart := h.1
          simpa [startsWord, hlower] using hstart
        exact startsWord_eq_false hb
      · have hsame : a.toUpper = a := by
          rw [isLower_ascii (ha a (.head _))] at hlower
          exact Char.toUpper_eq_of_not_isLower hlower
        rw [hsame]
        exact h.1

theorem Whole.capitalize (h : Whole word) (ha : Ascii word) : Whole (capitalize word) where
  nonempty := capitalize_ne_nil h.nonempty
  unbroken := unbroken_capitalize h.unbroken ha
  joined := by
    have hjoined := h.joined
    cases word with
    | nil => exact hjoined
    | cons c rest =>
      obtain ⟨hc, hrest⟩ := List.forall_mem_cons.1 hjoined
      rw [capitalize_ascii ha]
      exact List.forall_mem_cons.2 ⟨(isSeparator_toUpper (ha c (.head _))).trans hc, hrest⟩

/-! ## The words of a spelling -/

theorem ascii_of_mem_words (h : Ascii cs) (hword : word ∈ words cs) : Ascii word :=
  fun c hc => h c (mem_of_mem_words hword hc)

theorem words_snake (h : Ascii cs) : words (snake cs) = (words cs).map lowered :=
  words_intercalate (.single rfl) <| List.forall_mem_map.2 fun _ hword =>
    (whole_of_mem_words hword).lowered (ascii_of_mem_words h hword)

theorem words_split (h : Ascii cs) : words (split cs) = (words cs).map capitalize :=
  words_intercalate (.single rfl) <| List.forall_mem_map.2 fun _ hword =>
    (whole_of_mem_words hword).capitalize (ascii_of_mem_words h hword)

/-- Words that are spelled twice are the words spelled once, if that holds of each of them. -/
theorem map_spelled {f g k : List Char → List Char} (h : Ascii cs) (hw : ∀ {word}, Ascii word → g (f word) = k word) :
    ((words cs).map f).map g = (words cs).map k := by
  rw [List.map_map]
  exact List.map_congr_left fun word hword => hw (ascii_of_mem_words h hword)

theorem snake_snake (h : Ascii cs) : snake (snake cs) = snake cs := by
  rw [snake, words_snake h, map_spelled h lowered_lowered, snake]

theorem split_split (h : Ascii cs) : split (split cs) = split cs := by
  rw [split, words_split h, map_spelled h capitalize_capitalize, split]

theorem snake_split (h : Ascii cs) : snake (split cs) = snake cs := by
  rw [snake, words_split h, map_spelled h lowered_capitalize, snake]

theorem pascal_split (h : Ascii cs) : pascal (split cs) = pascal cs := by
  rw [pascal, List.flatMap_def, words_split h, map_spelled h capitalize_capitalize, pascal, List.flatMap_def]

/-! ## Words of small letters -/

/-- A small letter, and then at least one small letter or digit. -/
structure Small (word : List Char) : Prop where
  letter : ∃ c rest, word = c :: rest ∧ c.isLower = true ∧ rest ≠ []
  rest : ∀ c ∈ word, c.isLower = true ∨ c.isDigit = true

namespace Small

theorem ascii (h : Small word) : Ascii word := by
  intro c hc
  rcases h.rest c hc with h | h
  · simp only [Char.isLower, Bool.and_eq_true, decide_eq_true_eq, UInt32.le_iff_toNat_le] at h
    exact Nat.lt_of_le_of_lt h.2 (by decide)
  · simp only [Char.isDigit, Bool.and_eq_true, decide_eq_true_eq, UInt32.le_iff_toNat_le] at h
    exact Nat.lt_of_le_of_lt h.2 (by decide)

/-- What is known of a small letter or digit. -/
theorem of_mem (h : Small word) (hc : c ∈ word) : isUpper c = false ∧ (isLower c = true ∨ c.isDigit = true) ∧
    isSeparator c = false ∧ c.toLower = c :=
  ascii_forall (P := fun c => (c.isLower = true ∨ c.isDigit = true) → isUpper c = false ∧
      (isLower c = true ∨ c.isDigit = true) ∧ isSeparator c = false ∧ c.toLower = c)
    (by decide +kernel) (h.ascii c hc) (h.rest c hc)

theorem whole (h : Small word) : Whole word where
  nonempty := by
    obtain ⟨c, rest, rfl, -⟩ := h.letter
    exact List.cons_ne_nil c rest
  unbroken := unbroken_of_small fun _ hc => (h.of_mem hc).1
  joined _ hc := (h.of_mem hc).2.2.1

theorem lowered_eq (h : Small word) : lowered word = word := by
  rw [lowered_ascii h.ascii]
  exact (List.map_congr_left fun c hc => (h.of_mem hc).2.2.2).trans (List.map_id word)

theorem hump (h : Small word) : Hump (Identifier.capitalize word) := by
  have hmem := fun c hc => h.of_mem (c := c) hc
  obtain ⟨c, rest, rfl, hc, hne⟩ := h.letter
  have hcapital : isUpper c.toUpper = true := by
    have hascii := h.ascii c (.head _)
    rw [isUpper_ascii (toUpper_ascii hascii), Char.isUpper_toUpper_eq_isAlpha]
    simp [Char.isAlpha, hc]
  rw [capitalize_ascii h.ascii]
  exact ⟨⟨_, rest, rfl, hcapital, hne⟩, fun x hx => ⟨(hmem x (.tail _ hx)).1, (hmem x (.tail _ hx)).2.1⟩⟩

end Small

theorem snake_pascal (h : ∀ word ∈ ws, Small word) :
    snake (pascal (List.intercalate ['_'] ws)) = List.intercalate ['_'] ws := by
  have hwords : words (List.intercalate ['_'] ws) = ws := words_intercalate (.single rfl) fun word hword => (h word hword).whole
  have hcapitals : words (ws.map capitalize).flatten = ws.map capitalize :=
    words_flatten (List.forall_mem_map.2 fun word hword => (h word hword).hump)
      (List.forall_mem_map.2 fun word hword => ((h word hword).whole.capitalize (h word hword).ascii).joined)
  have hlowered : (ws.map capitalize).map lowered = ws := by
    rw [List.map_map]
    exact (List.map_congr_left fun word hword => (lowered_capitalize (h word hword).ascii).trans
      (h word hword).lowered_eq).trans (List.map_id ws)
  rw [pascal, hwords, List.flatMap_def, snake, hcapitals, hlowered]

/-- In ASCII a spelling does not change when it is spelled the same way again, and capitalized words have the other
spellings that their identifier has. Words of small letters come back from the spelling with nothing between them. -/
theorem spelling_of_spelling :
    (∀ s : String, Ascii s.toList → snakeCase (snakeCase s) = snakeCase s ∧ splitCase (splitCase s) = splitCase s ∧
      pascalCase (splitCase s) = pascalCase s ∧ snakeCase (splitCase s) = snakeCase s) ∧
    ∀ ws : List String, (∀ w ∈ ws, Small w.toList) →
      snakeCase (pascalCase ("_".intercalate ws)) = "_".intercalate ws := by
  refine ⟨fun s h => ?_, fun ws h => ?_⟩
  · simp only [snakeCase, splitCase, pascalCase, String.toList_ofList]
    rw [snake_snake h, split_split h, pascal_split h, snake_split h]
    exact ⟨rfl, rfl, rfl, rfl⟩
  · rw [snakeCase, pascalCase, String.toList_ofList, String.toList_intercalate]
    show String.ofList (snake (pascal (List.intercalate ['_'] (ws.map String.toList)))) = _
    rw [snake_pascal (List.forall_mem_map.2 h)]
    exact String.toList_inj.1 (by simp [String.toList_intercalate])

/-- An acronym before a word, and two words that touch only where a digit ends the first. -/
theorem spelling_of_spelling_server :
    Ascii "HTTPServer-userID".toList ∧ splitCase "HTTPServer-userID" = "HTTP Server User ID" ∧
    snakeCase (splitCase "HTTPServer-userID") = "http_server_user_id" ∧
    (∀ w ∈ ["v2", "http"], Small w.toList) ∧ pascalCase ("_".intercalate ["v2", "http"]) = "V2Http" ∧
    snakeCase (pascalCase ("_".intercalate ["v2", "http"])) = "_".intercalate ["v2", "http"] := by
  have hascii : Ascii "HTTPServer-userID".toList := fun c hc =>
    of_decide_eq_true (List.all_eq_true.1 (by decide : "HTTPServer-userID".toList.all (·.toNat < 128) = true) c hc)
  have hsmall : ∀ w ∈ ["v2", "http"], Small w.toList := by
    have hrest : ∀ w ∈ ["v2", "http"], ∀ c ∈ w.toList, c.isLower = true ∨ c.isDigit = true := by simp
    have hletter : ∀ w ∈ ["v2", "http"], ∃ c rest, w.toList = c :: rest ∧ c.isLower = true ∧ rest ≠ [] := by simp
    exact fun w hw => ⟨hletter w hw, hrest w hw⟩
  refine ⟨hascii, by decide +kernel, ?_, hsmall, by decide +kernel, spelling_of_spelling.2 _ hsmall⟩
  rw [(spelling_of_spelling.1 _ hascii).2.2.2]
  decide +kernel

end ProtoSchema.Identifier
