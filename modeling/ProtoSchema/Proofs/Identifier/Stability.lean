import ProtoSchema.Proofs.Identifier.Words
/-!
# Words that stay whole

No word starts inside a word, not even where the word stands alone (`whole_of_mem_words`), so it is then the one word
there is (`Whole.words_eq`). Words with nothing between them are found again as long as each of them starts with a
capital and goes on with small letters and digits (`words_flatten`).
-/

namespace ProtoSchema.Identifier

open Text

variable {cs word : List Char} {ws : List (List Char)}

/-- No word starts inside. -/
def Unbroken : List Char → Prop
  | a :: b :: rest => startsWord a b rest.head? = false ∧ Unbroken (b :: rest)
  | _ => True

/-- What follows a character can make a word start at it, but nothing else can. -/
theorem startsWord_alone {a b : Char} {next : Option Char} (h : startsWord a b next = false) :
    startsWord a b none = false := by
  simp only [startsWord, Option.any_none, Bool.and_false, Bool.or_false, Bool.and_eq_false_iff,
    Bool.or_eq_false_iff] at h ⊢
  exact h.imp_right fun h => h.1

theorem startsWord_eq_false {a b : Char} {next : Option Char} (h : isUpper b = false) : startsWord a b next = false := by
  simp [startsWord, h]

theorem unbroken_of_small (h : ∀ c ∈ cs, isUpper c = false) : Unbroken cs := by
  induction cs with
  | nil => trivial
  | cons a cs ih =>
    cases cs with
    | nil => trivial
    | cons b rest => exact ⟨startsWord_eq_false (h b (.tail _ (.head _))), ih fun c hc => h c (.tail _ hc)⟩

/-! ## Chunks -/

theorem chunkWords_of_unbroken (h : Unbroken word) (hne : word ≠ []) : chunkWords word = [word] := by
  fun_induction chunkWords word with
  | case1 => exact absurd rfl hne
  | case2 => rfl
  | case3 a b rest hstart _ =>
    rw [h.1] at hstart
    cases hstart
  | case4 a b rest _ ih => rw [ih h.2 (List.cons_ne_nil b rest), List.modifyHead_cons]

/-- The words of a chunk that starts with `c` start with `c`. -/
theorem exists_chunkWords_cons (c : Char) (rest : List Char) :
    ∃ first others, chunkWords (c :: rest) = (c :: first) :: others ∧ (first = [] ∨ first.head? = rest.head?) := by
  cases rest with
  | nil => exact ⟨[], [], rfl, .inl rfl⟩
  | cons b rest =>
    rw [chunkWords]
    split
    · exact ⟨[], _, rfl, .inl rfl⟩
    · obtain ⟨first, others, hwords, -⟩ := exists_chunkWords_cons b rest
      rw [hwords]
      exact ⟨b :: first, others, rfl, .inr rfl⟩

theorem unbroken_of_mem_chunkWords (h : word ∈ chunkWords cs) : Unbroken word := by
  fun_induction chunkWords cs generalizing word with
  | case1 => cases h
  | case2 c =>
    rw [List.mem_singleton.1 h]
    trivial
  | case3 a b rest _ ih =>
    rcases List.mem_cons.1 h with rfl | h
    · trivial
    · exact ih h
  | case4 a b rest hstart ih =>
    obtain ⟨first, others, hwords, hfirst⟩ := exists_chunkWords_cons b rest
    rw [hwords] at h ih
    rcases List.mem_cons.1 h with rfl | h
    · refine ⟨?_, ih (.head _)⟩
      -- The word ends here, or goes on as the chunk does.
      rcases hfirst with rfl | hfirst
      · exact startsWord_alone (Bool.eq_false_iff.2 hstart)
      · rw [hfirst]
        exact Bool.eq_false_iff.2 hstart
    · exact ih (.tail _ h)

/-! ## Identifiers -/

theorem not_isSeparator_of_mem_words {c : Char} (h : word ∈ words cs) (hc : c ∈ word) : isSeparator c = false := by
  have hflatten : c ∈ (words cs).flatten := List.mem_flatten.2 ⟨word, h, hc⟩
  rw [flatten_words] at hflatten
  simpa using (List.mem_filter.1 hflatten).2

theorem mem_of_mem_words {c : Char} (h : word ∈ words cs) (hc : c ∈ word) : c ∈ cs := by
  have hflatten : c ∈ (words cs).flatten := List.mem_flatten.2 ⟨word, h, hc⟩
  rw [flatten_words] at hflatten
  exact (List.mem_filter.1 hflatten).1

/-- A word that stands alone is one word. -/
structure Whole (word : List Char) : Prop where
  nonempty : word ≠ []
  unbroken : Unbroken word
  joined : ∀ c ∈ word, isSeparator c = false

theorem whole_of_mem_words (h : word ∈ words cs) : Whole word where
  nonempty := ne_nil_of_mem_words h
  unbroken := by
    obtain ⟨chunk, -, hword⟩ := List.mem_flatMap.1 h
    exact unbroken_of_mem_chunkWords hword
  joined _ hc := not_isSeparator_of_mem_words h hc

theorem Whole.words_eq (h : Whole word) : words word = [word] := by
  rw [words, List.splitOnP_eq_singleton h.joined, List.flatMap_singleton,
    chunkWords_of_unbroken h.unbroken h.nonempty]

/-! ## Words without anything between them -/

/-- A capital, and then at least one character, all of them small letters or digits. -/
structure Hump (word : List Char) : Prop where
  capital : ∃ c rest, word = c :: rest ∧ isUpper c = true ∧ rest ≠ []
  rest : ∀ c ∈ word.tail, isUpper c = false ∧ (isLower c = true ∨ c.isDigit = true)

/-- A word starts at a capital after small letters and digits. -/
theorem chunkWords_append_capital {a c : Char} {rest more : List Char} (hne : rest ≠ [])
    (hrest : ∀ x ∈ rest, isUpper x = false ∧ (isLower x = true ∨ x.isDigit = true)) (hc : isUpper c = true) :
    chunkWords (a :: rest ++ c :: more) = (a :: rest) :: chunkWords (c :: more) := by
  induction rest generalizing a with
  | nil => exact absurd rfl hne
  | cons b rest ih =>
    obtain ⟨hb, hrest⟩ := List.forall_mem_cons.1 hrest
    rw [List.cons_append, List.cons_append, chunkWords, startsWord_eq_false hb.1]
    cases rest with
    | nil =>
      have hstart : startsWord b c more.head? = true := by
        rcases hb.2 with h | h <;> simp [startsWord, hc, h]
      rw [List.nil_append, chunkWords, hstart]
      rfl
    | cons x rest =>
      have hinner := ih (a := b) (List.cons_ne_nil x rest) hrest
      rw [List.cons_append] at hinner
      rw [hinner]
      rfl

theorem chunkWords_flatten (h : ∀ word ∈ ws, Hump word) : chunkWords ws.flatten = ws := by
  induction ws with
  | nil => rfl
  | cons word ws ih =>
    obtain ⟨hword, hws⟩ := List.forall_mem_cons.1 h
    obtain ⟨a, rest, rfl, -, hne⟩ := hword.capital
    cases ws with
    | nil =>
      have hunbroken : Unbroken (a :: rest) := by
        obtain ⟨b, rest, rfl⟩ := List.exists_cons_of_ne_nil hne
        exact ⟨startsWord_eq_false (hword.rest b (.head _)).1, unbroken_of_small fun c hc => (hword.rest c hc).1⟩
      simpa using chunkWords_of_unbroken hunbroken (List.cons_ne_nil a rest)
    | cons next ws =>
      obtain ⟨c, more, rfl, hc, -⟩ := (hws next (.head _)).capital
      have hflatten : ((c :: more) :: ws).flatten = c :: (more ++ ws.flatten) := rfl
      rw [List.flatten_cons, hflatten, chunkWords_append_capital hne hword.rest hc, ← hflatten, ih hws]

theorem words_flatten (h : ∀ word ∈ ws, Hump word) (hjoined : ∀ word ∈ ws, ∀ c ∈ word, isSeparator c = false) :
    words ws.flatten = ws := by
  have hnone : ∀ c ∈ ws.flatten, isSeparator c = false := fun c hc => by
    obtain ⟨word, hword, hc⟩ := List.mem_flatten.1 hc
    exact hjoined word hword c hc
  rw [words, List.splitOnP_eq_singleton hnone, List.flatMap_singleton, chunkWords_flatten h]

end ProtoSchema.Identifier
