import ProtoSchema.Directives
import ProtoSchema.Proofs.Text.Splitting
import ProtoSchema.Proofs.Text.Trimming
/-!
# The tags of a line

Which tags a line holds, told from the text of the line: it is prose without an `@`, then pieces, each after an
`@` and without another. A piece that holds `//`, or nothing but blanks, is no tag. Any other is one: the key is
what stands before its first `=`, the value what stands after it, both trimmed, and without an `=` the whole
piece is a key with the value `true`. `inLine_iff` says that these are the tags that are read, and
`ofLine_trim` that blanks at the ends of a line make no difference to them.
-/

namespace ProtoSchema.Tag

open Text

variable {piece cs after : List Char} {pieces : List (List Char)} {line : String} {t : Tag} {tags : List Tag}
  {c : Char}

/-- A piece that is no tag. -/
def Ignored (piece : List Char) : Prop := ['/', '/'] <:+: piece ∨ Blank piece

/-- The key and the value that a piece gives. -/
inductive Gives : List Char → Tag → Prop where
  | bare {piece : List Char} (h : '=' ∉ piece) : Gives piece ⟨String.ofList (trim piece), "true"⟩
  | valued {key value : List Char} (h : '=' ∉ key) :
    Gives (key ++ '=' :: value) ⟨String.ofList (trim key), String.ofList (trim value)⟩

/-- The tags of pieces, in the order of the pieces. -/
inductive OfPieces : List (List Char) → List Tag → Prop where
  | nil : OfPieces [] []
  | ignored {piece : List Char} {pieces : List (List Char)} {tags : List Tag} (h : Ignored piece)
    (rest : OfPieces pieces tags) : OfPieces (piece :: pieces) tags
  | tag {piece : List Char} {pieces : List (List Char)} {t : Tag} {tags : List Tag} (h : ¬ Ignored piece)
    (gives : Gives piece t) (rest : OfPieces pieces tags) : OfPieces (piece :: pieces) (t :: tags)

/-- The tags of a line, in order. -/
def InLine (line : String) (tags : List Tag) : Prop :=
  ∃ (prose : List Char) (pieces : List (List Char)), line.toList = prose ++ pieces.flatMap ('@' :: ·) ∧
    '@' ∉ prose ∧ (∀ piece ∈ pieces, '@' ∉ piece) ∧ OfPieces pieces tags

/-! ## Slashes -/

theorem hasSlashes_cons (c : Char) (cs : List Char) :
    hasSlashes (c :: cs) = (decide (c = '/' ∧ cs.head? = some '/') || hasSlashes cs) := by
  by_cases h : c = '/' ∧ cs.head? = some '/'
  · obtain ⟨rfl, hhead⟩ := h
    obtain ⟨rest, rfl⟩ := List.head?_eq_some_iff.1 hhead
    simp [hasSlashes]
  · rw [hasSlashes]
    · simp [h]
    · rintro rest rfl rfl
      exact h ⟨rfl, rfl⟩

theorem hasSlashes_iff : hasSlashes cs = true ↔ ['/', '/'] <:+: cs := by
  induction cs with
  | nil => simp [hasSlashes]
  | cons c cs ih =>
    have hprefix : ['/', '/'] <+: c :: cs ↔ c = '/' ∧ cs.head? = some '/' := by
      cases cs with
      | nil => simp [List.prefix_cons_iff]
      | cons d cs => simp [List.cons_prefix_cons, eq_comm]
    rw [hasSlashes_cons, Bool.or_eq_true, decide_eq_true_iff, ih, List.infix_cons_iff, hprefix]

/-- Two slashes in a row do not stand around another character. -/
theorem hasSlashes_append_cons (hc : c ≠ '/') (cs after : List Char) :
    hasSlashes (cs ++ c :: after) = (hasSlashes cs || hasSlashes after) := by
  induction cs with
  | nil => simp [hasSlashes_cons, hc, hasSlashes]
  | cons d cs ih =>
    have hhead : (cs ++ c :: after).head? = some '/' ↔ cs.head? = some '/' := by
      cases cs <;> simp [hc]
    rw [List.cons_append, hasSlashes_cons, hasSlashes_cons, ih, Bool.or_assoc]
    simp only [hhead]

/-! ## One piece -/

theorem ofPiece?_of_ignored (h : Ignored piece) : ofPiece? piece = none := by
  unfold ofPiece?
  rcases h with h | h
  · simp [hasSlashes_iff.2 h]
  · simp [h.trim]

theorem ofPiece?_of_gives (h : ¬ Ignored piece) (hg : Gives piece t) : ofPiece? piece = some t := by
  obtain ⟨hslashes, hblank⟩ := not_or.1 h
  rw [← hasSlashes_iff] at hslashes
  rw [← trim_eq_nil_iff] at hblank
  unfold ofPiece?
  cases hg with
  | bare hnone =>
    have hkey : (trim piece).dropWhile (· != '=') = [] := by
      refine List.dropWhile_eq_nil_iff.2 fun c hc => bne_iff_ne.2 ?_
      rintro rfl
      exact hnone (mem_of_mem_trim hc)
    simp [hslashes, hblank, hkey]
  | @valued key value hnone =>
    -- The `=` is not blank, so the piece is trimmed on either side of it.
    have htrim : trim (key ++ '=' :: value) = trimStart key ++ '=' :: trimEnd value :=
      trim_append_cons (by decide) key value
    have hkey : ∀ c ∈ trimStart key, (c != '=') = true := by
      intro c hc
      refine bne_iff_ne.2 ?_
      rintro rfl
      exact hnone ((List.dropWhile_sublist _).mem hc)
    have hbefore : (trimStart key ++ '=' :: trimEnd value).takeWhile (· != '=') = trimStart key := by
      rw [List.takeWhile_append_of_pos hkey]
      simp
    have hafter : (trimStart key ++ '=' :: trimEnd value).dropWhile (· != '=') = '=' :: trimEnd value := by
      rw [List.dropWhile_append_of_pos hkey]
      rfl
    simp [hslashes, htrim, hbefore, hafter, trim_trimStart, trim_trimEnd]

theorem exists_gives (piece : List Char) : ∃ t, Gives piece t := by
  by_cases h : '=' ∈ piece
  · obtain ⟨key, value, rfl, hkey⟩ := List.eq_append_cons_of_mem h
    exact ⟨_, .valued hkey⟩
  · exact ⟨_, .bare h⟩

/-! ## Pieces -/

theorem filterMap_of_ofPieces (h : OfPieces pieces tags) : pieces.filterMap ofPiece? = tags := by
  induction h with
  | nil => rfl
  | ignored h _ ih => rw [List.filterMap_cons, ofPiece?_of_ignored h, ih]
  | tag h hg _ ih => rw [List.filterMap_cons, ofPiece?_of_gives h hg, ih]

theorem exists_ofPieces (pieces : List (List Char)) : ∃ tags, OfPieces pieces tags := by
  induction pieces with
  | nil => exact ⟨[], .nil⟩
  | cons piece pieces ih =>
    obtain ⟨tags, htags⟩ := ih
    by_cases h : Ignored piece
    · exact ⟨tags, .ignored h htags⟩
    · obtain ⟨t, ht⟩ := exists_gives piece
      exact ⟨t :: tags, .tag h ht htags⟩

/-! ## Lines -/

theorem ofLine_of_inLine (h : InLine line tags) : ofLine line = tags := by
  obtain ⟨prose, pieces, hline, hprose, hpieces, htags⟩ := h
  rw [ofLine, hline, splitOn_append_flatMap hprose hpieces]
  exact filterMap_of_ofPieces htags

theorem exists_inLine (line : String) : ∃ tags, InLine line tags := by
  obtain ⟨prose, pieces, hline, hprose, hpieces⟩ := exists_pieces '@' line.toList
  obtain ⟨tags, htags⟩ := exists_ofPieces pieces
  exact ⟨tags, prose, pieces, hline, hprose, hpieces, htags⟩

/-- The tags that are read from a line are those that stand in it. -/
theorem inLine_iff : InLine line tags ↔ tags = ofLine line := by
  refine ⟨fun h => (ofLine_of_inLine h).symm, ?_⟩
  rintro rfl
  obtain ⟨tags, h⟩ := exists_inLine line
  rwa [ofLine_of_inLine h]

/-! ## Blank ends -/

theorem hasSlashes_append_blank (h : Blank after) : hasSlashes (cs ++ after) = hasSlashes cs := by
  have hne : ∀ c, isBlank c = true → c ≠ '/' := by
    rintro c hc rfl
    exact absurd hc (by decide)
  induction after generalizing cs with
  | nil => rw [List.append_nil]
  | cons c after ih =>
    obtain ⟨hc, hafter⟩ := List.forall_mem_cons.1 h
    have hnone : hasSlashes ([] ++ after) = false := ih hafter
    rw [List.nil_append] at hnone
    rw [hasSlashes_append_cons (hne c hc), hnone, Bool.or_false]

theorem ofPiece?_append_blank (h : Blank after) : ofPiece? (cs ++ after) = ofPiece? cs := by
  unfold ofPiece?
  rw [hasSlashes_append_blank h, trim_append_blank_right h]

theorem not_mem_of_blank (h : Blank cs) (hc : isBlank c = false) : c ∉ cs := by
  intro hmem
  rw [h c hmem] at hc
  cases hc

/-- The tags of a line are those of the line without its blank ends. -/
theorem ofLine_trim (h : line.toList = trim cs) : ofLine line = ofLine (String.ofList cs) := by
  obtain ⟨before, after, hb, ha, hcs⟩ := exists_trim cs
  obtain ⟨prose, pieces, htrim, hprose, hpieces⟩ := exists_pieces '@' (trim cs)
  have hprose' : '@' ∉ before ++ prose := by
    simpa [hprose] using not_mem_of_blank hb (by decide)
  have hafter : '@' ∉ after := not_mem_of_blank ha (by decide)
  unfold ofLine
  rw [String.toList_ofList, h, htrim]
  rw [htrim] at hcs
  rcases List.eq_nil_or_concat pieces with rfl | ⟨pieces, piece, rfl⟩
  · have hnone : '@' ∉ cs := by
      rw [hcs]
      simp_all
    rw [splitOn_append_flatMap hprose (by simp), List.splitOn_eq_singleton hnone]
    rfl
  · -- What follows the text is blank, and belongs to the last piece.
    rw [List.concat_eq_append] at hpieces hcs ⊢
    have hsplit : cs = (before ++ prose) ++ (pieces ++ [piece ++ after]).flatMap ('@' :: ·) := by
      rw [hcs]
      simp
    have hpieces' : ∀ p ∈ pieces ++ [piece ++ after], '@' ∉ p := by
      simp only [List.forall_mem_append, List.forall_mem_singleton] at hpieces ⊢
      exact ⟨hpieces.1, by simp [hpieces.2, hafter]⟩
    rw [splitOn_append_flatMap hprose hpieces, hsplit, splitOn_append_flatMap hprose' hpieces']
    simp [List.filterMap_cons, ofPiece?_append_blank ha]

end ProtoSchema.Tag
