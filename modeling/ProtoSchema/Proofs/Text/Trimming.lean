import Mathlib.Data.List.DropRight
import ProtoSchema.Text.Blank
/-!
# Blanks at the ends of a text

A trimmed text is the text without a blank start and a blank end (`exists_trim`), and such a start and end make
no difference to it (`trim_append_blank`). So trimming loses nothing that can be read (`readable_trim`), and where
a character that is no blank stands in a text, the parts before and after it are trimmed apart from each other
(`trim_append_cons`).
-/

namespace ProtoSchema.Text

/-- There is nothing to read in a text. -/
def Blank (cs : List Char) : Prop := ∀ c ∈ cs, isBlank c = true

/-- What there is to read in a text: all that is not blank. -/
def readable (cs : List Char) : List Char := cs.filter (!isBlank ·)

variable {before cs after : List Char} {c : Char}

theorem readable_append (cs after : List Char) : readable (cs ++ after) = readable cs ++ readable after :=
  List.filter_append cs after

theorem Blank.readable (h : Blank cs) : readable cs = [] := by
  simpa [Text.readable] using fun c hc => h c hc

/-! ## One end -/

theorem trimStart_append_blank (h : Blank before) : trimStart (before ++ cs) = trimStart cs :=
  List.dropWhile_append_of_pos h

theorem trimEnd_append_blank (h : Blank after) : trimEnd (cs ++ after) = trimEnd cs := by
  unfold trimEnd
  rw [List.reverse_append, List.dropWhile_append_of_pos fun c hc => h c (List.mem_reverse.1 hc)]

theorem Blank.trimStart (h : Blank cs) : trimStart cs = [] := List.dropWhile_eq_nil_iff.2 h

theorem exists_trimStart (cs : List Char) : ∃ before, Blank before ∧ cs = before ++ trimStart cs :=
  ⟨cs.takeWhile isBlank, fun _ hc => List.mem_takeWhile_imp hc, List.takeWhile_append_dropWhile.symm⟩

theorem exists_trimEnd (cs : List Char) : ∃ after, Blank after ∧ cs = trimEnd cs ++ after := by
  refine ⟨(cs.reverse.takeWhile isBlank).reverse, fun c hc => ?_, ?_⟩
  · exact List.mem_takeWhile_imp (List.mem_reverse.1 hc)
  · rw [trimEnd, ← List.reverse_append, List.takeWhile_append_dropWhile, List.reverse_reverse]

/-! ## Both ends -/

/-- A blank end makes no difference, whether or not there is anything before it. -/
theorem trim_append_blank_right (h : Blank after) : trim (cs ++ after) = trim cs := by
  unfold trim trimStart
  rw [List.dropWhile_append]
  split
  case isTrue hcs =>
    have hafter : after.dropWhile isBlank = [] := List.dropWhile_eq_nil_iff.2 h
    rw [hafter, List.isEmpty_iff.1 hcs]
  case isFalse => exact trimEnd_append_blank h

theorem trim_append_blank (hb : Blank before) (ha : Blank after) : trim (before ++ cs ++ after) = trim cs := by
  rw [trim_append_blank_right ha, trim, trimStart_append_blank hb, trim]

theorem exists_trim (cs : List Char) :
    ∃ before after, Blank before ∧ Blank after ∧ cs = before ++ trim cs ++ after := by
  obtain ⟨before, hb, hcs⟩ := exists_trimStart cs
  obtain ⟨after, ha, hstart⟩ := exists_trimEnd (trimStart cs)
  refine ⟨before, after, hb, ha, ?_⟩
  rw [List.append_assoc, trim, ← hstart, ← hcs]

theorem trim_trim (cs : List Char) : trim (trim cs) = trim cs := by
  obtain ⟨before, after, hb, ha, hcs⟩ := exists_trim cs
  conv_rhs => rw [hcs, trim_append_blank hb ha]

theorem trim_trimStart (cs : List Char) : trim (trimStart cs) = trim cs := by
  obtain ⟨before, hb, hcs⟩ := exists_trimStart cs
  conv_rhs => rw [hcs, trim, trimStart_append_blank hb]
  rfl

theorem trim_trimEnd (cs : List Char) : trim (trimEnd cs) = trim cs := by
  obtain ⟨after, ha, hcs⟩ := exists_trimEnd cs
  conv_rhs => rw [hcs, trim_append_blank_right ha]

theorem Blank.trim (h : Blank cs) : trim cs = [] := by
  rw [Text.trim, h.trimStart]
  rfl

theorem readable_trim (cs : List Char) : readable (trim cs) = readable cs := by
  obtain ⟨before, after, hb, ha, hcs⟩ := exists_trim cs
  conv_rhs => rw [hcs, readable_append, readable_append, hb.readable, ha.readable]
  simp

theorem trim_eq_nil_iff : trim cs = [] ↔ Blank cs := by
  refine ⟨fun h => ?_, Blank.trim⟩
  have hread : readable cs = [] := by rw [← readable_trim, h]; rfl
  simpa [readable, Blank] using hread

theorem mem_of_mem_trim (h : c ∈ trim cs) : c ∈ cs := by
  obtain ⟨before, after, -, -, hcs⟩ := exists_trim cs
  rw [hcs]
  simp [h]

/-! ## Around a character -/

theorem trimStart_append_cons (hc : isBlank c = false) (cs after : List Char) :
    trimStart (cs ++ c :: after) = trimStart cs ++ c :: after := by
  unfold trimStart
  rw [List.dropWhile_append, List.dropWhile_cons_of_neg (by simp [hc])]
  split
  case isTrue h => rw [List.isEmpty_iff.1 h, List.nil_append]
  case isFalse => rfl

theorem trimEnd_append_cons (hc : isBlank c = false) (cs after : List Char) :
    trimEnd (cs ++ c :: after) = cs ++ c :: trimEnd after := by
  have hreverse := trimStart_append_cons hc after.reverse cs.reverse
  unfold trimStart at hreverse
  simp [trimEnd, hreverse]

theorem trim_append_cons (hc : isBlank c = false) (cs after : List Char) :
    trim (cs ++ c :: after) = trimStart cs ++ c :: trimEnd after := by
  rw [trim, trimStart_append_cons hc, trimEnd_append_cons hc]

/-! ## Contents -/

/-- The content of a text is the trimmed text, and is not empty. -/
theorem content?_eq_some {s line : String} (h : content? s = some line) :
    line ≠ "" ∧ line.toList = trim s.toList := by
  simp only [content?] at h
  split at h
  · cases h
  · rename_i hne
    obtain rfl := Option.some.inj h
    rw [String.toList_ofList]
    refine ⟨fun hempty => hne ?_, rfl⟩
    have hnil := congrArg String.toList hempty
    simpa using hnil

theorem content?_eq_none {s : String} (h : content? s = none) : Blank s.toList := by
  simp only [content?] at h
  split at h
  · rename_i hempty
    exact trim_eq_nil_iff.1 (List.isEmpty_iff.1 hempty)
  · cases h

end ProtoSchema.Text
