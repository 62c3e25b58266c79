import Mathlib.Data.List.Basic
/-!
# Texts split at a character

The pieces of a text that is split at a character hold all of the text but that character (`flatten_splitOn`),
and none of them holds it (`not_mem_of_mem_splitOn`). What was put together from such pieces is split into them
again (`splitOn_append_flatMap`), and every text is put together so (`exists_pieces`).
-/

namespace ProtoSchema

theorem flatten_modifyHead_cons {α : Type} {l : List (List α)} (h : l ≠ []) (a : α) :
    (l.modifyHead (a :: ·)).flatten = a :: l.flatten := by
  cases l with
  | nil => exact absurd rfl h
  | cons x l => rfl

theorem flatten_splitOnP {α : Type} (p : α → Bool) (l : List α) : (l.splitOnP p).flatten = l.filter (!p ·) := by
  induction l with
  | nil => rfl
  | cons a l ih =>
    rw [List.splitOnP_cons_eq_if_modifyHead, List.filter_cons]
    cases p a with
    | true => simpa using ih
    | false => simpa [flatten_modifyHead_cons (List.splitOnP_ne_nil p l)] using ih

variable {a c : Char} {l piece head : List Char} {pieces : List (List Char)}

theorem flatten_splitOn (a : Char) (l : List Char) : (l.splitOn a).flatten = l.filter (· != a) := by
  rw [List.splitOn_eq_splitOnP, flatten_splitOnP]
  rfl

theorem mem_splitOn (h : c ∈ l) (hc : c ≠ a) : ∃ piece ∈ l.splitOn a, c ∈ piece := by
  have hmem : c ∈ (l.splitOn a).flatten := by
    rw [flatten_splitOn]
    exact List.mem_filter.2 ⟨h, bne_iff_ne.2 hc⟩
  exact List.mem_flatten.1 hmem

theorem not_mem_of_mem_splitOn (h : piece ∈ l.splitOn a) : a ∉ piece := by
  intro hmem
  have hflatten : a ∈ (l.splitOn a).flatten := List.mem_flatten.2 ⟨piece, h, hmem⟩
  rw [flatten_splitOn] at hflatten
  exact absurd rfl (bne_iff_ne.1 (List.mem_filter.1 hflatten).2)

/-- Writing the character before each piece puts one more of it in front of the text. -/
theorem flatMap_splitOn (a : Char) (l : List Char) : (l.splitOn a).flatMap (a :: ·) = a :: l := by
  induction l with
  | nil => rfl
  | cons c l ih =>
    rw [List.splitOn_cons_eq_if_modifyHead]
    split
    · rename_i hc
      rw [List.flatMap_cons, ih, eq_of_beq hc]
      rfl
    · obtain ⟨head, rest, he⟩ := List.exists_cons_of_ne_nil (List.splitOn_ne_nil a l)
      rw [he, List.flatMap_cons, List.cons_append] at ih
      rw [he, List.modifyHead_cons, List.flatMap_cons, List.cons_append, List.cons_append, (List.cons.inj ih).2]

/-- A text put together from pieces without the character is split into these. -/
theorem splitOn_append_flatMap (hh : a ∉ head) (hp : ∀ piece ∈ pieces, a ∉ piece) :
    (head ++ pieces.flatMap (a :: ·)).splitOn a = head :: pieces := by
  induction pieces generalizing head with
  | nil => simpa using List.splitOn_eq_singleton hh
  | cons piece pieces ih =>
    rw [List.flatMap_cons, List.cons_append, List.splitOn_append_cons_self_of_not_mem hh,
      ih (hp piece (.head _)) fun q hq => hp q (.tail _ hq)]

theorem exists_pieces (a : Char) (l : List Char) :
    ∃ (head : List Char) (pieces : List (List Char)), l = head ++ pieces.flatMap (a :: ·) ∧ a ∉ head ∧
      ∀ piece ∈ pieces, a ∉ piece := by
  obtain ⟨head, pieces, he⟩ := List.exists_cons_of_ne_nil (List.splitOn_ne_nil a l)
  have hnone : ∀ piece ∈ head :: pieces, a ∉ piece := fun piece hp => not_mem_of_mem_splitOn (he ▸ hp)
  have hl := flatMap_splitOn a l
  rw [he, List.flatMap_cons, List.cons_append] at hl
  exact ⟨head, pieces, (List.cons.inj hl).2.symm, hnone head (.head _), fun piece hp => hnone piece (.tail _ hp)⟩

end ProtoSchema
