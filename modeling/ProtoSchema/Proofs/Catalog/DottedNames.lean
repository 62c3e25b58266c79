import ProtoSchema.Catalog.Basic
import ProtoSchema.Proofs.Text.Splitting
/-!
# Dotted names and their parts

The parts that a dotted name is split into hold no dot, and a name made of such
parts is split into these again. So the absolute name of a scope tells all names
that lead to it (`fullName_inj`).
-/

namespace ProtoSchema

theorem dot_not_mem_segments {name part : String} (h : part ∈ segments name) : '.' ∉ part.toList := by
  obtain ⟨piece, hp, rfl⟩ := List.mem_map.1 h
  rw [String.toList_ofList]
  exact not_mem_of_mem_splitOn hp

theorem dot_not_mem_ofPackage {package n : String} (h : n ∈ Scope.ofPackage package) : '.' ∉ n.toList :=
  dot_not_mem_segments (List.mem_filter.1 h).1

theorem splitOn_dotted {name : String} {rest : List String} (hn : '.' ∉ name.toList)
    (hr : ∀ x ∈ rest, '.' ∉ x.toList) :
    (name.toList ++ rest.flatMap fun x => '.' :: x.toList).splitOn '.' = (name :: rest).map String.toList := by
  have hpieces : ∀ piece ∈ rest.map String.toList, '.' ∉ piece := List.forall_mem_map.2 hr
  rw [List.map_cons, ← splitOn_append_flatMap hn hpieces, List.flatMap_map]

namespace Scope

/-- The names are such as a package can have. -/
def Plain (s : Scope) : Prop := ∀ n ∈ s, n ≠ "" ∧ '.' ∉ n.toList

theorem Plain.concat {s : Scope} {n : String} (hs : s.Plain) (hn : n ≠ "" ∧ '.' ∉ n.toList) :
    Plain (s ++ [n]) := by
  intro m hm
  rcases List.mem_append.1 hm with hm | hm
  · exact hs m hm
  · rwa [List.mem_singleton.1 hm]

theorem plain_ofPackage (package : String) : (ofPackage package).Plain := fun n hn =>
  ⟨by simpa using (List.mem_filter.1 hn).2, dot_not_mem_ofPackage hn⟩

theorem toList_fullName (s : Scope) : s.fullName.toList = s.flatMap fun n => '.' :: n.toList := by
  simp [fullName, String.toList_join, List.flatMap_map]

theorem fullName_append (s t : Scope) : fullName (s ++ t) = s.fullName ++ t.fullName := by
  rw [← String.toList_inj]
  simp [toList_fullName]

theorem fullName_concat (s : Scope) (n : String) : fullName (s ++ [n]) = s.fullName ++ "." ++ n := by
  rw [← String.toList_inj]
  simp [toList_fullName]

/-- Splitting a name and writing a dot before each part puts one dot in front of the name. -/
theorem fullName_segments (name : String) : fullName (segments name) = "." ++ name := by
  rw [← String.toList_inj, toList_fullName, segments, List.flatMap_map]
  simpa using flatMap_splitOn '.' name.toList

/-- Scopes with different names in them have different absolute names. -/
theorem fullName_inj {s t : Scope} (hs : s.Plain) (ht : t.Plain) (h : s.fullName = t.fullName) : s = t := by
  have split : ∀ u : Scope, u.Plain → u.fullName.toList.splitOn '.' = ("" :: u).map String.toList := by
    intro u hu
    have hnone : '.' ∉ "".toList := by simp
    rw [toList_fullName]
    exact splitOn_dotted hnone fun x hx => (hu x hx).2
  have hl := split s hs
  rw [h, split t ht] at hl
  rw [List.map_inj_right fun _ _ => String.toList_inj.1] at hl
  exact (List.cons.inj hl.symm).2

end Scope
end ProtoSchema
