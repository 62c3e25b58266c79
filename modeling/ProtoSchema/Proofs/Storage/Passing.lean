import Mathlib.Data.List.Infix
import ProtoSchema.Proofs.Storage.Places
/-!
# Where paths pass

The text of a path alone tells the position to which it leads, if it leads anywhere (`spot_of_place`), and those by
which it passes on the way. The path of the directory around what a path names passes by nothing else
(`passedBy_parent`).
-/

namespace ProtoSchema

namespace Path

/-- Where a step leads, whatever there is on the disk. -/
def move (p : Position) (step : String) : Position :=
  if step = "" ∨ step = "." then p else if step = ".." then p.dropLast else p ++ [step]

/-! ## The text of a parent -/

/-- Where slashes and steps are taken off, a slash stands before what is left, if that is not the root. -/
theorem trimEnd_cases (cs : List Char) : trimEnd cs = cs ∨ trimEnd cs = ['/'] ∨ '/' :: trimEnd cs <:+ cs := by
  fun_induction trimEnd cs with
  | case1 c rest ih =>
    rcases ih with h | h | h
    · rw [h]
      exact .inr (.inr List.suffix_rfl)
    · exact .inr (.inl h)
    · exact .inr (.inr (h.trans (List.suffix_cons _ _)))
  | case2 rest ih =>
    rcases ih with h | h | h
    · exact .inr (.inl (trimEnd_eq_root (by rw [h]; rfl)))
    · exact .inr (.inl h)
    · exact .inr (.inr (h.trans (List.suffix_cons _ _)))
  | case3 => exact .inl rfl

/-- The parent of a path is empty, the root, or what stands before one of its slashes. -/
theorem parent?_cases {cs p : List Char} (h : parent? cs = some p) : p = [] ∨ p = ['/'] ∨ p ++ ['/'] <+: cs := by
  simp only [parent?] at h
  split at h
  · cases h
  next hback =>
    obtain ⟨hroot, -⟩ := not_or.1 hback
    obtain rfl := Option.some.inj h
    have hsuffix : trimEnd cs.reverse <:+ cs.reverse := by
      rcases trimEnd_cases cs.reverse with h | h | h
      · rw [h]
      · exact absurd h hroot
      · exact (List.suffix_cons _ _).trans h
    generalize trimEnd cs.reverse = back at hsuffix
    have hhead := List.head?_dropWhile_not (· != '/') back
    have hfront := (List.dropWhile_suffix (l := back) (· != '/')).trans hsuffix
    generalize back.dropWhile (· != '/') = front at hhead hfront
    -- What is left of the last step begins with a slash, given backwards, or there is none.
    rcases trimEnd_cases front with h | h | h
    · cases front with
      | nil => exact .inl rfl
      | cons c front =>
        obtain rfl : c = '/' := by simpa using hhead
        rw [trimEnd_eq_root (by rw [h]; rfl)]
        exact .inr (.inl rfl)
    · rw [h]
      exact .inr (.inl rfl)
    · refine .inr (.inr ?_)
      rw [← List.reverse_suffix]
      simpa using h.trans hfront

end Path

namespace Disk

variable {d : Disk} {p q : Position} {path name : String}

/-! ## Positions told by texts -/

/-- The position to which a path leads, if it leads anywhere. -/
def spot (d : Disk) (path : String) : Position := (d.namesOf path).foldl Path.move []

/-- A path comes to a position after some of its steps. -/
def PassedBy (d : Disk) (path : String) (p : Position) : Prop :=
  path ≠ "" ∧ ∃ front, front <+: d.namesOf path ∧ front.foldl Path.move [] = p

theorem move_of_walk (h : d.walk p name = .ok q) : Path.move p name = q := by
  unfold walk at h
  unfold Path.move
  split at h
  · cases h
  · cases h
  · split_ifs at h ⊢ <;> cases h <;> rfl

theorem foldl_move_of_walk {names : List String} (h : names.foldlM d.walk p = .ok q) :
    names.foldl Path.move p = q := by
  induction names generalizing p with
  | nil => exact Except.ok.inj h
  | cons name names ih =>
    rw [List.foldlM_cons] at h
    obtain ⟨next, hnext, h⟩ := bind_eq_ok_iff.1 h
    rw [List.foldl_cons, move_of_walk hnext, ih h]

theorem spot_of_place (h : d.place path = .ok p) : d.spot path = p :=
  foldl_move_of_walk (place_eq_ok_iff.1 h).2

theorem passedBy_of_place (h : d.place path = .ok p) : d.PassedBy path p :=
  ⟨(place_eq_ok_iff.1 h).1.nonempty, _, List.prefix_rfl, spot_of_place h⟩

theorem prefix_namesOf {cs before : List Char} (hne : before ≠ []) (h : before ++ ['/'] <+: cs) :
    d.namesOf (String.ofList before) <+: d.namesOf (String.ofList cs) := by
  obtain ⟨rest, rfl⟩ := h
  obtain ⟨c, before, rfl⟩ := List.exists_cons_of_ne_nil hne
  rw [namesOf, namesOf, Path.steps, Path.steps, String.toList_ofList, String.toList_ofList, List.append_assoc,
    List.singleton_append, List.splitOn_append_cons_self, List.map_append]
  have habsolute : Path.isAbsolute (String.ofList (c :: before ++ '/' :: rest)) =
      Path.isAbsolute (String.ofList (c :: before)) := by
    simp [Path.isAbsolute]
  rw [habsolute, ← List.append_assoc]
  exact List.prefix_append _ _

/-- The path of the directory around comes only to positions to which the path itself comes. -/
theorem passedBy_parent {cs parent : List Char} (h : Path.parent? cs = some parent)
    (hp : d.PassedBy (String.ofList parent) p) : d.PassedBy (String.ofList cs) p := by
  obtain ⟨hne, front, hfront, rfl⟩ := hp
  have hcs : String.ofList cs ≠ "" := by
    intro hempty
    obtain rfl : cs = [] := by simpa using hempty
    cases h
  rcases Path.parent?_cases h with rfl | rfl | hprefix
  · exact absurd rfl hne
  · -- Its names stay at the root.
    have hnames : ∀ names ∈ ["", ""].inits, names.foldl Path.move [] = [] := by decide
    exact ⟨hcs, [], List.nil_prefix, (hnames front ((List.mem_inits _ _).2 hfront)).symm⟩
  · exact ⟨hcs, front, hfront.trans (prefix_namesOf (by rintro rfl; exact hne rfl) hprefix), rfl⟩

end Disk
end ProtoSchema
