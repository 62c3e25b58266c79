import Mathlib.Data.List.Infix
import Mathlib.Data.Nat.Find
import ProtoSchema.Proofs.Catalog.Filing
/-!
# What a type name refers to

The scoping rule in one piece. In a scope, as many parts of a name as possible, but
never the last, name scopes one inside the other; the next part names a message of
the scope reached, and those after it messages nested in one another (`answer`).
`lookup_eq_nearest_answer`: a name with a leading dot has the answer of the outermost
scope, and any other name that of the nearest scope with an answer, from the current
one outwards.
-/

namespace ProtoSchema

namespace Declaration

/-- The first of the messages nested in one that has some name. -/
def firstNested? (d : Declaration) (name : String) : Option Declaration :=
  (d.message.nested.zipIdx.find? fun e => e.1.name = name).map fun e => ⟨d.place ++ [e.2], e.1⟩

/-- The message that names lead to, each nested in the one before. -/
def follow (d : Declaration) (names : List String) : Option Declaration := names.foldlM firstNested? d

theorem findIn_eq_find? (place : Place) (name : String) (ms : List Message) (i : Nat) :
    findIn place i name ms = ((ms.zipIdx i).find? fun e => e.1.name = name).map fun e =>
      ⟨place ++ [e.2], e.1⟩ := by
  induction ms generalizing i with
  | nil => rfl
  | cons m ms ih =>
    rw [findIn, List.zipIdx_cons, List.find?_cons, ih]
    by_cases h : m.name = name <;> simp [h]

theorem descend_eq_follow (d : Declaration) (names : List String) : d.descend names = d.follow names := by
  have h : nested? = firstNested? := funext fun d => funext fun name => findIn_eq_find? d.place name _ 0
  rw [descend, follow, h]

end Declaration

namespace Catalog

/-- How many parts of a name, the last one aside, name scopes one inside the other from `p` on. -/
def passed (c : Catalog) (p : Scope) (parts : List String) : Nat :=
  Nat.findGreatest (fun k => c.contains (p ++ parts.take k) = true) (parts.length - 1)

/-- The answer that a scope has for the parts of a name, and the scope in which it is declared. -/
def answer (c : Catalog) (p : Scope) (parts : List String) : Option (Declaration × Scope) :=
  let q := p ++ parts.take (c.passed p parts)
  match parts.drop (c.passed p parts) with
  | [] => none
  | name :: rest => ((c.type? q name).bind (·.follow rest)).map (·, q)

/-- What the parts of a name stand for in the catalog of a scope. -/
def resolveAt (c : Catalog) (p : Scope) (parts : List String) : Option (Declaration × Scope) :=
  (c.at? p).bind fun inner => (inner.resolve parts).map fun (d, s) => (d, p ++ s)

variable {c inner : Catalog} {p : Scope} {parts : List String}

theorem contains_append (h : c.at? p = some inner) (s : Scope) : c.contains (p ++ s) = inner.contains s := by
  rw [contains, at?_append, h]
  rfl

theorem type?_append (h : c.at? p = some inner) (s : Scope) (name : String) :
    c.type? (p ++ s) name = inner.type? s name := by
  rw [type?, at?_append, h]
  rfl

theorem contains_of_append {s : Scope} (h : c.contains (p ++ s) = true) : c.contains p = true := by
  rw [contains, at?_append] at h
  obtain ⟨next, hn⟩ := Option.isSome_iff_exists.1 h
  obtain ⟨inner, hi, -⟩ := Option.bind_eq_some_iff.1 hn
  exact Option.isSome_iff_exists.2 ⟨inner, hi⟩

/-- No name means anything in a scope that is not known. -/
theorem answer_of_not_contains (h : c.contains p = false) : c.answer p parts = none := by
  have hq : ∀ s, c.at? (p ++ s) = none := by
    intro s
    cases hs : c.at? (p ++ s) with
    | none => rfl
    | some inner =>
      rw [contains_of_append (s := s) (Option.isSome_iff_exists.2 ⟨inner, hs⟩)] at h
      cases h
  unfold answer
  dsimp only
  split
  · rfl
  · simp [type?, hq]

/-- The parts passed lead to a known scope, and one more does not unless it is the last. -/
theorem exists_passed (hp : c.contains p = true) (hne : parts ≠ []) : ∃ path name rest,
    parts = path ++ name :: rest ∧ path.length = c.passed p parts ∧ c.contains (p ++ path) = true ∧
      (rest ≠ [] → c.contains (p ++ (path ++ [name])) = false) := by
  have hle : c.passed p parts ≤ parts.length - 1 := Nat.findGreatest_le _
  have hpos := List.length_pos_iff.2 hne
  have hlt : c.passed p parts < parts.length := by omega
  refine ⟨parts.take (c.passed p parts), parts[c.passed p parts], parts.drop (c.passed p parts + 1), ?_, ?_, ?_, ?_⟩
  · rw [List.getElem_cons_drop, List.take_append_drop]
  · exact List.length_take_of_le hlt.le
  · exact Nat.findGreatest_spec (P := fun k => c.contains (p ++ parts.take k) = true) (Nat.zero_le _)
      (by simpa using hp)
  · intro hrest
    have hnext : c.passed p parts + 1 ≤ parts.length - 1 := by
      have := List.length_pos_iff.2 hrest
      rw [List.length_drop] at this
      omega
    rw [List.take_concat_get']
    exact Bool.eq_false_iff.2 (Nat.findGreatest_is_greatest (Nat.lt_succ_self _) hnext)

theorem answer_eq {path rest : List String} {name : String} (h : parts = path ++ name :: rest)
    (hlen : path.length = c.passed p parts) :
    c.answer p parts = ((c.type? (p ++ path) name).bind (·.follow rest)).map (·, p ++ path) := by
  unfold answer
  rw [← hlen, h, List.take_left, List.drop_left]

theorem resolveAt_eq_answer (hparts : ∀ part ∈ parts, part ≠ "") (p : Scope) :
    c.resolveAt p parts = c.answer p parts := by
  cases hp : c.at? p with
  | none =>
    rw [answer_of_not_contains (by rw [contains, hp]; rfl), resolveAt, hp]
    rfl
  | some inner =>
    by_cases hne : parts = []
    · subst hne
      simp [resolveAt, answer, hp, resolve]
    obtain ⟨path, name, rest, heq, hlen, hknown, hlast⟩ := exists_passed (by rw [contains, hp]; rfl) hne
    rw [contains_append hp] at hknown
    rw [contains_append hp] at hlast
    have hname : name ≠ "" := hparts name (by simp [heq])
    have hfollow : (fun d : Declaration => d.follow rest) = fun d => d.descend rest :=
      funext fun d => (d.descend_eq_follow rest).symm
    rw [answer_eq heq hlen, resolveAt, hp, Option.bind_some, heq, resolve_message hknown hname hlast,
      type?_append hp, hfollow]
    simp [Function.comp_def]

/-! ## The parts of a name one by one -/

@[simp] theorem resolveAt_nil (p : Scope) : c.resolveAt p [] = none := by
  simp [resolveAt, resolve]

@[simp] theorem resolveAt_root (parts : List String) : c.resolveAt [] parts = c.resolve parts := by
  simp [resolveAt, at?]

theorem resolveAt_of_not_contains (h : c.contains p = false) (parts : List String) : c.resolveAt p parts = none := by
  have hp : c.at? p = none := by simpa [contains] using h
  rw [resolveAt, hp]
  rfl

theorem resolveAt_eq_resolve (hp : c.contains p = true) (hne : parts ≠ []) :
    c.resolveAt p parts = c.resolve (p ++ parts) := by
  obtain ⟨inner, hi⟩ := Option.isSome_iff_exists.1 hp
  rw [resolveAt, hi, Option.bind_some, resolve_append hi hne]

theorem resolveAt_singleton (hp : c.contains p = true) (name : String) :
    c.resolveAt p [name] = if name = "" then none else (c.type? p name).map (·, p) := by
  obtain ⟨inner, hi⟩ := Option.isSome_iff_exists.1 hp
  rw [resolveAt, type?, hi, Option.bind_some, Option.bind_some, resolve]
  split <;> simp [Function.comp_def]

theorem resolveAt_scope {name : String} {rest : List String} (h : c.contains (p ++ [name]) = true)
    (hrest : rest ≠ []) : c.resolveAt p (name :: rest) = c.resolveAt (p ++ [name]) rest := by
  rw [resolveAt_eq_resolve h hrest, resolveAt_eq_resolve (contains_of_append h) (List.cons_ne_nil _ _),
    List.append_cons]

theorem resolveAt_message {name : String} {rest : List String} (hp : c.contains p = true)
    (h : c.contains (p ++ [name]) = false) (hrest : rest ≠ []) :
    c.resolveAt p (name :: rest) = ((c.type? p name).bind (·.descend rest)).map (·, p) := by
  obtain ⟨inner, hi⟩ := Option.isSome_iff_exists.1 hp
  rw [contains_append hi, contains_cons] at h
  have hnone : inner.inner.get? name = none := by simpa using h
  rw [resolveAt, type?, hi, Option.bind_some, Option.bind_some, resolve, hnone]
  · simp [Function.comp_def]
  · exact hrest

/-! ## Scopes from the inside outwards -/

theorem resolveAt_cons (name : String) (p : Scope) (parts : List String) : c.resolveAt (name :: p) parts =
    (c.inner.get? name).bind fun inner => (inner.resolveAt p parts).map fun (d, s) => (d, name :: s) := by
  unfold resolveAt
  rw [at?_cons]
  cases c.inner.get? name with
  | none => rfl
  | some inner => cases inner.at? p <;> simp [Function.comp_def]

theorem resolveOutward_eq_findSome? (parts : List String) (current : Scope) :
    c.resolveOutward parts current = current.inits.reverse.findSome? fun p => c.resolveAt p parts := by
  induction current generalizing c with
  | nil => simp [resolveOutward]
  | cons name current ih =>
    rw [resolveOutward, Option.orElse_eq_orElse, Option.orElse_eq_or, List.inits_cons, List.reverse_cons,
      List.findSome?_append, ← List.map_reverse, List.findSome?_map, List.findSome?_singleton, resolveAt_root]
    refine congrArg (Option.or · (c.resolve parts)) ?_
    simp only [Function.comp_def, resolveAt_cons]
    cases c.inner.get? name with
    | none => exact (List.findSome?_eq_none_iff.2 fun _ _ => rfl).symm
    | some inner => simp [ih, List.map_findSome?, Function.comp_def]

theorem resolveOutward_concat (parts : List String) (current : Scope) (name : String) :
    c.resolveOutward parts (current ++ [name]) =
      (c.resolveAt (current ++ [name]) parts).or (c.resolveOutward parts current) := by
  have hinits : (current ++ [name]).inits.reverse = (current ++ [name]) :: current.inits.reverse := by
    simp [List.inits_append]
  rw [resolveOutward_eq_findSome?, resolveOutward_eq_findSome?, hinits, List.findSome?_cons]
  cases c.resolveAt (current ++ [name]) parts <;> rfl

theorem lookup_relative {current : Scope} {typeName : String} (h : ∀ absolute, typeName.toList ≠ '.' :: absolute) :
    c.lookup current typeName = c.resolveOutward (segments typeName) current := by
  rw [lookup]
  split
  · exact absurd ‹_› (h _)
  · rfl

/-- A type name refers to what the scoping rule says: with a leading dot, to the answer of the outermost
scope, whatever the current scope is; and without one to the answer of the nearest scope that has one,
among the current scope and those around it. -/
theorem lookup_eq_nearest_answer (c : Catalog) (current : Scope) (name : String)
    (hparts : ∀ part ∈ segments name, part ≠ "") :
    c.lookup current ("." ++ name) = c.answer [] (segments name) ∧
    c.lookup current name = current.inits.reverse.findSome? fun p => c.answer p (segments name) := by
  have hanswer : (fun p => c.answer p (segments name)) = fun p => c.resolveAt p (segments name) :=
    funext fun p => (resolveAt_eq_answer hparts p).symm
  constructor
  · have habsolute : ("." ++ name).toList = '.' :: name.toList := by simp
    rw [lookup, habsolute, ← resolveAt_eq_answer hparts, resolveAt_root]
    simp
  · rw [hanswer, ← resolveOutward_eq_findSome?]
    refine lookup_relative fun rest hrest => ?_
    -- A leading dot would leave an empty part in front.
    refine absurd rfl (hparts "" ?_)
    simp [segments, hrest, List.splitOn_cons_eq_if_modifyHead]

/-- A message of a version that refers to a message nested in one of the package around it. -/
def versioned : Catalog := .ofFilings
  [("shop", ⟨[0], "Order", [], [⟨"Line", [], [], [], false, none⟩], [], false, none⟩),
    ("shop.v1", ⟨[1], "Item", [], [], [], false, none⟩)]

theorem lookup_eq_nearest_answer_outside : ∃ found, (∀ part ∈ segments "Order.Line", part ≠ "") ∧
    versioned.answer ["shop", "v1"] ["Order", "Line"] = none ∧
    versioned.answer ["shop"] ["Order", "Line"] = some found ∧
    versioned.lookup ["shop", "v1"] "Order.Line" = some found := by
  have hsegments : segments "Order.Line" = ["Order", "Line"] := by decide
  have hparts : ∀ part ∈ segments "Order.Line", part ≠ "" := by decide
  have hinner : versioned.answer ["shop", "v1"] ["Order", "Line"] = none := by decide
  have houter : (versioned.answer ["shop"] ["Order", "Line"]).isSome = true := by decide
  obtain ⟨found, hfound⟩ := Option.isSome_iff_exists.1 houter
  have h := (lookup_eq_nearest_answer versioned ["shop", "v1"] "Order.Line" hparts).2
  refine ⟨found, hparts, hinner, hfound, ?_⟩
  rw [h, hsegments]
  simp [hinner, hfound]

end Catalog
end ProtoSchema
