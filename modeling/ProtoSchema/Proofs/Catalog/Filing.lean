import Mathlib.Data.List.Induction
import ProtoSchema.Catalog.Reach
/-!
# What filing a message changes

A catalog is seen through two questions: which scopes it knows (`contains`) and
which message stands under a name in a scope (`type?`). `type?_insert` and
`contains_insert` say what filing one message does to the answers, and
`type?_ofFilings`, `contains_ofFilings` what any sequence of filings leaves. A
look-up is told by the same answers: `lookup_eq_some` for what it finds, and
`resolve_append` for what it passes on the way.
-/

namespace ProtoSchema.Catalog

/-! ## Going into a scope -/

theorem at?_cons (c : Catalog) (name : String) (s : Scope) :
    c.at? (name :: s) = (c.inner.get? name).bind (·.at? s) := rfl

theorem at?_append (c : Catalog) (s t : Scope) : c.at? (s ++ t) = (c.at? s).bind (·.at? t) := by
  induction s generalizing c with
  | nil => rfl
  | cons name s ih =>
    rw [List.cons_append, at?_cons, at?_cons]
    cases c.inner.get? name with
    | none => rfl
    | some inner => exact ih inner

@[simp] theorem contains_nil (c : Catalog) : c.contains [] = true := rfl

theorem type?_nil (c : Catalog) (name : String) : c.type? [] name = c.types.get? name := rfl

theorem type?_cons (c : Catalog) (n : String) (s : Scope) (name : String) :
    c.type? (n :: s) name = (c.inner.get? n).bind (·.type? s name) := by
  unfold type?
  rw [at?_cons]
  cases c.inner.get? n <;> rfl

theorem contains_cons (c : Catalog) (n : String) (s : Scope) :
    c.contains (n :: s) = (c.inner.get? n).any (·.contains s) := by
  unfold contains
  rw [at?_cons]
  cases c.inner.get? n <;> rfl

theorem type?_of_not_contains {c : Catalog} {s : Scope} (h : c.contains s = false) (name : String) :
    c.type? s name = none := by
  have hs : c.at? s = none := by simpa [contains] using h
  rw [type?, hs]
  rfl

@[simp] theorem type?_empty (s : Scope) (name : String) : empty.type? s name = none := by
  cases s <;> rfl

theorem contains_empty (s : Scope) : empty.contains s = true ↔ s = [] := by
  cases s with
  | nil => simp
  | cons n s => simp [contains_cons, empty]

/-! ## Filing one message -/

theorem type?_insertAt (d : Declaration) (p : Scope) (c : Catalog) (s : Scope) (name : String) :
    (c.insertAt d p).type? s name =
      if s = p ∧ name = d.message.name then some d else c.type? s name := by
  induction p generalizing c s with
  | nil =>
    cases s with
    | nil => simp [type?_nil, insertAt, Dictionary.get?_insert]
    | cons n s => simp [type?_cons, insertAt]
  | cons m p ih =>
    cases s with
    | nil => simp [type?_nil, insertAt]
    | cons n s =>
      rw [type?_cons, type?_cons, insertAt, Dictionary.get?_insert]
      -- Only the scope on the way changes.
      by_cases h : n = m
      · subst h
        rw [if_pos rfl, Option.bind_some, ih]
        cases c.inner.get? n <;> simp
      · simp [h]

theorem contains_insertAt (d : Declaration) (p : Scope) (c : Catalog) (s : Scope) :
    (c.insertAt d p).contains s = true ↔ c.contains s = true ∨ s <+: p := by
  induction p generalizing c s with
  | nil =>
    cases s with
    | nil => simp
    | cons n s => simp [contains_cons, insertAt]
  | cons m p ih =>
    cases s with
    | nil => simp
    | cons n s =>
      rw [contains_cons, contains_cons, insertAt, Dictionary.get?_insert, List.cons_prefix_cons]
      by_cases h : n = m
      · subst h
        rw [if_pos rfl, Option.any_some, ih]
        cases c.inner.get? n with
        | some inner => simp
        | none =>
          -- The scope is made here, and nothing in it was known.
          simp only [Option.getD_none, contains_empty, Option.any_none, Bool.false_eq_true, false_or, true_and]
          exact ⟨fun h => h.elim (fun h => h ▸ List.nil_prefix) id, .inr⟩
      · simp [h]

/-- The message stands in its own place, and every other name keeps what it had. -/
theorem type?_insert (c : Catalog) (package : String) (d : Declaration) (s : Scope) (name : String) :
    (c.insert package d).type? s name =
      if s = .ofPackage package ∧ name = d.message.name then some d else c.type? s name :=
  type?_insertAt d (.ofPackage package) c s name

theorem contains_insert (c : Catalog) (package : String) (d : Declaration) (s : Scope) :
    (c.insert package d).contains s = true ↔ c.contains s = true ∨ s <+: Scope.ofPackage package :=
  contains_insertAt d (.ofPackage package) c s

/-! ## Filing many messages -/

/-- The catalog of messages filed in turn, each under a package. -/
def ofFilings (filings : List (String × Declaration)) : Catalog :=
  filings.foldl (fun c r => c.insert r.1 r.2) empty

theorem ofFilings_append_singleton (l : List (String × Declaration)) (r : String × Declaration) :
    ofFilings (l ++ [r]) = (ofFilings l).insert r.1 r.2 := by
  simp [ofFilings, List.foldl_append]

theorem contains_ofFilings (l : List (String × Declaration)) (s : Scope) :
    (ofFilings l).contains s = true ↔ s = [] ∨ ∃ r ∈ l, s <+: Scope.ofPackage r.1 := by
  induction l using List.reverseRecOn with
  | nil => simp [ofFilings, contains_empty]
  | append_singleton l r ih =>
    rw [ofFilings_append_singleton, contains_insert, ih]
    simp [or_assoc, or_and_right, exists_or]

/-- The last message filed under a name counts. -/
theorem type?_ofFilings (l : List (String × Declaration)) (s : Scope) (name : String) :
    (ofFilings l).type? s name =
      ((l.filter fun r => s = .ofPackage r.1 ∧ name = r.2.message.name).getLast?).map (·.2) := by
  induction l using List.reverseRecOn with
  | nil => simp [ofFilings]
  | append_singleton l r ih =>
    rw [ofFilings_append_singleton, type?_insert, List.filter_append]
    by_cases h : s = .ofPackage r.1 ∧ name = r.2.message.name
    · simp [h]
    · simp [h, ih]

theorem type?_ofFilings_mem {l : List (String × Declaration)} {s : Scope} {name : String}
    {d : Declaration} (h : (ofFilings l).type? s name = some d) :
    ∃ package, (package, d) ∈ l ∧ s = .ofPackage package ∧ name = d.message.name := by
  rw [type?_ofFilings, Option.map_eq_some_iff] at h
  obtain ⟨⟨package, e⟩, hl, rfl⟩ := h
  have hm := List.mem_of_getLast? hl
  rw [List.mem_filter, decide_eq_true_iff] at hm
  exact ⟨package, hm.1, hm.2⟩

/-! ## What a look-up finds -/

theorem resolve_eq_some {c : Catalog} {parts : List String} {d : Declaration} {s : Scope}
    (h : c.resolve parts = some (d, s)) :
    ∃ name rest top, parts = s ++ name :: rest ∧ c.type? s name = some top ∧ top.descend rest = some d := by
  fun_induction resolve c parts generalizing d s with
  | case1 => cases h
  | case2 => cases h
  | case3 c name hn =>
    obtain ⟨e, he, heq⟩ := Option.map_eq_some_iff.1 h
    obtain ⟨rfl, rfl⟩ := Prod.mk.inj heq
    exact ⟨name, [], e, rfl, he, rfl⟩
  | case4 c n rest hr inner hi ih =>
    obtain ⟨⟨e, t⟩, he, heq⟩ := Option.map_eq_some_iff.1 h
    obtain ⟨rfl, rfl⟩ := Prod.mk.inj heq
    obtain ⟨name, names, top, rfl, htop, hd⟩ := ih he
    exact ⟨name, names, top, rfl, by rw [type?_cons, hi]; exact htop, hd⟩
  | case5 c name rest hr hi =>
    obtain ⟨e, he, heq⟩ := Option.map_eq_some_iff.1 h
    obtain ⟨rfl, rfl⟩ := Prod.mk.inj heq
    obtain ⟨top, htop, hd⟩ := Option.bind_eq_some_iff.1 he
    exact ⟨name, rest, top, rfl, htop, hd⟩

theorem resolveOutward_eq_some {parts : List String} {current : Scope} {c : Catalog} {d : Declaration}
    {s : Scope} (h : c.resolveOutward parts current = some (d, s)) :
    ∃ name rest top, c.type? s name = some top ∧ top.descend rest = some d := by
  induction current generalizing c d s with
  | nil =>
    obtain ⟨name, rest, top, -, htop, hd⟩ := resolve_eq_some h
    exact ⟨name, rest, top, htop, hd⟩
  | cons n current ih =>
    rw [resolveOutward, Option.orElse_eq_orElse, Option.orElse_eq_or, Option.or_eq_some_iff] at h
    rcases h with h | ⟨-, h⟩
    · obtain ⟨inner, hi, h⟩ := Option.bind_eq_some_iff.1 h
      obtain ⟨⟨e, t⟩, he, heq⟩ := Option.map_eq_some_iff.1 h
      obtain ⟨rfl, rfl⟩ := Prod.mk.inj heq
      obtain ⟨name, rest, top, htop, hd⟩ := ih he
      exact ⟨name, rest, top, by rw [type?_cons, hi]; exact htop, hd⟩
    · obtain ⟨name, rest, top, -, htop, hd⟩ := resolve_eq_some h
      exact ⟨name, rest, top, htop, hd⟩

/-- Whatever a type name refers to stands in the scope that the look-up answers, or is nested in
a message that does. -/
theorem lookup_eq_some {c : Catalog} {current s : Scope} {typeName : String} {d : Declaration}
    (h : c.lookup current typeName = some (d, s)) :
    ∃ name rest top, c.type? s name = some top ∧ top.descend rest = some d := by
  unfold lookup at h
  split at h
  · obtain ⟨name, rest, top, -, htop, hd⟩ := resolve_eq_some h
    exact ⟨name, rest, top, htop, hd⟩
  · exact resolveOutward_eq_some h

theorem enter_eq_some {c : Catalog} {start s : Scope} {package : String} :
    c.enter start package = some s ↔ c.contains s = true ∧ s = start ++ .ofPackage package := by
  simp only [enter, Option.ite_none_right_eq_some, Option.some.injEq]
  constructor
  · rintro ⟨h, rfl⟩
    exact ⟨h, rfl⟩
  · rintro ⟨h, rfl⟩
    exact ⟨h, rfl⟩

/-- The parts that name known scopes are passed one by one. -/
theorem resolve_append {c inner : Catalog} {s : Scope} {parts : List String} (hs : c.at? s = some inner)
    (hp : parts ≠ []) : c.resolve (s ++ parts) = (inner.resolve parts).map fun (d, t) => (d, s ++ t) := by
  induction s generalizing c with
  | nil =>
    obtain rfl := Option.some.inj hs
    simp
  | cons n s ih =>
    rw [at?_cons, Option.bind_eq_some_iff] at hs
    obtain ⟨next, hn, hs⟩ := hs
    rw [List.cons_append, resolve, hn]
    · simp only [ih hs, Option.map_map]
      rfl
    · simp [hp]

/-- A name that is no scope is a message's, and the parts after it go into that message. -/
theorem resolve_message {c : Catalog} {s : Scope} {name : String} {rest : List String}
    (hs : c.contains s = true) (hname : name ≠ "") (hrest : rest ≠ [] → c.contains (s ++ [name]) = false) :
    c.resolve (s ++ name :: rest) = ((c.type? s name).bind (·.descend rest)).map (·, s) := by
  obtain ⟨inner, hi⟩ := Option.isSome_iff_exists.1 hs
  have hin : inner.resolve (name :: rest) = ((inner.types.get? name).bind (·.descend rest)).map (·, []) := by
    cases rest with
    | nil => simp [resolve, hname, Declaration.descend]
    | cons r rest =>
      have hc := hrest (by simp)
      rw [contains, at?_append, hi, Option.bind_some, at?_cons] at hc
      have hn : inner.inner.get? name = none := by
        cases h : inner.inner.get? name with
        | none => rfl
        | some next => rw [h] at hc; cases hc
      rw [resolve, hn]
      simp
  rw [resolve_append hi (by simp), hin, type?, hi, Option.map_map]
  simp [Function.comp_def]

end ProtoSchema.Catalog
