import ProtoSchema.Catalog.Lookup
/-!
# What a look-up can find

`lookup_mem`: every message that a type name refers to is one of the catalog's
declarations, nested ones included. There are finitely many of those, which is
why following references comes to an end.
-/

namespace ProtoSchema

namespace Declaration

theorem mem_all (d : Declaration) : d ∈ d.all := by
  obtain ⟨place, ⟨_, _, _, _, _, _⟩⟩ := d
  simp [all, Message.declarations]

theorem all_nested (d : Declaration) :
    Message.declarationsFrom d.place 0 d.message.nested ⊆ d.all := by
  obtain ⟨place, ⟨_, _, _, _, _, _⟩⟩ := d
  intro e he
  simpa [all, Message.declarations] using .inr he

theorem all_subset_of_findIn {place : Place} {name : String} {d : Declaration} :
    ∀ {ms : List Message} {i : Nat}, findIn place i name ms = some d →
      d.all ⊆ Message.declarationsFrom place i ms
  | [], _, h => by simp [findIn] at h
  | m :: rest, i, h => by
    simp only [findIn] at h
    intro e he
    simp only [Message.declarationsFrom, List.mem_append]
    split at h
    · obtain rfl := Option.some.inj h
      exact .inl he
    · exact .inr (all_subset_of_findIn h he)

theorem all_subset_of_nested? {d e : Declaration} {name : String} (h : d.nested? name = some e) :
    e.all ⊆ d.all :=
  fun _ hx => all_nested d (all_subset_of_findIn h hx)

theorem all_subset_of_descend {names : List String} : ∀ {d e : Declaration},
    d.descend names = some e → e.all ⊆ d.all := by
  induction names with
  | nil => intro d e h; simp [descend] at h; subst h; exact fun _ h => h
  | cons name rest ih =>
    intro d e h
    simp only [descend, List.foldlM_cons, Option.bind_eq_bind, Option.bind_eq_some_iff] at h
    obtain ⟨f, hf, he⟩ := h
    exact fun _ hx => all_subset_of_nested? hf (ih he hx)

end Declaration

namespace Dictionary

theorem mem_entries_of_get? {α : Type} {d : Dictionary α} {key : String} {value : α}
    (h : d.get? key = some value) : (key, value) ∈ d.entries := by
  obtain ⟨l⟩ := d
  simp only [get?] at h ⊢
  induction l with
  | nil => simp at h
  | cons e rest ih =>
    obtain ⟨k, v⟩ := e
    rw [List.lookup_cons] at h
    split at h
    · simp_all
    · simp [ih h]

theorem mem_values_of_get? {α : Type} {d : Dictionary α} {key : String} {value : α}
    (h : d.get? key = some value) : value ∈ d.values :=
  List.mem_map_of_mem (mem_entries_of_get? h)

end Dictionary

namespace Catalog

theorem all_subset_of_types {c : Catalog} {name : String} {d : Declaration}
    (h : c.types.get? name = some d) : d.all ⊆ c.declarations := by
  obtain ⟨types, ⟨inner⟩⟩ := c
  intro e he
  simp only [declarations, List.mem_append, List.mem_flatMap]
  exact .inl ⟨d, List.mem_map.2 ⟨_, Dictionary.mem_entries_of_get? h, rfl⟩, he⟩

theorem declarations_subset_of_mem {name : String} {c : Catalog} :
    ∀ {l : List (String × Catalog)}, (name, c) ∈ l → c.declarations ⊆ declarationsIn l
  | (_, _) :: rest, h => by
    intro e he
    simp only [declarationsIn, List.mem_append]
    rcases List.mem_cons.1 h with heq | hrest
    · obtain ⟨-, rfl⟩ := Prod.mk.inj heq
      exact .inl he
    · exact .inr (declarations_subset_of_mem hrest he)

theorem declarations_subset_of_inner {c scope : Catalog} {name : String}
    (h : c.inner.get? name = some scope) : scope.declarations ⊆ c.declarations := by
  obtain ⟨types, ⟨inner⟩⟩ := c
  intro e he
  simp only [declarations, List.mem_append]
  exact .inr (declarations_subset_of_mem (Dictionary.mem_entries_of_get? h) he)

theorem resolve_mem {c : Catalog} {parts : List String} {d : Declaration} {s : Scope}
    (h : c.resolve parts = some (d, s)) : d ∈ c.declarations := by
  fun_induction resolve c parts generalizing d s with
  | case1 => cases h
  | case2 => cases h
  | case3 c name hn =>
    obtain ⟨e, he, heq⟩ := Option.map_eq_some_iff.1 h
    obtain ⟨rfl, -⟩ := Prod.mk.inj heq
    exact all_subset_of_types he e.mem_all
  | case4 c name rest hr scope hs ih =>
    obtain ⟨⟨e, t⟩, he, heq⟩ := Option.map_eq_some_iff.1 h
    obtain ⟨rfl, -⟩ := Prod.mk.inj heq
    exact declarations_subset_of_inner hs (ih he)
  | case5 c name rest hr hs =>
    obtain ⟨e, he, heq⟩ := Option.map_eq_some_iff.1 h
    obtain ⟨rfl, -⟩ := Prod.mk.inj heq
    obtain ⟨t, ht, hd⟩ := Option.bind_eq_some_iff.1 he
    exact all_subset_of_types ht (Declaration.all_subset_of_descend hd e.mem_all)

theorem resolveOutward_mem {parts : List String} {current : Scope} : ∀ {c : Catalog}
    {d : Declaration} {s : Scope}, c.resolveOutward parts current = some (d, s) →
      d ∈ c.declarations := by
  induction current with
  | nil => exact resolve_mem
  | cons name rest ih =>
    intro c d s h
    rw [resolveOutward, Option.orElse_eq_orElse, Option.orElse_eq_or, Option.or_eq_some_iff] at h
    rcases h with hi | ⟨-, ho⟩
    · obtain ⟨scope, hs, hi⟩ := Option.bind_eq_some_iff.1 hi
      obtain ⟨⟨e, t⟩, he, heq⟩ := Option.map_eq_some_iff.1 hi
      obtain ⟨rfl, -⟩ := Prod.mk.inj heq
      exact declarations_subset_of_inner hs (ih he)
    · exact resolve_mem ho

theorem lookup_mem {c : Catalog} {current found : Scope} {typeName : String} {d : Declaration}
    (h : c.lookup current typeName = some (d, found)) : d ∈ c.declarations := by
  unfold lookup at h
  split at h
  · exact resolve_mem h
  · exact resolveOutward_mem h

/-- The declarations at places not on `path`, counted. -/
def unvisited (c : Catalog) (path : List Place) : Nat :=
  (c.declarations.filter fun d => d.place ∉ path).length

theorem length_filter_lt {α : Type} {p q : α → Bool} {l : List α} {a : α} (ha : a ∈ l)
    (hp : p a = true) (hq : q a = false) (h : ∀ x, q x = true → p x = true) :
    (l.filter q).length < (l.filter p).length := by
  have hle : ∀ l : List α, (l.filter q).length ≤ (l.filter p).length := fun l => by
    rw [← List.countP_eq_length_filter, ← List.countP_eq_length_filter]
    exact List.countP_mono_left fun x _ => h x
  obtain ⟨s, t, rfl⟩ := List.append_of_mem ha
  have h1 := hle s
  have h2 := hle t
  simp only [List.filter_append, List.filter_cons, hp, hq, List.length_append, if_true,
    List.length_cons, Bool.false_eq_true, if_false]
  omega

/-- Each message entered for the first time leaves fewer to enter. -/
theorem unvisited_lt {c : Catalog} {path : List Place} {d : Declaration}
    (hd : d ∈ c.declarations) (hp : d.place ∉ path) :
    c.unvisited (d.place :: path) < c.unvisited path :=
  length_filter_lt hd (by simpa using hp) (by simp) (by simp)

end Catalog
end ProtoSchema
