import Mathlib.Data.Option.Defs
import ProtoSchema.Proofs.Catalog.Scoping
/-!
# Catalogs that answer alike

A look-up reads a catalog by the scopes that it knows and the messages declared in
them. So where two catalogs know the same scopes and have corresponding messages
there, a type name refers in both, from every scope, to corresponding messages found in
one scope, or to nothing (`Corresponds.lookup`).
-/

namespace ProtoSchema

section Results
variable {α β γ δ : Type} {R : α → β → Prop} {S : γ → δ → Prop}

theorem rel_bind {a : Option α} {b : Option β} {f : α → Option γ} {g : β → Option δ} (h : Option.Rel R a b)
    (hfg : ∀ x y, R x y → Option.Rel S (f x) (g y)) : Option.Rel S (a.bind f) (b.bind g) := by
  cases h with
  | none => exact .none
  | some h => exact hfg _ _ h

theorem rel_map {a : Option α} {b : Option β} {f : α → γ} {g : β → δ} (h : Option.Rel R a b)
    (hfg : ∀ x y, R x y → S (f x) (g y)) : Option.Rel S (a.map f) (b.map g) := by
  cases h with
  | none => exact .none
  | some h => exact .some (hfg _ _ h)

theorem rel_map_self (f : α → β) (a : Option α) : Option.Rel (fun x y => y = f x) a (a.map f) := by
  cases a with
  | none => exact .none
  | some a => exact .some rfl

theorem rel_findSome? {f : γ → Option α} {g : γ → Option β} (h : ∀ x, Option.Rel R (f x) (g x)) (l : List γ) :
    Option.Rel R (l.findSome? f) (l.findSome? g) := by
  induction l with
  | nil => exact .none
  | cons x l ih =>
    rw [List.findSome?_cons, List.findSome?_cons]
    have hx := h x
    cases hf : f x <;> cases hg : g x <;> rw [hf, hg] at hx
    · exact ih
    · cases hx
    · cases hx
    · exact hx

theorem exists_of_rel_some {a : Option α} {b : Option β} {x : α} (h : Option.Rel R a b) (ha : a = some x) :
    ∃ y, b = some y ∧ R x y := by
  cases h with
  | none => cases ha
  | some h =>
    obtain rfl := Option.some.inj ha
    exact ⟨_, rfl, h⟩

end Results

/-- Two catalogs know the same scopes and have corresponding messages under each name in them, and of
corresponding messages the nested ones correspond by their names. -/
structure Corresponds (R : Declaration → Declaration → Prop) (c c' : Catalog) : Prop where
  known : ∀ s, c'.contains s = c.contains s
  types : ∀ s name, Option.Rel R (c.type? s name) (c'.type? s name)
  nested : ∀ d d', R d d' → ∀ name, Option.Rel R (d.nested? name) (d'.nested? name)

/-- Corresponding messages found in one scope. -/
def FoundAlike (R : Declaration → Declaration → Prop) (a b : Declaration × Scope) : Prop :=
  R a.1 b.1 ∧ b.2 = a.2

namespace Corresponds

variable {R : Declaration → Declaration → Prop} {c c' : Catalog} {d d' : Declaration}

theorem descend (h : Corresponds R c c') (hd : R d d') (names : List String) :
    Option.Rel R (d.descend names) (d'.descend names) := by
  induction names generalizing d d' with
  | nil => exact .some hd
  | cons name names ih =>
    simp only [Declaration.descend, List.foldlM_cons]
    exact rel_bind (h.nested d d' hd name) fun x y hxy => ih hxy

theorem found (h : Corresponds R c c') (p : Scope) (name : String) (rest : List String) :
    Option.Rel (FoundAlike R) (((c.type? p name).bind (·.descend rest)).map (·, p))
      (((c'.type? p name).bind (·.descend rest)).map (·, p)) :=
  rel_map (rel_bind (h.types p name) fun _ _ hd => h.descend hd rest) fun _ _ hd => ⟨hd, rfl⟩

theorem resolveAt (h : Corresponds R c c') (p : Scope) (parts : List String) :
    Option.Rel (FoundAlike R) (c.resolveAt p parts) (c'.resolveAt p parts) := by
  induction parts generalizing p with
  | nil =>
    rw [Catalog.resolveAt_nil, Catalog.resolveAt_nil]
    exact .none
  | cons name rest ih =>
    have hknown := h.known p
    cases hp : c.contains p with
    | false =>
      rw [Catalog.resolveAt_of_not_contains hp, Catalog.resolveAt_of_not_contains (hknown.trans hp)]
      exact .none
    | true =>
      rw [hp] at hknown
      by_cases hrest : rest = []
      · subst hrest
        rw [Catalog.resolveAt_singleton hp, Catalog.resolveAt_singleton hknown]
        split
        · exact .none
        · exact rel_map (h.types p name) fun _ _ hd => ⟨hd, rfl⟩
      · -- Both catalogs go into the scope of this name, or both look for a message.
        have hinner := h.known (p ++ [name])
        cases hin : c.contains (p ++ [name]) with
        | true =>
          rw [hin] at hinner
          rw [Catalog.resolveAt_scope hin hrest, Catalog.resolveAt_scope hinner hrest]
          exact ih _
        | false =>
          rw [hin] at hinner
          rw [Catalog.resolveAt_message hp hin hrest, Catalog.resolveAt_message hknown hinner hrest]
          exact h.found p name rest

/-- A type name refers to corresponding messages, whatever the current scope is. -/
theorem lookup (h : Corresponds R c c') (current : Scope) (typeName : String) :
    Option.Rel (FoundAlike R) (c.lookup current typeName) (c'.lookup current typeName) := by
  by_cases hdot : ∃ absolute, typeName.toList = '.' :: absolute
  · obtain ⟨absolute, habsolute⟩ := hdot
    have hroot := h.resolveAt [] (segments (String.ofList absolute))
    rw [Catalog.resolveAt_root, Catalog.resolveAt_root] at hroot
    rw [Catalog.lookup, Catalog.lookup, habsolute]
    exact hroot
  · rw [not_exists] at hdot
    rw [Catalog.lookup_relative hdot, Catalog.lookup_relative hdot, Catalog.resolveOutward_eq_findSome?,
      Catalog.resolveOutward_eq_findSome?]
    exact rel_findSome? (fun p => h.resolveAt p _) _

end Corresponds
end ProtoSchema
