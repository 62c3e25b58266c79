import ProtoSchema.Schema.Node
/-!
# All nodes of a tree at once

`everywhere f` puts `f n` in the place of each node `n` of a tree, at every depth and from
the leaves up, so that `f` finds the parts of a node changed already (`everywhere_eq`). What
holds of a node as soon as it holds of its properties and items holds of all nodes
(`induction`).
-/

namespace ProtoSchema.Schema.Node

/-- The node with other properties and items. -/
def withParts (n : Node) (properties : Dictionary Node) (items : Option Node) : Node :=
  { n with properties, items }

mutual

def everywhere (f : Node → Node) : Node → Node
  | ⟨type, a, ⟨properties⟩, items, additionalProperties, enumValues, optionLabels, order⟩ =>
    f ⟨type, a, ⟨everywhereIn f properties⟩, everywhereItems f items, additionalProperties, enumValues,
      optionLabels, order⟩

def everywhereIn (f : Node → Node) : List (String × Node) → List (String × Node)
  | [] => []
  | (name, n) :: rest => (name, n.everywhere f) :: everywhereIn f rest

def everywhereItems (f : Node → Node) : Option Node → Option Node
  | none => none
  | some n => some (n.everywhere f)

end

variable (f : Node → Node)

theorem everywhereIn_eq (l : List (String × Node)) :
    everywhereIn f l = l.map fun e => (e.1, e.2.everywhere f) := by
  induction l with
  | nil => rw [everywhereIn]; rfl
  | cons e l ih => obtain ⟨name, n⟩ := e; rw [everywhereIn, ih]; rfl

theorem everywhereIn_append (l l' : List (String × Node)) :
    everywhereIn f (l ++ l') = everywhereIn f l ++ everywhereIn f l' := by
  simp only [everywhereIn_eq, List.map_append]

theorem everywhereIn_names (names : List String) (n : Node) :
    everywhereIn f (names.map (·, n)) = names.map (·, n.everywhere f) := by
  simp only [everywhereIn_eq, List.map_map, Function.comp_def]

theorem map_everywhere_ofList (l : List (String × Node)) :
    (Dictionary.ofList l).map (everywhere f) = .ofList (everywhereIn f l) := by
  rw [everywhereIn_eq, Dictionary.ofList_map]

theorem everywhereItems_eq (items : Option Node) : everywhereItems f items = items.map (everywhere f) := by
  cases items <;> rw [everywhereItems] <;> rfl

theorem everywhere_eq (n : Node) : n.everywhere f =
    f (n.withParts (n.properties.map (everywhere f)) (n.items.map (everywhere f))) := by
  obtain ⟨type, a, ⟨properties⟩, items, additionalProperties, enumValues, optionLabels, order⟩ := n
  rw [everywhere, everywhereIn_eq, everywhereItems_eq]
  rfl

theorem induction {P : Node → Prop} (step : ∀ n : Node, (∀ p ∈ n.properties.values, P p) →
    (∀ item, n.items = some item → P item) → P n) (n : Node) : P n := by
  refine Node.rec (motive_1 := P) (motive_2 := fun d => ∀ p ∈ d.values, P p)
    (motive_3 := fun items => ∀ item, items = some item → P item)
    (motive_4 := fun l => ∀ p ∈ l.map Prod.snd, P p) (motive_5 := fun e => P e.2)
    ?node ?dictionary ?none ?some ?nil ?cons ?entry n
  case node => exact fun _ _ _ _ _ _ _ _ hproperties hitems => step _ hproperties hitems
  case dictionary => exact fun _ h => h
  case none => intro item h; cases h
  case some => exact fun _ h item hi => Option.some.inj hi ▸ h
  case nil => exact fun p hp => absurd hp List.not_mem_nil
  case cons => exact fun _ _ he hl => List.forall_mem_cons.2 ⟨he, hl⟩
  case entry => exact fun _ _ h => h

end ProtoSchema.Schema.Node
