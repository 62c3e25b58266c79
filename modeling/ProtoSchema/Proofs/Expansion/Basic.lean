import ProtoSchema.Expansion
import ProtoSchema.Proofs.Results
/-!
# Following the fields of a message

One equation for each thing that a field can be (`content_value` to
`content_record`), and how the fields of a message are told from its single
fields (`expand_eq_error_iff`, `expand_isOk_iff`). `visit_induction` is the
induction over all that is entered on the way: a message that is entered anew
leaves fewer to enter, whatever the references between messages look like.
-/

namespace ProtoSchema

namespace FieldKind

theorem role_eq_record {k : FieldKind} : k.role = .record ↔ k = .message ∨ k = .group := by
  cases k <;> simp [role]

theorem role_eq_choice {k : FieldKind} : k.role = .choice ↔ k = .enum := by
  cases k <;> simp [role]

theorem role_eq_none {k : FieldKind} : k.role = .none ↔ ∃ n, k = .unknown n := by
  cases k <;> simp [role]

end FieldKind

/-- A message that is being entered: the places of all such messages, its own first, and the scope
that its references are read in. -/
structure Visit where
  path : List Place
  scope : Scope
  owner : Message

namespace Visit

def start (scope : Scope) (d : Declaration) : Visit := ⟨[d.place], scope, d.message⟩

/-- A message entered from another one. -/
def enter (v : Visit) (target : Declaration) (inner : Scope) : Visit :=
  ⟨target.place :: v.path, inner, target.message⟩

end Visit

namespace Catalog

def expandVisit (c : Catalog) (v : Visit) : Except ConversionError Expansion :=
  c.expand v.path v.scope v.owner v.owner.fields

/-! ## One field -/

section Field
variable {c : Catalog} {path : List Place} {scope : Scope} {owner : Message} {f : Field}

theorem content_value {k : Schema.Kind} (h : f.kind.role = .value k) :
    c.content path scope owner f = .ok (.value k) := by
  rw [content, h]

theorem content_choice (h : f.kind.role = .choice) : c.content path scope owner f = .ok .choice := by
  rw [content, h]

theorem content_none (h : f.kind.role = .none) :
    c.content path scope owner f = .error (.unrecognizedKind f.name owner.name f.kind) := by
  rw [content, h]

theorem content_unresolved (h : f.kind.role = .record) (hl : c.lookup scope f.typeName = none) :
    c.content path scope owner f = .error (.unresolvedReference f.typeName f.name owner.name) := by
  rw [content, h]
  dsimp only
  split <;> simp_all

theorem content_cyclic {target : Declaration} {inner : Scope} (h : f.kind.role = .record)
    (hl : c.lookup scope f.typeName = some (target, inner)) (hp : target.place ∈ path) :
    c.content path scope owner f = .error (.cyclicReference f.typeName f.name owner.name) := by
  rw [content, h]
  dsimp only
  split <;> simp_all

theorem content_record {target : Declaration} {inner : Scope} (h : f.kind.role = .record)
    (hl : c.lookup scope f.typeName = some (target, inner)) (hp : target.place ∉ path) :
    c.content path scope owner f =
      (c.expand (target.place :: path) inner target.message target.message.fields).map
        (.record target inner) := by
  rw [content, h]
  dsimp only
  split <;> simp_all

end Field

/-! ## All fields -/

section Fields
variable {c : Catalog} {path : List Place} {scope : Scope} {owner : Message}

theorem expand_nil : c.expand path scope owner [] = .ok .done := by
  rw [expand]

theorem expand_cons (f : Field) (rest : List Field) :
    c.expand path scope owner (f :: rest) = (c.content path scope owner f).bind fun x =>
      (c.expand path scope owner rest).map (.field f x) := by
  rw [expand]
  cases c.content path scope owner f with
  | error e => rfl
  | ok x => cases c.expand path scope owner rest <;> rfl

theorem expand_isOk_iff {fields : List Field} : (∃ x, c.expand path scope owner fields = .ok x) ↔
    ∀ f ∈ fields, ∃ x, c.content path scope owner f = .ok x := by
  induction fields with
  | nil => simp [expand_nil]
  | cons f rest ih =>
    rw [expand_cons, List.forall_mem_cons, ← ih]
    cases c.content path scope owner f with
    | error e => simp [Except.bind]
    | ok x => cases c.expand path scope owner rest <;> simp [Except.bind, Except.map]

/-- The fields fail as the first of them does that fails at all. -/
theorem expand_eq_error_iff {fields : List Field} {e : ConversionError} :
    c.expand path scope owner fields = .error e ↔ ∃ (i : Nat) (f : Field), fields[i]? = some f ∧
      c.content path scope owner f = .error e ∧
        ∀ j < i, ∀ g, fields[j]? = some g → ∃ x, c.content path scope owner g = .ok x := by
  induction fields with
  | nil => simp [expand_nil]
  | cons f rest ih =>
    rw [expand_cons]
    constructor
    · intro h
      cases hf : c.content path scope owner f with
      | error e' =>
        rw [hf] at h
        exact ⟨0, f, rfl, by rw [hf]; exact congrArg _ (Except.error.inj h), by simp⟩
      | ok x =>
        rw [hf] at h
        cases hr : c.expand path scope owner rest with
        | ok y => rw [hr] at h; cases h
        | error e' =>
          rw [hr] at h
          obtain rfl := Except.error.inj h
          obtain ⟨i, g, hg, he, hbefore⟩ := ih.1 hr
          refine ⟨i + 1, g, hg, he, fun j hj g' hg' => ?_⟩
          cases j with
          | zero => exact ⟨x, by rw [← Option.some.inj hg']; exact hf⟩
          | succ j => exact hbefore j (by omega) g' hg'
    · rintro ⟨i, g, hg, he, hbefore⟩
      cases i with
      | zero =>
        obtain rfl := Option.some.inj hg
        rw [he]
        rfl
      | succ i =>
        obtain ⟨x, hx⟩ := hbefore 0 (by omega) f rfl
        rw [hx, ih.2 ⟨i, g, hg, he, fun j hj => hbefore (j + 1) (by omega)⟩]
        rfl

end Fields

/-! ## Induction over what is entered -/

/-- What holds of a message being entered whenever it holds of all that can be entered from there,
holds of every message being entered. -/
theorem visit_induction {P : Visit → Prop} (c : Catalog) (h : ∀ v, (∀ target inner,
    target ∈ c.declarations → target.place ∉ v.path → P (v.enter target inner)) → P v) (v : Visit) : P v := by
  induction hn : c.unvisited v.path using Nat.strongRecOn generalizing v with
  | _ n ih =>
    refine h v fun target inner ht hp => ih _ ?_ _ rfl
    rw [← hn]
    exact unvisited_lt ht hp

end Catalog
end ProtoSchema
