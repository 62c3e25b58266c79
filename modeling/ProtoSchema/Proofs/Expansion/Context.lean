import Mathlib.Logic.Relation
import ProtoSchema.Proofs.Expansion.Basic
/-!
# Following a message on its own

The messages being entered can only make the walk through a message fail: what
is followed with some of them is followed with fewer of them, and comes out the
same (`expandVisit_of_subset`). So a message that a field
refers to has behind it what it has when it is entered first.

`Site` is a message with its scope, `RefersTo` a field that leads from one to
another. There is no endless chain of references below a message that can be
followed, which gives an induction over what it holds (`site_induction`).
-/

namespace ProtoSchema

namespace Catalog

variable {c : Catalog} {path path' : List Place} {scope : Scope} {owner : Message} {f : Field}

/-- All that can be behind a field. -/
theorem content_cases {x : Content} (h : c.content path scope owner f = .ok x) :
    (∃ k, f.kind.role = .value k ∧ x = .value k) ∨ (f.kind.role = .choice ∧ x = .choice) ∨
    ∃ target inner fields, f.kind.role = .record ∧ c.lookup scope f.typeName = some (target, inner) ∧
      target.place ∉ path ∧
      c.expand (target.place :: path) inner target.message target.message.fields = .ok fields ∧
      x = .record target inner fields := by
  cases hr : f.kind.role with
  | value k =>
    rw [content_value hr] at h
    exact .inl ⟨k, rfl, (Except.ok.inj h).symm⟩
  | choice =>
    rw [content_choice hr] at h
    exact .inr (.inl ⟨rfl, (Except.ok.inj h).symm⟩)
  | none => rw [content_none hr] at h; cases h
  | record =>
    cases hl : c.lookup scope f.typeName with
    | none => rw [content_unresolved hr hl] at h; cases h
    | some found =>
      obtain ⟨target, inner⟩ := found
      by_cases hp : target.place ∈ path
      · rw [content_cyclic hr hl hp] at h; cases h
      · rw [content_record hr hl hp, map_eq_ok_iff] at h
        obtain ⟨fields, hx, rfl⟩ := h
        exact .inr (.inr ⟨target, inner, fields, rfl, rfl, hp, hx, rfl⟩)

theorem exists_content_record {target : Declaration} {inner : Scope} (hr : f.kind.role = .record)
    (hl : c.lookup scope f.typeName = some (target, inner)) (hp : target.place ∉ path)
    (h : ∃ x, c.expand (target.place :: path) inner target.message target.message.fields = .ok x) :
    ∃ x, c.content path scope owner f = .ok x := by
  obtain ⟨x, hx⟩ := h
  exact ⟨_, by rw [content_record hr hl hp, hx]; rfl⟩

theorem exists_expand_singleton (h : ∃ y, c.content path scope owner f = .ok y) :
    ∃ x, c.expand path scope owner [f] = .ok x :=
  expand_isOk_iff.2 (List.forall_mem_singleton.2 h)

/-- Fields that are followed alike one by one are followed alike together. -/
theorem expand_mono {fields : List Field} {x : Expansion}
    (hf : ∀ f ∈ fields, ∀ y, c.content path scope owner f = .ok y → c.content path' scope owner f = .ok y)
    (h : c.expand path scope owner fields = .ok x) : c.expand path' scope owner fields = .ok x := by
  induction fields generalizing x with
  | nil => rwa [expand_nil] at h ⊢
  | cons f rest ih =>
    rw [expand_cons, bind_eq_ok_iff] at h ⊢
    obtain ⟨y, hy, h⟩ := h
    obtain ⟨others, hrest, h⟩ := map_eq_ok_iff.1 h
    refine ⟨y, hf f (.head _) y hy, map_eq_ok_iff.2 ⟨others, ?_, h⟩⟩
    exact ih (fun g hg => hf g (.tail _ hg)) hrest

/-- One step of the next theorem: a field is followed with fewer messages being entered if the
messages behind it are. -/
theorem content_mono {x : Content} (hs : path' ⊆ path)
    (ih : ∀ target inner y, target ∈ c.declarations → target.place ∉ path →
      c.expand (target.place :: path) inner target.message target.message.fields = .ok y →
        c.expand (target.place :: path') inner target.message target.message.fields = .ok y)
    (h : c.content path scope owner f = .ok x) : c.content path' scope owner f = .ok x := by
  obtain ⟨k, hr, rfl⟩ | ⟨hr, rfl⟩ | ⟨target, inner, fields, hr, hl, hp, hx, rfl⟩ := content_cases h
  · exact content_value hr
  · exact content_choice hr
  · rw [content_record hr hl fun hp' => hp (hs hp'), ih target inner fields (lookup_mem hl) hp hx]
    rfl

/-- A message that is followed while others are being entered is followed in the same way when fewer
of them are. -/
theorem expandVisit_of_subset (v : Visit) : ∀ path' ⊆ v.path, ∀ x, c.expandVisit v = .ok x →
    c.expandVisit { v with path := path' } = .ok x := by
  induction v using visit_induction c with
  | h v ih =>
    intro path' hs x hx
    refine expand_mono (fun f _ y hy => content_mono hs ?_ hy) hx
    intro target inner z ht hp hz
    exact ih target inner ht hp _ (List.cons_subset_cons _ hs) z hz

end Catalog

/-! ## References between messages -/

/-- A message and the scope that its references are read in. -/
structure Site where
  scope : Scope
  declaration : Declaration

def Site.message (a : Site) : Message := a.declaration.message

/-- The field `f` of the message at `a` refers to the message at `b`. -/
structure RefersTo (c : Catalog) (a : Site) (f : Field) (b : Site) : Prop where
  mem : f ∈ a.message.fields
  kind : f.kind = .message ∨ f.kind = .group
  found : c.lookup a.scope f.typeName = some (b.declaration, b.scope)

/-- The message at `a` holds the one at `b`, by one of its fields. -/
def Inlines (c : Catalog) (a b : Site) : Prop := ∃ f, RefersTo c a f b

variable {c : Catalog} {a b : Site} {f : Field}

theorem RefersTo.unique {b' : Site} (h : RefersTo c a f b) (h' : RefersTo c a f b') : b = b' := by
  obtain ⟨scope, d⟩ := b
  obtain ⟨scope', d'⟩ := b'
  obtain ⟨rfl, rfl⟩ := Prod.mk.inj (Option.some.inj (h.found.symm.trans h'.found))
  rfl

/-- What holds of a message whenever it holds of all messages that its fields refer to, holds of
every message that can be followed. -/
theorem site_induction {P : Site → Prop} (step : ∀ a, (∀ b, Inlines c a b → P b) → P a) {a : Site}
    (h : ∃ x, c.expandMessage a.scope a.declaration = .ok x) : P a := by
  suffices hv : ∀ v : Visit, ∀ a : Site, v.scope = a.scope → v.owner = a.message →
      (∃ x, c.expandVisit v = .ok x) → P a from hv (.start a.scope a.declaration) a rfl rfl h
  intro v
  induction v using Catalog.visit_induction c with
  | h v ih =>
    rintro a hscope howner hx
    refine step a ?_
    rintro b ⟨f, hmem, hk, hl⟩
    rw [← howner] at hmem
    rw [← hscope] at hl
    obtain ⟨y, hy⟩ := Catalog.expand_isOk_iff.1 hx f hmem
    have hr := FieldKind.role_eq_record.2 hk
    obtain ⟨k, hr', -⟩ | ⟨hr', -⟩ | ⟨target, inner, fields, -, hl', hp, hfields, -⟩ :=
      Catalog.content_cases hy
    · simp [hr] at hr'
    · simp [hr] at hr'
    · obtain ⟨rfl, rfl⟩ := Prod.mk.inj (Option.some.inj (hl'.symm.trans hl))
      exact ih _ _ (Catalog.lookup_mem hl) hp b rfl rfl ⟨fields, hfields⟩

end ProtoSchema
