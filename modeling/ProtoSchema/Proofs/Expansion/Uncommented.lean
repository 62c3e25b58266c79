import ProtoSchema.Proofs.Catalog.Correspondence
import ProtoSchema.Proofs.Catalog.FileSet
import ProtoSchema.Proofs.Expansion.Basic
/-!
# Declarations without their comments

`bare` takes all comments off a declaration and those inside it. Nothing that tells messages apart or
follows references looks at comments: a set of files and the same set without comments have catalogs that
answer with the same messages (`uncomments_bare`), so whatever is followed in one is followed in the
other, to the same error if there is one (`expandMessage_bare`).
-/

namespace ProtoSchema

def EnumValue.bare (v : EnumValue) : EnumValue := { v with comments := none }

def Enum.bare (e : Enum) : Enum := { e with values := e.values.map EnumValue.bare, comments := none }

def Field.bare (f : Field) : Field := { f with comments := none }

namespace Message

mutual

def bare : Message → Message
  | ⟨name, fields, nested, enums, mapEntry, _⟩ =>
    ⟨name, fields.map Field.bare, bareAll nested, enums.map Enum.bare, mapEntry, none⟩

def bareAll : List Message → List Message
  | [] => []
  | m :: rest => m.bare :: bareAll rest

end

theorem bareAll_eq (ms : List Message) : bareAll ms = ms.map bare := by
  induction ms with
  | nil => rw [bareAll]; rfl
  | cons m ms ih => rw [bareAll, ih]; rfl

variable (m : Message)

@[simp] theorem bare_name : m.bare.name = m.name := by
  cases m; rw [bare]

@[simp] theorem bare_fields : m.bare.fields = m.fields.map Field.bare := by
  cases m; rw [bare]

@[simp] theorem bare_nested : m.bare.nested = m.nested.map bare := by
  cases m; rw [bare, bareAll_eq]

@[simp] theorem bare_enums : m.bare.enums = m.enums.map Enum.bare := by
  cases m; rw [bare]

@[simp] theorem bare_mapEntry : m.bare.mapEntry = m.mapEntry := by
  cases m; rw [bare]

end Message

def File.bare (f : File) : File :=
  { f with messages := f.messages.map Message.bare, enums := f.enums.map Enum.bare }

/-- The same place, and the message there without comments. -/
def Declaration.bare (d : Declaration) : Declaration := ⟨d.place, d.message.bare⟩

mutual

def Expansion.bare : Expansion → Expansion
  | .done => .done
  | .field f content rest => .field f.bare content.bare rest.bare

def Content.bare : Content → Content
  | .value kind => .value kind
  | .choice => .choice
  | .record target scope fields => .record target.bare scope fields.bare

end

/-! ## Catalogs of bare files -/

variable {c c' : Catalog} {files : List File}

/-- The second catalog holds the messages of the first without their comments. -/
abbrev Uncomments (c c' : Catalog) : Prop := Corresponds (fun d d' => d' = d.bare) c c'

theorem findIn_bare (place : Place) (name : String) (ms : List Message) (i : Nat) :
    Declaration.findIn place i name (ms.map Message.bare) =
      (Declaration.findIn place i name ms).map Declaration.bare := by
  induction ms generalizing i with
  | nil => rfl
  | cons m ms ih =>
    simp only [List.map_cons, Declaration.findIn, Message.bare_name]
    split
    · rfl
    · exact ih (i + 1)

theorem declarations_bare (f : File) (i : Nat) :
    f.bare.declarations i = (f.declarations i).map Declaration.bare := by
  refine List.ext_getElem? fun j => ?_
  simp [File.declarations, File.bare, Declaration.bare, Function.comp_def]

theorem filings_bare (files : List File) :
    filings (files.map File.bare) = (filings files).map fun r => (r.1, r.2.bare) := by
  simp only [filings, List.zipIdx_map, List.flatMap_map, List.map_flatMap, Prod.map_fst, Prod.map_snd, id,
    declarations_bare, List.map_map]
  rfl

/-- The catalog of bare files has the messages of the other one, each at its place. -/
theorem uncomments_bare (files : List File) : Uncomments (.ofFiles files) (.ofFiles (files.map File.bare)) where
  known s := by
    rw [Bool.eq_iff_iff, ofFiles_eq_ofFilings, ofFiles_eq_ofFilings, Catalog.contains_ofFilings,
      Catalog.contains_ofFilings, filings_bare]
    simp
  types s name := by
    have heq : (Catalog.ofFiles (files.map File.bare)).type? s name =
        ((Catalog.ofFiles files).type? s name).map Declaration.bare := by
      simp only [ofFiles_eq_ofFilings, Catalog.type?_ofFilings, filings_bare, List.filter_map,
        List.getLast?_map, Option.map_map, Function.comp_def, Declaration.bare, Message.bare_name]
    rw [heq]
    exact rel_map_self _ _
  nested d d' h name := by
    subst h
    simp only [Declaration.nested?, Declaration.bare, Message.bare_nested, findIn_bare]
    exact rel_map_self _ _

/-! ## What is followed -/

theorem Uncomments.lookup_eq (h : Uncomments c c') (current : Scope) (typeName : String) :
    c'.lookup current typeName = (c.lookup current typeName).map fun (d, s) => (d.bare, s) := by
  have hrel := h.lookup current typeName
  generalize c.lookup current typeName = found, c'.lookup current typeName = found' at hrel
  cases hrel with
  | none => rfl
  | some h => exact congrArg some (Prod.ext h.1 h.2)

/-- One step of the next theorem. -/
theorem content_bare (h : Uncomments c c') (path : List Place) (scope : Scope) (owner : Message) (f : Field)
    (ih : ∀ target inner, target ∈ c.declarations → target.place ∉ path →
      c'.expand (target.place :: path) inner target.message.bare target.message.bare.fields =
        (c.expand (target.place :: path) inner target.message target.message.fields).map Expansion.bare) :
    c'.content path scope owner.bare f.bare = (c.content path scope owner f).map Content.bare := by
  have hrole : f.bare.kind.role = f.kind.role := rfl
  have hlookup : c'.lookup scope f.bare.typeName = _ := h.lookup_eq scope f.typeName
  cases hr : f.kind.role with
  | value kind =>
    rw [Catalog.content_value hr, Catalog.content_value (hrole.trans hr)]
    rfl
  | choice =>
    rw [Catalog.content_choice hr, Catalog.content_choice (hrole.trans hr)]
    rfl
  | none =>
    rw [Catalog.content_none hr, Catalog.content_none (hrole.trans hr), Message.bare_name]
    rfl
  | record =>
    cases hl : c.lookup scope f.typeName with
    | none =>
      rw [hl] at hlookup
      rw [Catalog.content_unresolved hr hl, Catalog.content_unresolved (hrole.trans hr) hlookup, Message.bare_name]
      rfl
    | some found =>
      obtain ⟨target, inner⟩ := found
      rw [hl] at hlookup
      by_cases hp : target.place ∈ path
      · rw [Catalog.content_cyclic hr hl hp, Catalog.content_cyclic (hrole.trans hr) hlookup hp, Message.bare_name]
        rfl
      · rw [Catalog.content_record hr hl hp, Catalog.content_record (hrole.trans hr) hlookup hp]
        have hfields := ih target inner (Catalog.lookup_mem hl) hp
        simp only [Declaration.bare] at hfields ⊢
        rw [hfields]
        cases c.expand (target.place :: path) inner target.message target.message.fields <;> rfl

/-- What is followed in the first catalog is followed in the second as well, without comments. -/
theorem expandVisit_bare (h : Uncomments c c') (v : Visit) :
    c'.expandVisit ⟨v.path, v.scope, v.owner.bare⟩ = (c.expandVisit v).map Expansion.bare := by
  induction v using Catalog.visit_induction c with
  | h v ih =>
    unfold Catalog.expandVisit
    rw [Message.bare_fields]
    generalize v.owner.fields = fields
    -- What is entered from a field is covered by the outer induction, the fields after it by this one.
    induction fields with
    | nil =>
      rw [List.map_nil, Catalog.expand_nil, Catalog.expand_nil]
      rfl
    | cons f rest ihrest =>
      have hf := content_bare h v.path v.scope v.owner f fun target inner ht hp => ih target inner ht hp
      rw [List.map_cons, Catalog.expand_cons, Catalog.expand_cons, hf, ihrest]
      cases c.content v.path v.scope v.owner f with
      | error e => rfl
      | ok x => cases c.expand v.path v.scope v.owner rest <;> rfl

/-- A message is followed alike with comments and without, to the same error if there is one. -/
theorem expandMessage_bare (h : Uncomments c c') (scope : Scope) (d : Declaration) :
    c'.expandMessage scope d.bare = (c.expandMessage scope d).map Expansion.bare :=
  expandVisit_bare h (.start scope d)

end ProtoSchema
