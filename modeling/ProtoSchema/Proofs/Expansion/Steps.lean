import Mathlib.Data.List.Dedup
import Mathlib.Data.List.Perm.Subperm
import Mathlib.Logic.Function.Iterate
import ProtoSchema.Proofs.Expansion.Basic
import ProtoSchema.Schema.Conversion
/-!
# The conversion step by step

A machine that follows one field at a step and keeps the messages being entered
on a stack of its own, so that nothing bounds its run but the messages
themselves. `stack_step` says all that a step can do to the stack. By it no
message stands on the stack twice and the stack stays within the messages of the
catalog, and every run ends with what the conversion answers
(`conversion_terminates`).
-/

namespace ProtoSchema

/-- A message that is being entered, with the fields already followed, last first, and the others. -/
structure Frame where
  scope : Scope
  owner : Declaration
  done : List (Field × Content)
  rest : List Field

namespace Frame

/-- A message no field of which has been followed. -/
def fresh (scope : Scope) (d : Declaration) (fields : List Field) : Frame := ⟨scope, d, [], fields⟩

def add (fr : Frame) (f : Field) (x : Content) : Frame := { fr with done := (f, x) :: fr.done }

/-- The fields already followed, in order and before some others. -/
def expansion (fr : Frame) (others : Expansion) : Expansion :=
  fr.done.foldl (fun x e => .field e.1 e.2 x) others

end Frame

/-- Either a message is being entered, from messages of which each has a field that led on, or the
run is over. -/
inductive State where
  | entering (top : Frame) (callers : List (Frame × Field))
  | finished (result : Except ConversionError Expansion)

namespace State

def start (scope : Scope) (d : Declaration) (fields : List Field) : State :=
  .entering (.fresh scope d fields) []

/-- The places of the messages being entered, the last one first. -/
def stack : State → List Place
  | entering top callers => top.owner.place :: callers.map (·.1.owner.place)
  | finished _ => []

/-- The fields of the last message are complete, and the one before it goes on. -/
def leave (scope : Scope) (owner : Declaration) (x : Expansion) : List (Frame × Field) → State
  | [] => .finished (.ok x)
  | (caller, f) :: callers => .entering (caller.add f (.record owner scope x)) callers

/-- Follows one field, or leaves a message that has none left. -/
def step (c : Catalog) : State → State
  | .finished r => .finished r
  | .entering ⟨scope, owner, done, []⟩ callers =>
    leave scope owner (Frame.expansion ⟨scope, owner, done, []⟩ .done) callers
  | .entering ⟨scope, owner, done, f :: rest⟩ callers =>
    match f.kind.role with
    | .value kind => .entering (.add ⟨scope, owner, done, rest⟩ f (.value kind)) callers
    | .choice => .entering (.add ⟨scope, owner, done, rest⟩ f .choice) callers
    | .none => .finished (.error (.unrecognizedKind f.name owner.message.name f.kind))
    | .record =>
      match c.lookup scope f.typeName with
      | none => .finished (.error (.unresolvedReference f.typeName f.name owner.message.name))
      | some (target, inner) =>
        if (owner.place :: callers.map (·.1.owner.place)).contains target.place then
          .finished (.error (.cyclicReference f.typeName f.name owner.message.name))
        else
          .entering (.fresh inner target target.message.fields) ((⟨scope, owner, done, rest⟩, f) :: callers)

end State

open State

/-! ## One step -/

section Step
variable {c : Catalog} {scope : Scope} {owner : Declaration} {done : List (Field × Content)} {f : Field}
  {rest : List Field} {callers : List (Frame × Field)}

theorem step_value {k : Schema.Kind} (h : f.kind.role = .value k) :
    step c (.entering ⟨scope, owner, done, f :: rest⟩ callers) =
      .entering (.add ⟨scope, owner, done, rest⟩ f (.value k)) callers := by
  simp only [step, h]

theorem step_choice (h : f.kind.role = .choice) :
    step c (.entering ⟨scope, owner, done, f :: rest⟩ callers) =
      .entering (.add ⟨scope, owner, done, rest⟩ f .choice) callers := by
  simp only [step, h]

theorem step_none (h : f.kind.role = .none) :
    step c (.entering ⟨scope, owner, done, f :: rest⟩ callers) =
      .finished (.error (.unrecognizedKind f.name owner.message.name f.kind)) := by
  simp only [step, h]

theorem step_unresolved (h : f.kind.role = .record) (hl : c.lookup scope f.typeName = none) :
    step c (.entering ⟨scope, owner, done, f :: rest⟩ callers) =
      .finished (.error (.unresolvedReference f.typeName f.name owner.message.name)) := by
  simp only [step, h, hl]

theorem step_cyclic {target : Declaration} {inner : Scope} (h : f.kind.role = .record)
    (hl : c.lookup scope f.typeName = some (target, inner))
    (hp : target.place ∈ (State.entering ⟨scope, owner, done, f :: rest⟩ callers).stack) :
    step c (.entering ⟨scope, owner, done, f :: rest⟩ callers) =
      .finished (.error (.cyclicReference f.typeName f.name owner.message.name)) := by
  simp only [step, h, hl]
  exact if_pos (List.contains_iff_mem.2 hp)

theorem step_record {target : Declaration} {inner : Scope} (h : f.kind.role = .record)
    (hl : c.lookup scope f.typeName = some (target, inner))
    (hp : target.place ∉ (State.entering ⟨scope, owner, done, f :: rest⟩ callers).stack) :
    step c (.entering ⟨scope, owner, done, f :: rest⟩ callers) =
      .entering (.fresh inner target target.message.fields) ((⟨scope, owner, done, rest⟩, f) :: callers) := by
  simp only [step, h, hl]
  exact if_neg fun h => hp (List.contains_iff_mem.1 h)

end Step

/-! ## The stack -/

/-- The number of messages in a catalog, each counted once wherever it is filed. -/
def Catalog.messageCount (c : Catalog) : Nat := (c.declarations.map Declaration.place).dedup.length

variable {c : Catalog}

/-- A step leaves messages, or it enters a message of the catalog that is not being entered. -/
theorem stack_step (c : Catalog) (s : State) : (step c s).stack <:+ s.stack ∨
    ∃ d ∈ c.declarations, d.place ∉ s.stack ∧ (step c s).stack = d.place :: s.stack := by
  rcases s with ⟨⟨scope, owner, done, _ | ⟨f, rest⟩⟩, callers⟩ | r
  · refine .inl ?_
    cases callers with
    | nil => exact List.nil_suffix
    | cons caller callers => exact List.suffix_cons _ _
  · cases hr : f.kind.role with
    | value k => exact .inl (by rw [step_value hr]; exact List.suffix_refl _)
    | choice => exact .inl (by rw [step_choice hr]; exact List.suffix_refl _)
    | none => exact .inl (by rw [step_none hr]; exact List.nil_suffix)
    | record =>
      cases hl : c.lookup scope f.typeName with
      | none => exact .inl (by rw [step_unresolved hr hl]; exact List.nil_suffix)
      | some found =>
        obtain ⟨target, inner⟩ := found
        by_cases hp : target.place ∈ (State.entering ⟨scope, owner, done, f :: rest⟩ callers).stack
        · exact .inl (by rw [step_cyclic hr hl hp]; exact List.nil_suffix)
        · exact .inr ⟨target, Catalog.lookup_mem hl, hp, by rw [step_record hr hl hp]; rfl⟩
  · exact .inl (List.suffix_refl _)

/-- No message is being entered twice, and each but the outermost is one of the catalog. -/
structure Bounded (c : Catalog) (root : Place) (s : State) : Prop where
  nodup : s.stack.Nodup
  subset : s.stack ⊆ root :: c.declarations.map Declaration.place

theorem Bounded.step {root : Place} {s : State} (h : Bounded c root s) : Bounded c root (step c s) := by
  rcases stack_step c s with hs | ⟨d, hd, hp, hs⟩
  · exact ⟨h.nodup.sublist hs.sublist, List.Subset.trans hs.subset h.subset⟩
  · constructor
    · rw [hs]
      exact List.nodup_cons.2 ⟨hp, h.nodup⟩
    · rw [hs]
      exact List.cons_subset.2 ⟨.tail _ (List.mem_map_of_mem hd), h.subset⟩

theorem bounded_iterate (c : Catalog) (scope : Scope) (d : Declaration) (fields : List Field) (n : Nat) :
    Bounded c d.place ((State.step c)^[n] (.start scope d fields)) := by
  induction n with
  | zero => exact ⟨List.nodup_singleton _, by simp [start, stack, Frame.fresh]⟩
  | succ n ih =>
    rw [Function.iterate_succ_apply']
    exact ih.step

theorem Bounded.length_le {root : Place} {s : State} (h : Bounded c root s) :
    s.stack.length ≤ 1 + c.messageCount := by
  have hsub : s.stack ⊆ root :: (c.declarations.map Declaration.place).dedup := fun x hx => by
    simpa using h.subset hx
  rw [Nat.add_comm]
  exact (h.nodup.subperm hsub).length_le

/-! ## The end of a run -/

/-- Some number of steps leads from one state to another. -/
def Reaches (c : Catalog) (s t : State) : Prop := ∃ n, (State.step c)^[n] s = t

theorem Reaches.refl (s : State) : Reaches c s s := ⟨0, rfl⟩

theorem Reaches.trans {s t u : State} (h : Reaches c s t) (h' : Reaches c t u) : Reaches c s u := by
  obtain ⟨m, rfl⟩ := h
  obtain ⟨n, rfl⟩ := h'
  exact ⟨n + m, Function.iterate_add_apply _ _ _ _⟩

theorem Reaches.single {s t : State} (h : State.step c s = t) : Reaches c s t := ⟨1, h⟩

/-- Where the machine stands when the conversion of the fields left in `top` is through. -/
def State.outcome (top : Frame) (callers : List (Frame × Field)) : Except ConversionError Expansion → State
  | .ok x => leave top.scope top.owner (top.expansion x) callers
  | .error e => .finished (.error e)

section Outcome
variable {path : List Place} {scope : Scope} {owner : Declaration} {done : List (Field × Content)}
  {f : Field} {rest : List Field} {callers : List (Frame × Field)}

/-- After a field that is through, the others are left. -/
theorem outcome_ok {x : Content} (hx : c.content path scope owner.message f = .ok x) :
    outcome ⟨scope, owner, done, f :: rest⟩ callers (c.expand path scope owner.message (f :: rest)) =
      outcome (.add ⟨scope, owner, done, rest⟩ f x) callers (c.expand path scope owner.message rest) := by
  rw [Catalog.expand_cons, hx]
  simp only [Except.bind]
  cases c.expand path scope owner.message rest <;> rfl

/-- After a field that fails, nothing is left. -/
theorem outcome_error {e : ConversionError} (he : c.content path scope owner.message f = .error e) :
    outcome ⟨scope, owner, done, f :: rest⟩ callers (c.expand path scope owner.message (f :: rest)) =
      .finished (.error e) := by
  rw [Catalog.expand_cons, he]
  rfl

end Outcome

/-- The machine does what the conversion does, whatever messages the present one is entered from. -/
theorem reaches_outcome (v : Visit) : ∀ top callers, v.path = (State.entering top callers).stack →
    Reaches c (.entering top callers)
      (outcome top callers (c.expand v.path top.scope top.owner.message top.rest)) := by
  induction v using Catalog.visit_induction c with
  | h v ih =>
    rintro ⟨scope, owner, done, rest⟩ callers hv
    -- The inner induction is on the fields left; what it has done is part of the state.
    induction rest generalizing done with
    | nil => exact .single (by rw [Catalog.expand_nil]; rfl)
    | cons f rest ihrest =>
      have next : ∀ x, Reaches c (.entering (.add ⟨scope, owner, done, rest⟩ f x) callers)
          (outcome (.add ⟨scope, owner, done, rest⟩ f x) callers (c.expand v.path scope owner.message rest)) :=
        fun x => ihrest ((f, x) :: done) hv
      dsimp only
      cases hr : f.kind.role with
      | value k =>
        rw [outcome_ok (Catalog.content_value hr)]
        exact .trans (.single (step_value hr)) (next _)
      | choice =>
        rw [outcome_ok (Catalog.content_choice hr)]
        exact .trans (.single (step_choice hr)) (next _)
      | none =>
        rw [outcome_error (Catalog.content_none hr)]
        exact .single (step_none hr)
      | record =>
        cases hl : c.lookup scope f.typeName with
        | none =>
          rw [outcome_error (Catalog.content_unresolved hr hl)]
          exact .single (step_unresolved hr hl)
        | some found =>
          obtain ⟨target, inner⟩ := found
          by_cases hp : target.place ∈ v.path
          · rw [outcome_error (Catalog.content_cyclic hr hl hp)]
            rw [hv] at hp
            exact .single (step_cyclic hr hl hp)
          · have henter := ih target inner (Catalog.lookup_mem hl) hp
              (.fresh inner target target.message.fields) ((⟨scope, owner, done, rest⟩, f) :: callers)
              (congrArg _ hv)
            have hcontent : c.content v.path scope owner.message f = _ := Catalog.content_record hr hl hp
            rw [hv] at hp
            refine .trans (.single (step_record hr hl hp)) (henter.trans ?_)
            -- The message entered comes to an end, and its outcome is that of the field.
            dsimp only [Frame.fresh, Visit.enter]
            cases hx : c.expand (target.place :: v.path) inner target.message target.message.fields with
            | ok x =>
              rw [hx] at hcontent
              rw [outcome_ok hcontent]
              exact next _
            | error e =>
              rw [hx] at hcontent
              rw [outcome_error hcontent]
              exact .refl _

theorem reaches_finished (c : Catalog) (scope : Scope) (d : Declaration) (fields : List Field) :
    Reaches c (.start scope d fields) (.finished (c.expand [d.place] scope d.message fields)) := by
  have h := reaches_outcome (c := c) ⟨[d.place], scope, d.message⟩ (.fresh scope d fields) [] rfl
  dsimp only [Frame.fresh] at h
  cases hx : c.expand [d.place] scope d.message fields <;> rw [hx] at h <;> exact h

/-- Converting a message or a field comes to an end after finitely many steps, with the answer of the
conversion; and at every step of the run no message is being entered twice, so that besides the first
there are never more of them than the catalog holds. -/
theorem conversion_terminates (c : Catalog) (o : Options) (scope : Scope) (d : Declaration)
    (outer : List Enum) :
    (∃ r, Reaches c (.start scope d d.message.fields) (.finished r) ∧
      Schema.ofMessage c o scope d outer = r.map fun x =>
        .ofProperties o d.message (Schema.Node.ofExpansion o outer d.message x)) ∧
    (∀ f, ∃ r : Except ConversionError Content,
      Reaches c (.start scope d [f]) (.finished (r.map (.field f · .done))) ∧
      Schema.ofField c o scope f d outer = r.map (.ofContent o outer d.message f)) ∧
    ∀ fields n, ((State.step c)^[n] (.start scope d fields)).stack.Nodup ∧
      ((State.step c)^[n] (.start scope d fields)).stack.length ≤ 1 + c.messageCount := by
  refine ⟨⟨_, reaches_finished c scope d _, rfl⟩, fun f => ⟨_, ?_, rfl⟩, fun fields n => ?_⟩
  · have h := reaches_finished c scope d [f]
    rw [Catalog.expand_cons, Catalog.expand_nil] at h
    cases hx : c.content [d.place] scope d.message f <;> rw [hx] at h <;> exact h
  · have h := bounded_iterate c scope d fields n
    exact ⟨h.nodup, h.length_le⟩

end ProtoSchema
