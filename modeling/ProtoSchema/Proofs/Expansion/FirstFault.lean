import Mathlib.Data.List.Lex
import ProtoSchema.Proofs.Expansion.Basic
import ProtoSchema.Schema.Conversion
/-!
# The field that an error is about

A message has no schema when a walk through its fields, in order and into each
message that a field refers to, meets a field at fault. `ofMessage_error_iff_first_fault`:
the error is the one of the first such field, and there is a schema exactly when
there is no such field.
-/

namespace ProtoSchema

/-- A field at fault in a message being entered: its kind is none, its reference leads nowhere, or
its reference leads back to a message that is being entered. -/
inductive Fault (c : Catalog) (v : Visit) (f : Field) : ConversionError → Prop where
  | kind {number : Int32} (hk : f.kind = .unknown number) :
      Fault c v f (.unrecognizedKind f.name v.owner.name f.kind)
  | reference (hk : f.kind = .message ∨ f.kind = .group) (hl : c.lookup v.scope f.typeName = none) :
      Fault c v f (.unresolvedReference f.typeName f.name v.owner.name)
  | cycle {target : Declaration} {inner : Scope} (hk : f.kind = .message ∨ f.kind = .group)
      (hl : c.lookup v.scope f.typeName = some (target, inner)) (hp : target.place ∈ v.path) :
      Fault c v f (.cyclicReference f.typeName f.name v.owner.name)

/-- A field of a message being entered refers to a message that is not. -/
inductive Enters (c : Catalog) (v : Visit) (f : Field) : Visit → Prop where
  | intro {target : Declaration} {inner : Scope} (hk : f.kind = .message ∨ f.kind = .group)
      (hl : c.lookup v.scope f.typeName = some (target, inner)) (hp : target.place ∉ v.path) :
      Enters c v f (v.enter target inner)

/-- Positions of fields, each but the last in the message that the one before it refers to, that
end in a field at fault. -/
inductive LeadsTo (c : Catalog) : Visit → List Nat → ConversionError → Prop where
  | here {v : Visit} {i : Nat} {f : Field} {e : ConversionError} (hf : v.owner.fields[i]? = some f)
      (h : Fault c v f e) : LeadsTo c v [i] e
  | through {v w : Visit} {i : Nat} {f : Field} {p : List Nat} {e : ConversionError}
      (hf : v.owner.fields[i]? = some f) (hw : Enters c v f w) (h : LeadsTo c w p e) :
      LeadsTo c v (i :: p) e

variable {c : Catalog} {v w : Visit} {f : Field} {e : ConversionError}

theorem Enters.unique {w' : Visit} (h : Enters c v f w) (h' : Enters c v f w') : w = w' := by
  obtain ⟨-, hl, -⟩ := h
  obtain ⟨-, hl', -⟩ := h'
  obtain ⟨rfl, rfl⟩ := Prod.mk.inj (Option.some.inj (hl.symm.trans hl'))
  rfl

theorem Fault.not_enters (h : Fault c v f e) : ¬ Enters c v f w := by
  rintro ⟨hk, hl, hp⟩
  cases h with
  | kind hk' => simp [hk'] at hk
  | reference _ hl' => simp [hl] at hl'
  | cycle _ hl' hp' =>
    obtain ⟨rfl, -⟩ := Prod.mk.inj (Option.some.inj (hl.symm.trans hl'))
    exact hp hp'

/-- A field fails by a fault of its own or by one behind its reference. -/
theorem content_eq_error_iff : c.content v.path v.scope v.owner f = .error e ↔
    Fault c v f e ∨ ∃ w, Enters c v f w ∧ c.expandVisit w = .error e := by
  constructor
  · intro h
    cases hr : f.kind.role with
    | value k => rw [Catalog.content_value hr] at h; cases h
    | choice => rw [Catalog.content_choice hr] at h; cases h
    | none =>
      rw [Catalog.content_none hr] at h
      obtain ⟨n, hn⟩ := FieldKind.role_eq_none.1 hr
      exact .inl (Except.error.inj h ▸ .kind hn)
    | record =>
      have hk := FieldKind.role_eq_record.1 hr
      cases hl : c.lookup v.scope f.typeName with
      | none =>
        rw [Catalog.content_unresolved hr hl] at h
        exact .inl (Except.error.inj h ▸ .reference hk hl)
      | some found =>
        obtain ⟨target, inner⟩ := found
        by_cases hp : target.place ∈ v.path
        · rw [Catalog.content_cyclic hr hl hp] at h
          exact .inl (Except.error.inj h ▸ .cycle hk hl hp)
        · rw [Catalog.content_record hr hl hp] at h
          refine .inr ⟨_, .intro hk hl hp, ?_⟩
          unfold Catalog.expandVisit Visit.enter
          cases hx : c.expand (target.place :: v.path) inner target.message target.message.fields with
          | ok x => rw [hx] at h; cases h
          | error e' => rw [hx] at h; exact congrArg _ (Except.error.inj h)
  · rintro (h | ⟨w, ⟨hk, hl, hp⟩, h⟩)
    · cases h with
      | kind hk => exact Catalog.content_none (FieldKind.role_eq_none.2 ⟨_, hk⟩)
      | reference hk hl => exact Catalog.content_unresolved (FieldKind.role_eq_record.2 hk) hl
      | cycle hk hl hp => exact Catalog.content_cyclic (FieldKind.role_eq_record.2 hk) hl hp
    · rw [Catalog.content_record (FieldKind.role_eq_record.2 hk) hl hp]
      exact congrArg (Except.map _) h

theorem exists_error_of_content {i : Nat} (hf : v.owner.fields[i]? = some f)
    (he : c.content v.path v.scope v.owner f = .error e) : ∃ e', c.expandVisit v = .error e' := by
  cases hx : c.expandVisit v with
  | error e' => exact ⟨e', rfl⟩
  | ok x =>
    obtain ⟨y, hy⟩ := Catalog.expand_isOk_iff.1 ⟨x, hx⟩ f (List.mem_of_getElem? hf)
    rw [he] at hy
    cases hy

namespace LeadsTo

/-- A fault anywhere makes the whole message fail. -/
theorem exists_error {p : List Nat} (h : LeadsTo c v p e) : ∃ e', c.expandVisit v = .error e' := by
  induction h with
  | here hf h => exact exists_error_of_content hf (content_eq_error_iff.2 (.inl h))
  | through hf hw _ ih =>
    obtain ⟨e', he⟩ := ih
    exact exists_error_of_content hf (content_eq_error_iff.2 (.inr ⟨_, hw, he⟩))

theorem content_error {i : Nat} {p : List Nat} (h : LeadsTo c v (i :: p) e) :
    ∃ f, v.owner.fields[i]? = some f ∧ ∃ e', c.content v.path v.scope v.owner f = .error e' := by
  cases h with
  | here hf h => exact ⟨_, hf, _, content_eq_error_iff.2 (.inl h)⟩
  | through hf hw h =>
    obtain ⟨e', he⟩ := h.exists_error
    exact ⟨_, hf, e', content_eq_error_iff.2 (.inr ⟨_, hw, he⟩)⟩

/-- The positions determine the error. -/
theorem error_unique {p : List Nat} {e' : ConversionError} (h : LeadsTo c v p e)
    (h' : LeadsTo c v p e') : e = e' := by
  induction h with
  | here hf h =>
    cases h' with
    | here hf' h' =>
      obtain rfl := Option.some.inj (hf.symm.trans hf')
      exact Except.error.inj ((content_eq_error_iff.2 (.inl h)).symm.trans (content_eq_error_iff.2 (.inl h')))
    | through _ _ h' => cases h'
  | through hf hw h ih =>
    cases h' with
    | here => cases h
    | through hf' hw' h' =>
      obtain rfl := Option.some.inj (hf.symm.trans hf')
      exact ih (hw.unique hw' ▸ h')

end LeadsTo

/-- A message that fails does so by the first fault on the walk through its fields. -/
theorem exists_first_fault (h : c.expandVisit v = .error e) :
    ∃ p, LeadsTo c v p e ∧ ∀ q e', LeadsTo c v q e' → q = p ∨ List.Lex (· < ·) p q := by
  induction v using Catalog.visit_induction c with
  | h v ih =>
    obtain ⟨i, f, hf, he, hbefore⟩ := Catalog.expand_eq_error_iff.1 h
    -- The fields before `i` have a content, so no walk through them ends in a fault.
    have hfirst : ∀ {j q e'}, LeadsTo c v (j :: q) e' → i ≤ j := by
      intro j q e' hq
      obtain ⟨g, hg, e'', he''⟩ := hq.content_error
      refine Nat.le_of_not_lt fun hj => ?_
      obtain ⟨x, hx⟩ := hbefore j hj g hg
      rw [he''] at hx
      cases hx
    rcases content_eq_error_iff.1 he with hfault | ⟨w, hw, hwe⟩
    · refine ⟨[i], .here hf hfault, fun q e' hq => ?_⟩
      cases q with
      | nil => cases hq
      | cons j q =>
        rcases Nat.lt_or_eq_of_le (hfirst hq) with hj | rfl
        · exact .inr (.rel hj)
        · cases q with
          | nil => exact .inl rfl
          | cons k q => exact .inr (.cons .nil)
    · have ⟨p, hp, hleast⟩ : ∃ p, LeadsTo c w p e ∧
          ∀ q e', LeadsTo c w q e' → q = p ∨ List.Lex (· < ·) p q := by
        obtain ⟨hk, hl, hp⟩ := hw
        exact ih _ _ (Catalog.lookup_mem hl) hp hwe
      refine ⟨i :: p, .through hf hw hp, fun q e' hq => ?_⟩
      cases q with
      | nil => cases hq
      | cons j q =>
        rcases Nat.lt_or_eq_of_le (hfirst hq) with hj | rfl
        · exact .inr (.rel hj)
        · cases hq with
          | here hg hq =>
            obtain rfl := Option.some.inj (hf.symm.trans hg)
            exact absurd hw hq.not_enters
          | through hg hw' hq =>
            obtain rfl := Option.some.inj (hf.symm.trans hg)
            rcases hleast q e' (hw.unique hw' ▸ hq) with rfl | hlt
            · exact .inl rfl
            · exact .inr (.cons hlt)

theorem expandVisit_error_iff : c.expandVisit v = .error e ↔
    ∃ p, LeadsTo c v p e ∧ ∀ q e', LeadsTo c v q e' → q = p ∨ List.Lex (· < ·) p q := by
  constructor
  · exact exists_first_fault
  · rintro ⟨p, hp, hleast⟩
    obtain ⟨e', he⟩ := hp.exists_error
    obtain ⟨q, hq, hqleast⟩ := exists_first_fault he
    obtain rfl : p = q := by
      rcases hleast q e' hq with rfl | hpq
      · rfl
      · rcases hqleast p e hp with rfl | hqp
        · rfl
        · exact absurd hqp (asymm hpq)
    rw [he, hp.error_unique hq]

theorem expandVisit_isOk_iff : (∃ x, c.expandVisit v = .ok x) ↔ ∀ p e, ¬ LeadsTo c v p e := by
  constructor
  · rintro ⟨x, hx⟩ p e hp
    obtain ⟨e', he⟩ := hp.exists_error
    rw [hx] at he
    cases he
  · intro h
    cases hx : c.expandVisit v with
    | ok x => exact ⟨x, rfl⟩
    | error e =>
      obtain ⟨p, hp, -⟩ := exists_first_fault hx
      exact absurd hp (h p e)

/-! ## The schema of a message -/

section Schema
variable (c : Catalog) (o : Options) (scope : Scope) (d : Declaration) (outer : List Enum)

theorem ofMessage_eq : Schema.ofMessage c o scope d outer = (c.expandVisit (.start scope d)).map fun fields =>
    .ofProperties o d.message (Schema.Node.ofExpansion o outer d.message fields) := rfl

theorem ofMessage_eq_error {e : ConversionError} :
    Schema.ofMessage c o scope d outer = .error e ↔ c.expandVisit (.start scope d) = .error e := by
  rw [ofMessage_eq]
  cases c.expandVisit (.start scope d) <;> simp [Except.map]

theorem ofMessage_eq_ok : (∃ node, Schema.ofMessage c o scope d outer = .ok node) ↔
    ∀ p e, ¬ LeadsTo c (.start scope d) p e := by
  rw [ofMessage_eq, ← expandVisit_isOk_iff]
  cases c.expandVisit (.start scope d) <;> simp [Except.map]

/-- A message has no schema exactly when a walk through its fields leads to a fault, and the error is
that of the first such walk in the order of the positions of the fields. -/
theorem ofMessage_error_iff_first_fault :
    (∀ e, Schema.ofMessage c o scope d outer = .error e ↔ ∃ p, LeadsTo c (.start scope d) p e ∧
      ∀ q e', LeadsTo c (.start scope d) q e' → q = p ∨ List.Lex (· < ·) p q) ∧
    ((∃ node, Schema.ofMessage c o scope d outer = .ok node) ↔ ¬ ∃ p e, LeadsTo c (.start scope d) p e) := by
  constructor
  · intro e
    rw [ofMessage_eq_error, expandVisit_error_iff]
  · rw [ofMessage_eq_ok]
    simp only [not_exists]

end Schema
end ProtoSchema
