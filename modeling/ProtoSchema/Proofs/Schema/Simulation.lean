import ProtoSchema.Proofs.Expansion.FirstFault
import ProtoSchema.Proofs.Schema.Inlining
/-!
# Messages followed side by side

Two catalogs may hold the same messages at other places. A relation between their
messages is a simulation when related messages are the same but for their places, and
each reference of the first leads to a message related to the one that it leads to in the
second. What can be followed in the first catalog can then be followed in the second
and makes the same schema (`Simulation.schemaAt`). With a simulation the other
way as well, the walks that end in a fault are the same, so that errors agree too
(`Simulation.schemaAt_eq`).
-/

namespace ProtoSchema

open Schema Schema.Node

/-- References of related messages lead to related messages. Being entered is told by places, so
these have to be alike on both sides. -/
structure Simulation (c c' : Catalog) (R : Site → Site → Prop) : Prop where
  message : ∀ {a a'}, R a a' → a'.message = a.message
  place : ∀ {a a' b b'}, R a a' → R b b' →
    (a'.declaration.place = b'.declaration.place ↔ a.declaration.place = b.declaration.place)
  refers : ∀ {a a' b f}, R a a' → RefersTo c a f b → ∃ b', RefersTo c' a' f b' ∧ R b b'

/-- Related messages are being entered, from messages that are related in turn. -/
inductive Paired (R : Site → Site → Prop) : Visit → Visit → Prop where
  | intro {a a' : Site} {path path' : List Place} (h : R a a')
      (hpath : ∀ b b', R b b' → (b'.declaration.place ∈ path' ↔ b.declaration.place ∈ path)) :
      Paired R ⟨path, a.scope, a.message⟩ ⟨path', a'.scope, a'.message⟩

variable {c c' : Catalog} {R : Site → Site → Prop} {a a' : Site} {v v' w : Visit} {f : Field}
  {e : ConversionError} {o : Options} {outer : List Enum}

theorem Paired.flip (h : Paired R v v') : Paired (flip R) v' v := by
  obtain ⟨ha, hpath⟩ := h
  exact .intro ha fun b b' hb => (hpath b' b hb).symm

/-- What the fields of a message being entered write into its properties. -/
def Visit.writes (c : Catalog) (o : Options) (outer : List Enum) (v : Visit) :
    Except ConversionError (List (String × Node)) :=
  (c.expandVisit v).map (ofExpansion o outer v.owner)

theorem schemaAt_eq_writes : schemaAt c o outer a =
    ((Visit.start a.scope a.declaration).writes c o outer).map (ofProperties o a.message) := by
  unfold schemaAt Visit.writes
  rw [ofMessage_eq]
  cases c.expandVisit (.start a.scope a.declaration) <;> rfl

namespace Simulation

variable (h : Simulation c c' R)
include h

theorem owner (hv : Paired R v v') : v'.owner = v.owner := by
  obtain ⟨ha, -⟩ := hv
  exact h.message ha

theorem start (ha : R a a') :
    Paired R (.start a.scope a.declaration) (.start a'.scope a'.declaration) :=
  .intro ha fun b b' hb => by simp [h.place hb ha]

/-- The two sides enter the next message together. -/
theorem enters (hv : Paired R v v') (hf : f ∈ v.owner.fields) (hw : Enters c v f w) :
    ∃ w', Enters c' v' f w' ∧ Paired R w w' := by
  obtain ⟨ha, hpath⟩ := hv
  cases hw with
  | @intro target inner hk hl hp =>
    obtain ⟨b', hb', hb⟩ := h.refers (b := ⟨inner, target⟩) ha ⟨hf, hk, hl⟩
    refine ⟨_, .intro hk hb'.found fun hp' => hp ((hpath _ _ hb).1 hp'), .intro hb fun d d' hd => ?_⟩
    simp only [List.mem_cons, h.place hd hb, hpath d d' hd]

/-! ## Schemas -/

/-- One step of the next theorem. -/
theorem content {n : Node} (hv : Paired R v v') (hf : f ∈ v.owner.fields)
    (ih : ∀ w w' l, Enters c v f w → Paired R w w' → w.writes c o outer = .ok l → w'.writes c' o outer = .ok l)
    (hn : (c.content v.path v.scope v.owner f).map (ofContent o outer v.owner f) = .ok n) :
    (c'.content v'.path v'.scope v'.owner f).map (ofContent o outer v'.owner f) = .ok n := by
  obtain ⟨x, hx, rfl⟩ := map_eq_ok_iff.1 hn
  rw [h.owner hv]
  obtain ⟨k, hr, rfl⟩ | ⟨hr, rfl⟩ | ⟨target, inner, fields, hr, hl, hp, hfields, rfl⟩ := Catalog.content_cases hx
  · rw [Catalog.content_value hr]
    rfl
  · rw [Catalog.content_choice hr]
    rfl
  · have hk := FieldKind.role_eq_record.1 hr
    have hw : Enters c v f (v.enter target inner) := .intro hk hl hp
    obtain ⟨w', hw', hpair⟩ := h.enters hv hf hw
    have howner := h.owner hpair
    obtain ⟨hk', hl', hp'⟩ := hw'
    -- Both sides write the same properties behind the reference.
    have hwrites := ih _ _ _ hw hpair (map_eq_ok_iff.2 ⟨fields, hfields, rfl⟩)
    obtain ⟨fields', hfields', hsame⟩ := map_eq_ok_iff.1 hwrites
    simp only [Visit.enter] at howner hsame hfields'
    rw [howner] at hsame
    rw [Catalog.content_record hr hl' hp']
    refine map_eq_ok_iff.2 ⟨_, map_eq_ok_iff.2 ⟨fields', hfields', rfl⟩, ?_⟩
    simp only [ofContent, hsame, howner]

theorem writes (v : Visit) : ∀ v' l, Paired R v v' → v.writes c o outer = .ok l →
    v'.writes c' o outer = .ok l := by
  induction v using Catalog.visit_induction c with
  | h v ih =>
    intro v' l hv hl
    obtain ⟨nodes, hfields, hnodes, hwritten⟩ := expand_eq_ok_iff_written.1 (map_eq_ok_iff.1 hl)
    have howner := h.owner hv
    refine map_eq_ok_iff.2 (expand_eq_ok_iff_written.2 ⟨nodes, by rw [hfields, howner], fun e he => ?_, hwritten⟩)
    have hf : e.1 ∈ v.owner.fields := hfields ▸ List.mem_map_of_mem he
    refine h.content hv hf ?_ (hnodes e he)
    rintro w w' l ⟨-, hfound, hp⟩ hw hwl
    exact ih _ _ (Catalog.lookup_mem hfound) hp w' l hw hwl

/-- A message that has a schema on one side has the same on the other. -/
theorem schemaAt {n : Node} (ha : R a a') (hn : schemaAt c o outer a = .ok n) : schemaAt c' o outer a' = .ok n := by
  rw [schemaAt_eq_writes] at hn ⊢
  obtain ⟨l, hl, rfl⟩ := map_eq_ok_iff.1 hn
  exact map_eq_ok_iff.2 ⟨l, h.writes _ _ l (h.start ha) hl, by rw [h.message ha]⟩

/-! ## Errors -/

variable (h' : Simulation c' c (flip R))
include h'

theorem fault (hv : Paired R v v') (hf : f ∈ v.owner.fields) (he : Fault c v f e) : Fault c' v' f e := by
  have howner := h.owner hv
  obtain ⟨ha, hpath⟩ := hv
  cases he with
  | kind hk =>
    rw [← howner]
    exact .kind hk
  | reference hk hl =>
    rw [← howner]
    refine .reference hk (Option.eq_none_iff_forall_ne_some.2 fun ⟨target, inner⟩ hl' => ?_)
    -- What is found on the second side is found on the first.
    obtain ⟨b, hb, -⟩ := h'.refers (b := ⟨inner, target⟩) ha ⟨by rwa [h.message ha], hk, hl'⟩
    cases hl.symm.trans hb.found
  | @cycle target inner hk hl hp =>
    rw [← howner]
    obtain ⟨b', hb', hb⟩ := h.refers (b := ⟨inner, target⟩) ha ⟨hf, hk, hl⟩
    exact .cycle hk hb'.found ((hpath _ _ hb).2 hp)

theorem leadsTo {p : List Nat} (hv : Paired R v v') (hp : LeadsTo c v p e) : LeadsTo c' v' p e := by
  induction hp generalizing v' with
  | here hf he =>
    have hf' := hf
    rw [← h.owner hv] at hf'
    exact .here hf' (h.fault h' hv (List.mem_of_getElem? hf) he)
  | through hf hw _ ih =>
    obtain ⟨w', hw', hpair⟩ := h.enters hv (List.mem_of_getElem? hf) hw
    rw [← h.owner hv] at hf
    exact .through hf hw' (ih hpair)

/-- With simulations both ways a message comes out the same, whether it has a schema or not. -/
theorem schemaAt_eq (ha : R a a') : Schema.schemaAt c' o outer a' = Schema.schemaAt c o outer a := by
  cases hn : Schema.schemaAt c o outer a with
  | ok n => exact h.schemaAt ha hn
  | error e =>
    have hstart := h.start ha
    refine (ofMessage_eq_error _ _ _ _ _).2 (expandVisit_error_iff.2 ?_)
    obtain ⟨p, hp, hleast⟩ := expandVisit_error_iff.1 ((ofMessage_eq_error _ _ _ _ _).1 hn)
    exact ⟨p, h.leadsTo h' hstart hp, fun q e' hq => hleast q e' (h'.leadsTo h hstart.flip hq)⟩

end Simulation
end ProtoSchema
