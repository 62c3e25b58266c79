import Mathlib.Data.List.Nodup
import ProtoSchema.Proofs.Schema.Inlining
/-!
# The names that properties stand under

A field writes its node under its own name and, where both are asked for, under
its JSON name before that; a later field overwrites what an earlier one wrote. So
the node of a field stands under the name of that field unless a field declared
after it has this name as its JSON name, and then the node of such a field stands
there (`property_under_name`).
-/

namespace ProtoSchema

open Schema Schema.Node

variable {m : Message} {o : Options} {f g : Field} {key : String}

theorem Schema.Node.mem_fieldNames : key ∈ fieldNames o f ↔
    key = f.name ∨ (o.protoAndJsonFieldnames = true ∧ key = f.jsonName) := by
  unfold fieldNames
  by_cases h : o.protoAndJsonFieldnames = true
  · by_cases hj : f.jsonName = f.name
    · simp [h, hj]
    · simp [h, hj, or_comm]
  · simp [h]

namespace Message

/-- A field declared after `f` has the name of `f` as its JSON name and stands there too. -/
def Shadowed (m : Message) (o : Options) (f : Field) : Prop :=
  o.protoAndJsonFieldnames = true ∧
    ∃ before after, m.fields = before ++ f :: after ∧ ∃ g ∈ after, g.jsonName = f.name

/-- The last field to write a key, and no field after it writes there. -/
theorem fieldUnder?_eq_some_iff : m.fieldUnder? o key = some f ↔ key ∈ fieldNames o f ∧
    ∃ before after, m.fields = before ++ f :: after ∧ ∀ g ∈ after, key ∉ fieldNames o g := by
  rw [fieldUnder?, List.find?_eq_some_iff_append]
  constructor
  · rintro ⟨hf, before, after, hl, hb⟩
    refine ⟨by simpa using hf, after.reverse, before.reverse, ?_, fun g hg => ?_⟩
    · simpa using congrArg List.reverse hl
    · simpa using hb g (List.mem_reverse.1 hg)
  · rintro ⟨hf, before, after, hl, ha⟩
    refine ⟨by simpa using hf, after.reverse, before.reverse, by simp [hl], fun g hg => ?_⟩
    simpa using ha g (List.mem_reverse.1 hg)

theorem exists_fieldUnder? (hf : f ∈ m.fields) (hk : key ∈ fieldNames o f) :
    ∃ g, m.fieldUnder? o key = some g := by
  refine Option.isSome_iff_exists.1 (List.find?_isSome.2 ⟨f, List.mem_reverse.2 hf, ?_⟩)
  simpa using hk

/-- Fields are told apart by their names. -/
theorem eq_of_name_eq (hn : (m.fields.map Field.name).Nodup) (hf : f ∈ m.fields) (hg : g ∈ m.fields)
    (h : g.name = f.name) : g = f :=
  List.inj_on_of_nodup_map hn hg hf h

theorem fieldUnder?_name (hn : (m.fields.map Field.name).Nodup) (hf : f ∈ m.fields)
    (hs : ¬ m.Shadowed o f) : m.fieldUnder? o f.name = some f := by
  obtain ⟨g, hg⟩ := exists_fieldUnder? hf (mem_fieldNames.2 (.inl rfl) : f.name ∈ fieldNames o f)
  obtain ⟨hname, before, after, hl, ha⟩ := fieldUnder?_eq_some_iff.1 hg
  rcases mem_fieldNames.1 hname with hname | ⟨ho, hjson⟩
  · rw [hg, eq_of_name_eq hn hf (mem_of_fieldUnder? hg) hname.symm]
  · -- Another field would stand here only if it were declared after `f`.
    rw [hl] at hf
    rcases List.mem_append.1 hf with hb | hf
    · obtain ⟨first, between, rfl⟩ := List.append_of_mem hb
      exact absurd ⟨ho, first, between ++ g :: after, by simp [hl], g, by simp, hjson.symm⟩ hs
    · rcases List.mem_cons.1 hf with rfl | hf
      · exact hg
      · exact absurd (mem_fieldNames.2 (.inl rfl)) (ha f hf)

/-- Under the name of a field that is shadowed, another field stands. -/
theorem exists_fieldUnder?_of_shadowed (hn : (m.fields.map Field.name).Nodup) (hs : m.Shadowed o f) :
    ∃ g, m.fieldUnder? o f.name = some g ∧ g.jsonName = f.name ∧ g.name ≠ f.name := by
  obtain ⟨ho, before, after, hl, x, hx, hjson⟩ := hs
  obtain ⟨g, hg⟩ : ∃ g, after.reverse.find? (fun g => (fieldNames o g).contains f.name) = some g := by
    refine Option.isSome_iff_exists.1 (List.find?_isSome.2 ⟨x, List.mem_reverse.2 hx, ?_⟩)
    simpa using mem_fieldNames.2 (.inr ⟨ho, hjson.symm⟩)
  have hmem : g ∈ after := List.mem_reverse.1 (List.mem_of_find?_eq_some hg)
  have hne : g.name ≠ f.name := by
    intro h
    rw [hl, List.map_append, List.map_cons] at hn
    exact (List.nodup_cons.1 (List.nodup_append'.1 hn).2.1).1 (List.mem_map.2 ⟨g, hmem, h⟩)
  have hkey : f.name ∈ fieldNames o g := by simpa using List.find?_some hg
  refine ⟨g, by simp only [fieldUnder?, hl, List.reverse_append, List.reverse_cons, List.append_assoc,
    List.find?_append, hg, Option.some_or], ?_, hne⟩
  rcases mem_fieldNames.1 hkey with h | h
  · exact absurd h.symm hne
  · exact h.2.symm

end Message

namespace Schema

variable {c : Catalog} {scope : Scope} {d : Declaration} {outer : List Enum} {n : Node}

/-- In the schema of a message whose fields have different names, the node of each field stands under
the name of that field, unless the field is shadowed: then it is the node of another field, one with
that JSON name. There are no keys but the names of fields and, where both are asked for, their JSON
names. -/
theorem property_under_name (h : ofMessage c o scope d outer = .ok n)
    (hn : (d.message.fields.map Field.name).Nodup) :
    (∀ f ∈ d.message.fields, ¬ d.message.Shadowed o f → ∃ fn, ofField c o scope f d outer = .ok fn ∧
      n.properties.get? f.name = some (fn.asProperty f)) ∧
    (∀ f ∈ d.message.fields, d.message.Shadowed o f → ∃ g ∈ d.message.fields, ∃ gn,
      g.jsonName = f.name ∧ g.name ≠ f.name ∧ ofField c o scope g d outer = .ok gn ∧
      n.properties.get? f.name = some (gn.asProperty g)) ∧
    ∀ key, (n.properties.get? key).isSome = true ↔ ∃ f ∈ d.message.fields,
      key = f.name ∨ (o.protoAndJsonFieldnames = true ∧ key = f.jsonName) := by
  have hschema : schemaAt c o outer ⟨scope, d⟩ = .ok n := h
  refine ⟨fun f hf hs => ?_, fun f hf hs => ?_, fun key => ?_⟩
  · obtain ⟨fn, hfn⟩ := exists_fieldAt hschema hf
    exact ⟨fn, hfn, (get?_properties_iff hschema _).2 ⟨f, fn, Message.fieldUnder?_name hn hf hs, hfn, rfl⟩⟩
  · obtain ⟨g, hg, hjson, hne⟩ := Message.exists_fieldUnder?_of_shadowed hn hs
    have hmem := Message.mem_of_fieldUnder? hg
    obtain ⟨gn, hgn⟩ := exists_fieldAt hschema hmem
    exact ⟨g, hmem, gn, hjson, hne, hgn, (get?_properties_iff hschema _).2 ⟨g, gn, hg, hgn, rfl⟩⟩
  · rw [Option.isSome_iff_exists]
    constructor
    · rintro ⟨p, hp⟩
      obtain ⟨f, -, hf, -, -⟩ := (get?_properties_iff hschema key).1 hp
      exact ⟨f, Message.mem_of_fieldUnder? hf, mem_fieldNames.1 (Message.fieldUnder?_eq_some_iff.1 hf).1⟩
    · rintro ⟨f, hf, hkey⟩
      obtain ⟨g, hg⟩ := Message.exists_fieldUnder? hf (mem_fieldNames.2 hkey)
      obtain ⟨gn, hgn⟩ := exists_fieldAt hschema (Message.mem_of_fieldUnder? hg)
      exact ⟨_, (get?_properties_iff hschema key).2 ⟨g, gn, hg, hgn, rfl⟩⟩

/-! ## A flight from one place, with the time of its start -/

def departure : Field := ⟨"from", "origin", 1, .string, .optional, "", none⟩

def start : Field := ⟨"start", "from", 2, .int64, .optional, "", none⟩

def flight (fields : List Field) : Declaration := ⟨[0], "Flight", fields, [], [], false, none⟩

def bothNames : Options := { protoAndJsonFieldnames := true }

theorem fieldAt_value {a : Site} {kind : Kind} (h : f.kind.role = .value kind) : fieldAt c o outer a f =
    .ok (if f.isRepeated then arrayOf o (plain kind) else plain kind) :=
  map_eq_ok_iff.2 ⟨.value kind, Catalog.content_value h, by simp only [ofContent]⟩

theorem fieldAt_departure (a : Site) : fieldAt c o outer a departure = .ok (plain .string) := fieldAt_value rfl

theorem fieldAt_start (a : Site) : fieldAt c o outer a start = .ok (plain .integer) := fieldAt_value rfl

/-- The start is declared first, and the place stands under its name. -/
theorem property_under_name_flight : ∃ n, ofMessage .empty bothNames [] (flight [start, departure]) [] = .ok n ∧
    ((flight [start, departure]).message.fields.map Field.name).Nodup ∧
    n.properties.get? "from" = some ((plain .string).asProperty departure) := by
  have h : schemaAt .empty bothNames [] ⟨[], flight [start, departure]⟩ = .ok _ :=
    schemaAt_eq_ok_iff.2 ⟨[(start, _), (departure, _)], rfl,
      List.forall_mem_cons.2 ⟨fieldAt_start _, List.forall_mem_singleton.2 (fieldAt_departure _)⟩, rfl⟩
  have hn : ((flight [start, departure]).message.fields.map Field.name).Nodup := by decide
  have hs : ¬ (flight [start, departure]).message.Shadowed bothNames departure := by
    intro hs
    obtain ⟨g, hg, -, hne⟩ := Message.exists_fieldUnder?_of_shadowed hn hs
    obtain rfl := Option.some.inj ((rfl : _ = some departure).symm.trans hg)
    exact hne rfl
  obtain ⟨fn, hfn, hget⟩ := (property_under_name h hn).1 departure (by simp [flight]) hs
  obtain rfl := Except.ok.inj ((fieldAt_departure ⟨[], flight [start, departure]⟩).symm.trans hfn)
  exact ⟨_, h, hn, hget⟩

/-- The place is declared first, and the start stands under its name. -/
theorem property_under_name_lost : ∃ n fn, ofMessage .empty bothNames [] (flight [departure, start]) [] = .ok n ∧
    ((flight [departure, start]).message.fields.map Field.name).Nodup ∧
    departure ∈ (flight [departure, start]).message.fields ∧
    ofField .empty bothNames [] departure (flight [departure, start]) [] = .ok fn ∧
    n.properties.get? departure.name ≠ some (fn.asProperty departure) := by
  have h : schemaAt .empty bothNames [] ⟨[], flight [departure, start]⟩ = .ok _ :=
    schemaAt_eq_ok_iff.2 ⟨[(departure, _), (start, _)], rfl,
      List.forall_mem_cons.2 ⟨fieldAt_departure _, List.forall_mem_singleton.2 (fieldAt_start _)⟩, rfl⟩
  refine ⟨_, _, h, by decide, .head _, fieldAt_departure ⟨[], flight [departure, start]⟩, ?_⟩
  rw [(get?_properties_iff h _).2 ⟨start, _, rfl, fieldAt_start _, rfl⟩]
  intro heq
  exact absurd (congrArg Node.order (Option.some.inj heq)) (by decide)

end Schema
end ProtoSchema
