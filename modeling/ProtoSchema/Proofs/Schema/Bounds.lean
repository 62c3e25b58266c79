import ProtoSchema.Proofs.Json.Reading
import ProtoSchema.Proofs.Schema.Directed
import ProtoSchema.Proofs.Schema.Faithful
import ProtoSchema.Proofs.Text.Numerals
/-!
# Bounds are exact or left alone

A bound is the integer that the value of its directive denotes, if this is in the range, and else what it was
(`Bounded`): signed for the value of an integer, unsigned for the length of anything else. The object of the node has
each bound as that number, and its text has the decimal of it (`bounds_exact`).
-/

namespace ProtoSchema

namespace Json

/-- In both texts of a value an integer stands after some key, as its decimal and to the last digit. -/
def ShowsInteger (j : Json) (key : String) (i : Int) : Prop :=
  ∀ indented, ∃ l front rest, Stops rest ∧
    (j.render indented).toList = front ++ (quoted key ++ (Layout.colon l ++ (Decimal.write i ++ rest)))

theorem exists_writeMembers_eq {l : Layout} {key : String} {i : Int} {members : List (String × Json)}
    (h : (key, num i) ∈ members) (level : Nat) (rest : List Char) :
    ∃ front rest', Stops rest' ∧ writeMembers l level rest members =
      ',' :: (front ++ (quoted key ++ (l.colon ++ (Decimal.write i ++ rest')))) := by
  induction members with
  | nil => cases h
  | cons m members ih =>
    obtain ⟨name, j⟩ := m
    rw [writeMembers]
    rcases List.mem_cons.1 h with heq | hmem
    · cases heq
      exact ⟨l.newline (level + 1), _, stops_writeMembers l level rest members, rfl⟩
    · -- The member before is written as it would be at the end.
      obtain ⟨front, rest', hstops, heq⟩ := ih hmem
      refine ⟨l.newline (level + 1) ++ (quoted name ++ (l.colon ++ (write l (level + 1) [] j ++ ',' :: front))), rest',
        hstops, ?_⟩
      have happend : write l (level + 1) ([] ++ writeMembers l level rest members) j = _ := write_append l _ j
      rw [List.nil_append] at happend
      rw [happend, heq]
      simp only [List.append_assoc, List.cons_append]

theorem exists_write_eq {key : String} {i : Int} {members : List (String × Json)} (h : (key, num i) ∈ members)
    (l : Layout) : ∃ front rest, Stops rest ∧ write l 0 [] (.obj members) =
      front ++ (quoted key ++ (l.colon ++ (Decimal.write i ++ rest))) := by
  obtain ⟨front, rest, hstops, heq⟩ := exists_writeMembers_eq h 0 []
  cases members with
  | nil => cases h
  | cons m members =>
    rw [writeMembers] at heq
    obtain ⟨-, heq⟩ := List.cons.inj heq
    exact ⟨'{' :: front, rest, hstops, by rw [write, heq, List.cons_append]⟩

theorem showsInteger_of_member? {members : List (String × Json)} {key : String} {i : Int}
    (h : (obj members).member? key = some (.num i)) : (obj members).ShowsInteger key i := by
  have hmem : (key, num i) ∈ members := by
    obtain ⟨front, rest, rfl, -⟩ := List.lookup_eq_some_iff.1 h
    exact List.mem_append_right front (.head rest)
  intro indented
  cases indented
  · exact ⟨.compact, by simpa [render, compact] using exists_write_eq hmem .compact⟩
  · exact ⟨.pretty, by simpa [render, pretty] using exists_write_eq hmem .pretty⟩

end Json

namespace Schema

/-- A bound after a directive: the number that its value denotes, or what it was if there is no such number. -/
structure Bounded {α : Type} (Denotes : List Char → α → Prop) (written : Option String) (before after : Option α) :
    Prop where
  exact : ∀ text x, written = some text → Denotes text.toList x → after = some x
  kept : (∀ text x, written = some text → ¬ Denotes text.toList x) → after = before

/-- A bound is under its key as a number, and in the text as the decimal of the same number; without a bound there is
nothing under the key. -/
structure Printed (j : Json) (key : String) (value : Option Int) : Prop where
  member : j.member? key = value.map .num
  text : ∀ i, value = some i → j.ShowsInteger key i

variable {α : Type} {Denotes : List Char → α → Prop} {read : List Char → Option α} {key : String}

theorem bounded_bound (hread : ∀ {cs x}, read cs = some x ↔ Denotes cs x) (hkey : key ∈ Directives.recognized)
    (d : Directives) (before : Option α) :
    Bounded Denotes (d.get? key) before (Annotations.bound read d key before) := by
  rw [Annotations.bound, Directives.value?_eq_get? hkey]
  constructor
  · intro text x htext hdenotes
    rw [htext, Option.bind_some, hread.2 hdenotes]
    rfl
  · intro hnone
    have hunread : ((d.get? key).bind fun text => read text.toList) = none := by
      rw [Option.bind_eq_none_iff]
      exact fun text htext => Option.eq_none_iff_forall_ne_some.2 fun x hx => hnone text x htext (hread.1 hx)
    rw [hunread]
    rfl

namespace Node

theorem printed_of_member? {n : Node} {value : Option Int} (h : n.toJson.member? key = value.map .num) :
    Printed n.toJson key value where
  member := h
  text i hi := Json.showsInteger_of_member? (h.trans (by rw [hi]; rfl))

theorem printed_bounds (n : Node) :
    Printed n.toJson "minimum" n.annotations.minimum ∧ Printed n.toJson "maximum" n.annotations.maximum ∧
    Printed n.toJson "minLength" (n.annotations.minLength.map Int.ofNat) ∧
    Printed n.toJson "maxLength" (n.annotations.maxLength.map Int.ofNat) := by
  refine ⟨printed_of_member? ?_, printed_of_member? ?_, printed_of_member? ?_, printed_of_member? ?_⟩ <;>
    rw [member?_toJson]
  · rfl
  · rfl
  · rw [Option.map_map]
    rfl
  · rw [Option.map_map]
    rfl

/-- The comments of a node bound the value of an integer by numbers of 64 bits with a sign, and the length of anything
else by numbers without one, as they are written or not at all, and so they are printed. -/
theorem bounds_exact (n : Node) (comments : Option Comments) (identifier : String) :
    let d := Directives.ofComments comments
    let after := n.annotate comments identifier
    (n.type = .single .integer →
      Bounded Decimal.Signed64 (d.get? "min") n.annotations.minimum after.annotations.minimum ∧
      Bounded Decimal.Signed64 (d.get? "max") n.annotations.maximum after.annotations.maximum) ∧
    (n.type ≠ .single .integer →
      Bounded Decimal.Unsigned64 (d.get? "min") n.annotations.minLength after.annotations.minLength ∧
      Bounded Decimal.Unsigned64 (d.get? "max") n.annotations.maxLength after.annotations.maxLength) ∧
    Printed after.toJson "minimum" after.annotations.minimum ∧
    Printed after.toJson "maximum" after.annotations.maximum ∧
    Printed after.toJson "minLength" (after.annotations.minLength.map Int.ofNat) ∧
    Printed after.toJson "maxLength" (after.annotations.maxLength.map Int.ofNat) := by
  intro d after
  refine ⟨fun htype => ?values, fun htype => ?lengths, printed_bounds after⟩
  case values =>
    have hinteger : n.is .integer = true := by simp [Node.is, htype]
    simp only [after, annotate, Annotations.annotate, hinteger, if_true]
    exact ⟨bounded_bound Decimal.readSigned?_eq_some_iff (by decide) d _,
      bounded_bound Decimal.readSigned?_eq_some_iff (by decide) d _⟩
  case lengths =>
    have hinteger : n.is .integer = false := by simpa [Node.is] using htype
    simp only [after, annotate, Annotations.annotate, hinteger, Bool.false_eq_true, if_false]
    exact ⟨bounded_bound Decimal.readUnsigned?_eq_some_iff (by decide) d _,
      bounded_bound Decimal.readUnsigned?_eq_some_iff (by decide) d _⟩

/-- A number with a largest value, and a bound that is too large by one to take its place. -/
def rank : Node := { plain .integer with annotations := { maximum := some 9 } }

def rankComments : Option Comments := some ⟨some "@min=-007 @max=9223372036854775808", none, []⟩

theorem bounds_exact_rank :
    let after := rank.annotate rankComments "rank"
    after.annotations.minimum = some (-7) ∧ after.annotations.maximum = some 9 ∧
    after.toJson.ShowsInteger "minimum" (-7) := by
  have hmin : (Directives.ofComments rankComments).get? "min" = some "-007" := by decide +kernel
  have hmax : (Directives.ofComments rankComments).get? "max" = some "9223372036854775808" := by decide +kernel
  obtain ⟨hvalues, -, hprinted, -⟩ := bounds_exact rank rankComments "rank"
  obtain ⟨hminimum, hmaximum⟩ := hvalues rfl
  have hseven := hminimum.exact "-007" (-7) hmin (Decimal.readSigned?_eq_some_iff.1 (by decide +kernel))
  refine ⟨hseven, hmaximum.kept fun text x htext hdenotes => ?_, hprinted.text (-7) hseven⟩
  rw [hmax] at htext
  cases htext
  have hread := Decimal.readSigned?_eq_some_iff.2 hdenotes
  rw [show Decimal.readSigned? "9223372036854775808".toList = none by decide +kernel] at hread
  cases hread

end Node
end Schema
end ProtoSchema
