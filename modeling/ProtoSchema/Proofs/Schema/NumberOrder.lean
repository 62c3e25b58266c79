import Mathlib.Data.List.Pairwise
import ProtoSchema.Proofs.Schema.FieldOrder
/-!
# Properties with and without a number

A node lists each of its properties once, by number and for equal numbers by name, and those without a
number by name. A property without a number stands where the largest number would
(`orderedProperties_by_number`): after all that have a number, unless one of these has the largest number and
a greater name. So the properties without a number come last exactly if there is no such pair.
-/

namespace ProtoSchema.Schema

/-- How a node lists its properties. -/
structure ListedByNumber (l : List (String × Node)) : Prop where
  ascending : l.Pairwise fun a b => ∀ x y, a.2.order = some x → b.2.order = some y → x ≤ y
  ties : l.Pairwise fun a b => a.2.order = b.2.order → a.1 < b.1
  /-- What has no number comes before the largest number only. -/
  early : l.Pairwise fun a b => a.2.order = none → ∀ y, b.2.order = some y → y = Int32.maxValue ∧ a.1 < b.1
  late : l.Pairwise fun a b => a.2.order = some Int32.maxValue → b.2.order = none → a.1 < b.1

/-- No property without a number comes before one that has a number. -/
def UnnumberedLast (l : List (String × Node)) : Prop := l.Pairwise fun a b => a.2.order = none → b.2.order = none

variable {n : Node} {a b : String × Node}

theorem le_maxValue (x : Int32) : x ≤ Int32.maxValue := by
  rw [Int32.le_iff_toInt_le]
  exact x.toInt_le

theorem rank_of_order {x : Int32} (h : a.2.order = some x) : rank Node.order a = x := by
  rw [rank, h, Option.getD_some]

theorem rank_of_unnumbered (h : a.2.order = none) : rank Node.order a = Int32.maxValue := by
  rw [rank, h, Option.getD_none]

namespace StrictlyBefore

theorem name_lt (h : StrictlyBefore Node.order a b) (hrank : rank Node.order a = rank Node.order b) : a.1 < b.1 := by
  obtain ⟨hlt | ⟨-, hle⟩, hne⟩ := h
  · exact absurd hrank (Int32.ne_of_lt hlt)
  · exact Std.lt_of_le_of_ne hle hne

theorem rank_le (h : StrictlyBefore Node.order a b) : rank Node.order a ≤ rank Node.order b := by
  obtain ⟨hlt | ⟨heq, -⟩, -⟩ := h
  · exact Int32.le_of_lt hlt
  · exact heq ▸ Int32.le_refl _

/-- Nothing is ranked after the largest number. -/
theorem eq_maxValue (h : StrictlyBefore Node.order a b) (ha : rank Node.order a = Int32.maxValue) :
    rank Node.order b = Int32.maxValue :=
  Int32.le_antisymm (le_maxValue _) (ha ▸ h.rank_le)

end StrictlyBefore

theorem listedByNumber_orderedProperties (hn : n.properties.Ascending) : ListedByNumber n.orderedProperties where
  ascending := (pairwise_strictlyBefore Node.order hn).imp fun {a b} h x y ha hb => by
    rw [← rank_of_order ha, ← rank_of_order hb]
    exact h.rank_le
  ties := (pairwise_strictlyBefore Node.order hn).imp fun {a b} h hab => h.name_lt (by rw [rank, rank, hab])
  early := (pairwise_strictlyBefore Node.order hn).imp fun {a b} h ha y hb => by
    have hlast := h.eq_maxValue (rank_of_unnumbered ha)
    exact ⟨rank_of_order hb ▸ hlast, h.name_lt ((rank_of_unnumbered ha).trans hlast.symm)⟩
  late := (pairwise_strictlyBefore Node.order hn).imp fun {a b} h ha hb =>
    h.name_lt ((rank_of_order ha).trans (rank_of_unnumbered hb).symm)

/-- Of two different members of a list, one stands before the other. -/
theorem pairwise_or {α : Type} {R : α → α → Prop} {l : List α} {x y : α} (h : l.Pairwise R) (hx : x ∈ l)
    (hy : y ∈ l) (hne : x ≠ y) : R x y ∨ R y x :=
  (h.imp (fun hxy => .of_rel hxy) : l.Pairwise (Relation.SymmGen R)).forall hx hy hne

/-- A node lists each of its properties once, by number and then by name. The properties without a number
come last exactly if the name of each is greater than the names of those that have the largest number. -/
theorem orderedProperties_by_number (n : Node) (hn : n.properties.Ascending) :
    n.orderedProperties.Perm n.properties.entries ∧ ListedByNumber n.orderedProperties ∧
    (UnnumberedLast n.orderedProperties ↔ ∀ a ∈ n.properties.entries, ∀ b ∈ n.properties.entries,
      a.2.order = none → b.2.order = some Int32.maxValue → b.1 < a.1) := by
  have hperm : n.orderedProperties.Perm n.properties.entries := inOrder_perm Node.order _
  have hlisted := listedByNumber_orderedProperties hn
  refine ⟨hperm, hlisted, fun hlast a ha b hb hnone hmax => ?_, fun hnames => ?_⟩
  · have hne : a ≠ b := by
      rintro rfl
      cases hnone.symm.trans hmax
    obtain ⟨hab, -⟩ | ⟨-, hlate⟩ := pairwise_or (hlast.and hlisted.late) (hperm.mem_iff.2 ha) (hperm.mem_iff.2 hb) hne
    · cases hmax.symm.trans (hab hnone)
    · exact hlate hmax hnone
  · refine hlisted.early.imp_of_mem fun {a b} ha hb hearly hnone => ?_
    rw [Option.eq_none_iff_forall_ne_some]
    intro y hy
    obtain ⟨rfl, hlt⟩ := hearly hnone y hy
    have hgt := hnames a (hperm.mem_iff.1 ha) b (hperm.mem_iff.1 hb) hnone hy
    exact String.lt_irrefl _ (String.lt_trans hlt hgt)

/-! ### Numbers at both ends -/

def numbered (number : Int32) : Node := { Node.plain .string with order := some number }

/-- The largest number under the smallest name. -/
def peaks : Node := { Node.plain .object with
  properties := .ofList [("apex", numbered Int32.maxValue), ("note", .plain .string),
    ("base", .plain .string), ("zero", numbered 0), ("foot", numbered Int32.minValue)] }

/-- The largest number under a name that is greater than that of a property without one. -/
def valleys : Node := { Node.plain .object with
  properties := .ofList [("alpha", .plain .string), ("zulu", numbered Int32.maxValue)] }

theorem orderedProperties_by_number_peaks : peaks.properties.Ascending ∧
    peaks.orderedProperties.Perm peaks.properties.entries ∧ UnnumberedLast peaks.orderedProperties := by
  have hascending := Dictionary.ascending_ofList
    [("apex", numbered Int32.maxValue), ("note", .plain .string), ("base", .plain .string), ("zero", numbered 0),
      ("foot", numbered Int32.minValue)]
  obtain ⟨hperm, -, hlast⟩ := orderedProperties_by_number peaks hascending
  refine ⟨hascending, hperm, hlast.2 ?_⟩
  decide

/-- All is well with the node, and yet it lists a property without a number first. -/
theorem alpha_before_zulu : valleys.properties.Ascending ∧ valleys.orderedProperties.map Prod.fst = ["alpha", "zulu"] ∧
    (valleys.properties.get? "alpha").map Node.order = some none ∧
    (valleys.properties.get? "zulu").map Node.order = some (some Int32.maxValue) ∧
    ¬ UnnumberedLast valleys.orderedProperties := by
  have horder : valleys.orderedProperties = [("alpha", .plain .string), ("zulu", numbered Int32.maxValue)] :=
    List.mergeSort_of_pairwise (List.pairwise_pair.2 (by decide))
  refine ⟨Dictionary.ascending_ofList _, congrArg (List.map Prod.fst) horder, rfl, rfl, ?_⟩
  rw [horder, UnnumberedLast, List.pairwise_pair]
  exact fun hlast => Option.some_ne_none _ (hlast rfl)

end ProtoSchema.Schema
