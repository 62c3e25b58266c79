import Mathlib
import ProtoSchema.Text.Case
/-!
# Letter case in ASCII

On ASCII characters the tables of letter case say no more than that A to Z are the capitals of a to z. So each
character of an ASCII text changes its case by itself, and into one character (`lowered_ascii`).
-/

namespace ProtoSchema.Text

def Ascii (cs : List Char) : Prop := ∀ c ∈ cs, c.toNat < 128

/-- What holds of the first 128 characters holds of every ASCII character. -/
theorem ascii_forall {P : Char → Prop} (h : ∀ n < 128, P (Char.ofNat n)) {c : Char} (hc : c.toNat < 128) : P c := by
  have hchar := h c.toNat hc
  rwa [Char.ofNat_toNat] at hchar

variable {c : Char} {cs : List Char}

theorem upper_ascii (hc : c.toNat < 128) : upper c = [c.toUpper] :=
  ascii_forall (P := fun c => upper c = [c.toUpper]) (by decide +kernel) hc

theorem lower_ascii (hc : c.toNat < 128) : lower c = [c.toLower] :=
  ascii_forall (P := fun c => lower c = [c.toLower]) (by decide +kernel) hc

theorem isUpper_ascii (hc : c.toNat < 128) : isUpper c = c.isUpper :=
  ascii_forall (P := fun c => isUpper c = c.isUpper) (by decide +kernel) hc

theorem isLower_ascii (hc : c.toNat < 128) : isLower c = c.isLower :=
  ascii_forall (P := fun c => isLower c = c.isLower) (by decide +kernel) hc

theorem toUpper_ascii (hc : c.toNat < 128) : c.toUpper.toNat < 128 :=
  ascii_forall (P := fun c => c.toUpper.toNat < 128) (by decide +kernel) hc

theorem toLower_ascii (hc : c.toNat < 128) : c.toLower.toNat < 128 :=
  ascii_forall (P := fun c => c.toLower.toNat < 128) (by decide +kernel) hc

/-- There is no sigma in ASCII, so that the place of a character in the text makes no difference. -/
theorem lowered_ascii (h : Ascii cs) : lowered cs = cs.map Char.toLower := by
  have hfrom : ∀ before, lowerFrom before cs = cs.map Char.toLower := by
    induction cs with
    | nil => exact fun _ => rfl
    | cons c cs ih =>
      intro before
      obtain ⟨hc, hcs⟩ := List.forall_mem_cons.1 h
      have hsigma : c ≠ 'Σ' := by
        rintro rfl
        exact absurd hc (by decide)
      rw [lowerFrom, if_neg hsigma, lower_ascii hc, ih hcs]
      rfl
  exact hfrom []

theorem Ascii.map_toLower (h : Ascii cs) : Ascii (cs.map Char.toLower) :=
  List.forall_mem_map.2 fun c hc => toLower_ascii (h c hc)

end ProtoSchema.Text
