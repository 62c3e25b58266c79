import Mathlib.Data.List.Induction
import ProtoSchema.Text.Decimal
/-!
# What numerals denote

Digits denote a number digit by digit, of any length and with any zeros before them; a sign may stand before them, and
a minus sign only where a number may be negative. A text is read as an integer of 64 bits exactly if it denotes one
that is in the range (`readSigned?_eq_some_iff`, `readUnsigned?_eq_some_iff`).
-/

namespace ProtoSchema.Decimal

variable {cs : List Char} {i : Int} {n : Nat}

/-- The number that digits denote. -/
inductive Digits : List Char → Nat → Prop where
  | single {c : Char} (digit : c.isDigit = true) : Digits [c] (c.toNat - '0'.toNat)
  | snoc {cs : List Char} {n : Nat} {c : Char} (before : Digits cs n) (digit : c.isDigit = true) :
    Digits (cs ++ [c]) (10 * n + (c.toNat - '0'.toNat))

/-- Digits, or digits after a plus sign. -/
inductive Unsigned : List Char → Nat → Prop where
  | bare {cs : List Char} {n : Nat} (digits : Digits cs n) : Unsigned cs n
  | plus {cs : List Char} {n : Nat} (digits : Digits cs n) : Unsigned ('+' :: cs) n

/-- Digits, or digits after a sign of either kind. -/
inductive Signed : List Char → Int → Prop where
  | unsigned {cs : List Char} {n : Nat} (numeral : Unsigned cs n) : Signed cs n
  | minus {cs : List Char} {n : Nat} (digits : Digits cs n) : Signed ('-' :: cs) (-n)

/-- The signed integers of 64 bits that a text denotes, which is one at most. -/
def Signed64 (cs : List Char) (i : Int) : Prop :=
  Signed cs i ∧ -9223372036854775808 ≤ i ∧ i ≤ 9223372036854775807

/-- The unsigned integers of 64 bits that a text denotes, which is one at most. -/
def Unsigned64 (cs : List Char) (n : Nat) : Prop := Unsigned cs n ∧ n ≤ 18446744073709551615

/-! ## Digits -/

theorem readNat?_eq_some_iff_all :
    readNat? cs = some n ↔ cs ≠ [] ∧ (∀ c ∈ cs, c.isDigit = true) ∧ Nat.ofDigitChars 10 cs 0 = n := by
  simp [readNat?, and_assoc]

theorem Digits.ne_nil (h : Digits cs n) : cs ≠ [] := by
  cases h with
  | single => exact List.cons_ne_nil _ _
  | snoc => simp

theorem Digits.isDigit (h : Digits cs n) : ∀ c ∈ cs, c.isDigit = true := by
  induction h with
  | single hc => simpa using hc
  | snoc _ hc ih => exact List.forall_mem_append.2 ⟨ih, by simpa using hc⟩

theorem Digits.value (h : Digits cs n) : Nat.ofDigitChars 10 cs 0 = n := by
  induction h with
  | single => simp [Nat.ofDigitChars_cons]
  | snoc _ _ ih => rw [Nat.ofDigitChars_append, ih, Nat.ofDigitChars_cons, Nat.ofDigitChars_nil]

theorem digits_of_isDigit (hne : cs ≠ []) (h : ∀ c ∈ cs, c.isDigit = true) :
    Digits cs (Nat.ofDigitChars 10 cs 0) := by
  -- From the end, since a digit more is the last one.
  induction cs using List.reverseRecOn with
  | nil => exact absurd rfl hne
  | append_singleton cs c ih =>
    obtain ⟨hcs, hc⟩ := List.forall_mem_append.1 h
    have hdigit : c.isDigit = true := hc c (List.mem_singleton_self c)
    rw [Nat.ofDigitChars_append, Nat.ofDigitChars_cons, Nat.ofDigitChars_nil]
    cases cs with
    | nil =>
      rw [Nat.ofDigitChars_nil, Nat.mul_zero, Nat.zero_add]
      exact .single hdigit
    | cons => exact .snoc (ih (List.cons_ne_nil _ _) hcs) hdigit

theorem readNat?_eq_some_iff : readNat? cs = some n ↔ Digits cs n := by
  rw [readNat?_eq_some_iff_all]
  exact ⟨fun ⟨hne, hall, hn⟩ => hn ▸ digits_of_isDigit hne hall, fun h => ⟨h.ne_nil, h.isDigit, h.value⟩⟩

/-! ## Signs -/

theorem not_digits_cons {c : Char} (hc : c.isDigit = false) : ¬ Digits (c :: cs) n := by
  intro h
  rw [h.isDigit c (.head _)] at hc
  cases hc

theorem unsigned_iff : Unsigned cs n ↔ Digits (if cs.head? = some '+' then cs.tail else cs) n := by
  refine ⟨fun h => ?_, fun h => ?_⟩
  · cases h with
    | plus h => simpa using h
    | bare h =>
      rw [if_neg]
      · exact h
      · rintro hplus
        obtain ⟨rest, rfl⟩ := List.head?_eq_some_iff.1 hplus
        exact not_digits_cons rfl h
  · split at h
    · next hplus =>
      obtain ⟨rest, rfl⟩ := List.head?_eq_some_iff.1 hplus
      exact .plus h
    · exact .bare h

theorem read?_eq_some_iff : read? cs = some i ↔ Signed cs i := by
  refine ⟨fun h => ?_, fun h => ?_⟩
  · unfold read? at h
    split at h <;> obtain ⟨n, hn, rfl⟩ := Option.map_eq_some_iff.1 h
    · exact .minus (readNat?_eq_some_iff.1 hn)
    · exact .unsigned (.plus (readNat?_eq_some_iff.1 hn))
    · exact .unsigned (.bare (readNat?_eq_some_iff.1 hn))
  · cases h with
    | minus h =>
      rw [read?, readNat?_eq_some_iff.2 h]
      rfl
    | unsigned h =>
      cases h with
      | plus h =>
        rw [read?, readNat?_eq_some_iff.2 h]
        rfl
      | bare h =>
        rw [read?, readNat?_eq_some_iff.2 h]
        · rfl
        · rintro rest rfl
          exact not_digits_cons rfl h
        · rintro rest rfl
          exact not_digits_cons rfl h

/-! ## Ranges -/

theorem readSigned?_eq_some_iff : readSigned? cs = some i ↔ Signed64 cs i := by
  have hmin : Int64.minValue.toInt = -9223372036854775808 := by decide
  have hmax : Int64.maxValue.toInt = 9223372036854775807 := by decide
  rw [readSigned?, Option.filter_eq_some_iff, read?_eq_some_iff, hmin, hmax, Bool.and_eq_true, decide_eq_true_iff,
    decide_eq_true_iff, Signed64]

theorem readUnsigned?_eq_some_iff : readUnsigned? cs = some n ↔ Unsigned64 cs n := by
  rw [readUnsigned?, Option.filter_eq_some_iff, readNat?_eq_some_iff, ← unsigned_iff, decide_eq_true_iff, Unsigned64,
    ← Nat.lt_succ_iff, UInt64.size]

end ProtoSchema.Decimal
