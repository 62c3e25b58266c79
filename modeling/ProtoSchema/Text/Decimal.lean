/-!
# Decimal integers

Written without leading zeros or a plus sign; read with both allowed, and
within the range of a machine word. A text outside the range is no number
rather than the nearest one. `read?_write`: what is written is read as the same integer.
-/

namespace ProtoSchema.Decimal

def writeNat (n : Nat) : List Char := Nat.toDigits 10 n

def write : Int → List Char
  | .ofNat n => writeNat n
  | .negSucc n => '-' :: writeNat (n + 1)

/-- One or more digits. -/
def readNat? (cs : List Char) : Option Nat :=
  if !cs.isEmpty && cs.all Char.isDigit then some (Nat.ofDigitChars 10 cs 0) else none

/-- Digits after an optional sign. -/
def read? : List Char → Option Int
  | '-' :: ds => (readNat? ds).map (- Int.ofNat ·)
  | '+' :: ds => (readNat? ds).map Int.ofNat
  | ds => (readNat? ds).map Int.ofNat

/-- A signed integer of 64 bits. -/
def readSigned? (cs : List Char) : Option Int :=
  (read? cs).filter fun n => Int64.minValue.toInt ≤ n && n ≤ Int64.maxValue.toInt

/-- An unsigned integer of 64 bits; a minus sign is not accepted, not even before a zero. -/
def readUnsigned? (cs : List Char) : Option Nat :=
  (readNat? (if cs.head? = some '+' then cs.tail else cs)).filter (· < UInt64.size)

def text (n : Int) : String := String.ofList (write n)

/-! ## What is written is read -/

theorem isDigit_of_mem_writeNat {n : Nat} {c : Char} (h : c ∈ writeNat n) : c.isDigit = true :=
  Nat.isDigit_of_mem_toDigits (by decide) (by decide) h

theorem readNat?_writeNat (n : Nat) : readNat? (writeNat n) = some n := by
  have hne : (writeNat n).isEmpty = false := by simp [writeNat, Nat.toDigits_ne_nil]
  have hall : (writeNat n).all Char.isDigit = true := List.all_eq_true.2 fun _ => isDigit_of_mem_writeNat
  rw [readNat?, hne, hall]
  exact congrArg some (Nat.ofDigitChars_toDigits (by decide) (by decide))

/-- A natural number starts with a digit. -/
theorem exists_writeNat_cons (n : Nat) : ∃ c cs, writeNat n = c :: cs ∧ c.isDigit = true := by
  obtain ⟨c, cs, h⟩ := List.exists_cons_of_ne_nil (Nat.toDigits_ne_nil : Nat.toDigits 10 n ≠ [])
  exact ⟨c, cs, h, isDigit_of_mem_writeNat (n := n) (by rw [writeNat, h]; exact .head _)⟩

theorem read?_write (n : Int) : read? (write n) = some n := by
  cases n with
  | ofNat n =>
    obtain ⟨c, cs, h, hc⟩ := exists_writeNat_cons n
    have hread : readNat? (c :: cs) = some n := h ▸ readNat?_writeNat n
    rw [write, h, read?]
    · rw [hread]
      rfl
    · rintro _ ⟨rfl, -⟩
      cases hc
    · rintro _ ⟨rfl, -⟩
      cases hc
  | negSucc n =>
    rw [write, read?, readNat?_writeNat]
    rfl

end ProtoSchema.Decimal
