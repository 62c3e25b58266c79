import ProtoSchema.Bytes
/-!
# Varints

An integer is written seven bits a byte, lowest first, and every byte but the
last carries a mark. Readers accept forms padded with zeros, up to ten bytes
and below 2^64. `varint?_shorter`: reading takes at least one byte.
-/

namespace ProtoSchema.Wire

def writeVarint (n : Nat) : Bytes :=
  if n < 128 then [UInt8.ofNat n] else UInt8.ofNat (n % 128 + 128) :: writeVarint (n / 128)

/-- The integer at the head of some bytes, in at most `more` bytes after the first. -/
def varintWithin? (more : Nat) : Bytes → Option (Nat × Bytes)
  | [] => none
  | b :: rest =>
    if b.toNat < 128 then some (b.toNat, rest)
    else match more with
      | 0 => none
      | more + 1 => (varintWithin? more rest).map fun r => (b.toNat - 128 + 128 * r.1, r.2)

def varint? (bytes : Bytes) : Option (Nat × Bytes) :=
  (varintWithin? 9 bytes).filter fun r => r.1 < UInt64.size

theorem varintWithin?_shorter {bytes rest : Bytes} {more n : Nat}
    (h : varintWithin? more bytes = some (n, rest)) : rest.length < bytes.length := by
  fun_induction varintWithin? more bytes generalizing n rest with
  | case1 => cases h
  | case2 more b tail hb =>
    obtain ⟨-, rfl⟩ := Prod.mk.inj (Option.some.inj h)
    simp
  | case3 => cases h
  | case4 b tail hb more ih =>
    obtain ⟨r, hr, he⟩ := Option.map_eq_some_iff.1 h
    obtain ⟨-, rfl⟩ := Prod.mk.inj he
    have := ih hr
    simp only [List.length_cons]
    omega

theorem varint?_shorter {bytes rest : Bytes} {n : Nat} (h : varint? bytes = some (n, rest)) :
    rest.length < bytes.length :=
  varintWithin?_shorter (Option.filter_eq_some_iff.1 h).1

/-- Bytes that are a sequence of integers and nothing else. -/
def varints? (bytes : Bytes) : Option (List Nat) :=
  if bytes.isEmpty then some []
  else match _h : varint? bytes with
    | none => none
    | some (n, rest) => (varints? rest).map (n :: ·)
termination_by bytes.length
decreasing_by exact varint?_shorter _h

end ProtoSchema.Wire
