import ProtoSchema.Wire.Tree
/-!
# Reading what was written

Each reader, at the head of what its writer has written, answers what was written
and leaves what comes after it: integers (`varint?_writeVarint`), items
(`item?_writeNumber`, `item?_writeBlob`) and the known fields of a message
(`decodeWith_writeNumber`, `decodeWith_writeText`, `decodeWith_writeMessage`). Integers
and lengths are below 2^64.
-/

namespace ProtoSchema.Wire

variable {rest : Bytes}

/-! ## Integers -/

/-- The integers that a byte and `more` further bytes can hold are below this. -/
def varintBound : Nat → Nat
  | 0 => 128
  | more + 1 => 128 * varintBound more

theorem varintWithin?_writeVarint {n : Nat} : ∀ {more : Nat}, n < varintBound more →
    varintWithin? more (writeVarint n ++ rest) = some (n, rest) := by
  fun_induction writeVarint n with
  | case1 n hn =>
    intro more _
    have hbyte : (UInt8.ofNat n).toNat = n := by
      rw [UInt8.toNat_ofNat']
      omega
    rw [List.singleton_append, varintWithin?.eq_def]
    simp only [hbyte, if_pos hn]
  | case2 n hn ih =>
    intro more hmore
    have hbyte : (UInt8.ofNat (n % 128 + 128)).toNat = n % 128 + 128 := by
      rw [UInt8.toNat_ofNat']
      omega
    cases more with
    | zero => exact absurd hmore hn
    | succ more =>
      have hrest : n / 128 < varintBound more := Nat.div_lt_of_lt_mul hmore
      rw [List.cons_append, varintWithin?, hbyte, if_neg (by omega), ih hrest]
      show some (n % 128 + 128 - 128 + 128 * (n / 128), rest) = some (n, rest)
      rw [Nat.add_sub_cancel, Nat.mod_add_div]

theorem varint?_writeVarint {n : Nat} (h : n < UInt64.size) : varint? (writeVarint n ++ rest) = some (n, rest) := by
  have hwithin : n < varintBound 9 := Nat.lt_trans h (by decide)
  rw [varint?, varintWithin?_writeVarint hwithin, Option.filter_some, if_pos (by simpa using h)]

/-! ## Items -/

theorem take?_append (bytes : Bytes) : take? bytes.length (bytes ++ rest) = some (bytes, rest) := by
  simp [take?]

section
variable {number : Nat} (hpos : 0 < number) (hlt : 8 * number < UInt32.size)
include hpos hlt

theorem item?_writeKey {wireType : Nat} (hw : wireType < 8) :
    item? (writeKey number wireType ++ rest) = payload? number wireType rest := by
  have hkey : 8 * number + wireType < UInt32.size := by
    have : UInt32.size = 8 * 536870912 := rfl
    omega
  have hnumber : (8 * number + wireType) / 8 = number := by omega
  have htype : (8 * number + wireType) % 8 = wireType := by omega
  rw [item?, writeKey, varint?_writeVarint (Nat.lt_trans hkey (by decide))]
  show (if _ then _ else _) = _
  rw [hnumber, htype, if_pos ⟨hkey, Nat.ne_of_gt hpos⟩]

theorem item?_writeNumber {n : Nat} (hn : n < UInt64.size) :
    item? (writeNumber number n ++ rest) = some (.whole number (.varint n), rest) := by
  rw [writeNumber, List.append_assoc, item?_writeKey hpos hlt (by decide), payload?, varint?_writeVarint hn]
  rfl

theorem item?_writeBlob {bytes : Bytes} (hb : bytes.length < UInt64.size) :
    item? (writeBlob number bytes ++ rest) = some (.whole number (.blob bytes), rest) := by
  rw [writeBlob, List.append_assoc, List.append_assoc, item?_writeKey hpos hlt (by decide), payload?,
    varint?_writeVarint hb]
  show (take? bytes.length (bytes ++ rest)).map _ = _
  rw [take?_append]
  rfl

end

/-! ## Fields -/

theorem ne_nil_of_item? {bytes : Bytes} {item : Item} (h : item? bytes = some (item, rest)) : bytes ≠ [] := by
  rintro rfl
  simp [item?, varint?, varintWithin?] at h

/-- The item at the head of some bytes is the first of all. -/
theorem items?_of_item? {bytes : Bytes} {item : Item} (h : item? bytes = some (item, rest)) :
    items? bytes = (items? rest).map (item :: ·) := by
  rw [items?, if_neg (by simpa using ne_nil_of_item? h)]
  split
  case h_1 hnone => simp [h] at hnone
  case h_2 item' rest' hsome =>
    obtain ⟨rfl, rfl⟩ := Prod.mk.inj (Option.some.inj (h.symm.trans hsome))
    rfl

theorem fields?_of_item? {bytes : Bytes} {number : Nat} {payload : Payload}
    (h : item? bytes = some (.whole number payload, rest)) :
    fields? bytes = (fields? rest).map ((number, payload) :: ·) := by
  rw [fields?, fields?, items?_of_item? h]
  cases items? rest <;> rfl

section
variable {budget : Nat} {inner : MessageType → Bytes → Option Tree} {t : MessageType} {number : Nat}

theorem decodeWith_nil : decodeWith budget inner t [] = some [] := by
  rw [decodeWith, fields?, items?]
  rfl

/-- The first item of some bytes gives the first field. -/
theorem decodeWith_of_item? {bytes : Bytes} {payload : Payload} {value : Value}
    (h : item? bytes = some (.whole number payload, rest))
    (hv : decodeField budget inner t number payload = some [(number, value)]) :
    decodeWith budget inner t bytes = (decodeWith budget inner t rest).map ((number, value) :: ·) := by
  unfold decodeWith
  rw [fields?_of_item? h]
  cases fields? rest with
  | none => rfl
  | some fields =>
    simp only [Option.map_some, Option.bind_eq_bind, Option.bind_some, List.mapM_cons, hv]
    cases fields.mapM (fun f => decodeField budget inner t f.1 f.2) <;> rfl

variable (hpos : 0 < number) (hlt : 8 * number < UInt32.size)
include hpos hlt

theorem decodeWith_writeNumber {n : Nat} (hf : t.field? number = some .number) (hn : n < UInt64.size) :
    decodeWith budget inner t (writeNumber number n ++ rest) =
      (decodeWith budget inner t rest).map ((number, .number n) :: ·) :=
  decodeWith_of_item? (item?_writeNumber hpos hlt hn) (by simp only [decodeField, hf])

theorem decodeWith_writeText {s : String} (hf : t.field? number = some .text)
    (hs : (Bytes.ofText s).length < UInt64.size) :
    decodeWith budget inner t (writeText number s ++ rest) =
      (decodeWith budget inner t rest).map ((number, .text s) :: ·) :=
  decodeWith_of_item? (item?_writeBlob hpos hlt hs) (by simp only [decodeField, hf, Bytes.text?_ofText, Option.map_some])

theorem decodeWith_writeMessage {type : MessageType} {bytes : Bytes} {tree : Tree}
    (hf : t.field? number = some (.message type)) (hb : bytes.length < UInt64.size)
    (htree : inner type bytes = some tree) :
    decodeWith budget inner t (writeBlob number bytes ++ rest) =
      (decodeWith budget inner t rest).map ((number, .message tree) :: ·) :=
  decodeWith_of_item? (item?_writeBlob hpos hlt hb) (by simp only [decodeField, hf, htree, Option.map_some])

end

/-! ## A field of number 0 -/

/-- There is no field of number 0. -/
theorem tree?_zero (t : MessageType) : tree? t [0] = none := by with_unfolding_all rfl

/-- What a decoder says of bytes that begin with such a field. -/
def zeroRefusal : Refusal := fun _ _ => "failed to decode Protobuf message: invalid tag value: 0"

end ProtoSchema.Wire
