import ProtoSchema.Proofs.Wire.Reading
/-!
# Bytes after bytes

A reader stops where the thing that it reads comes to its end, so the answer is the same whatever comes after
it (`Stable`). This holds of integers and so of items (`stable_item?`), and the fields of a message have all
groups closed when it ends (`fields?_append`). A message may therefore be followed by another one of its type,
and they are decoded as if each stood alone (`decode_append`).
-/

namespace ProtoSchema.Wire

/-! ## Readers -/

section
variable {α β : Type}

/-- What a reader finds at the head of some bytes it finds there whatever more bytes come. -/
def Stable (read : Bytes → Option (α × Bytes)) : Prop :=
  ∀ ⦃bytes rest : Bytes⦄ ⦃x : α⦄, read bytes = some (x, rest) →
    ∀ more, read (bytes ++ more) = some (x, rest ++ more)

theorem stable_none : Stable (α := α) fun _ => none := nofun

theorem stable_pure (x : α) : Stable fun bytes => some (x, bytes) := by
  intro bytes rest y h more
  obtain ⟨rfl, rfl⟩ := Prod.mk.inj (Option.some.inj h)
  rfl

theorem Stable.bind {read : Bytes → Option (α × Bytes)} {next : α → Bytes → Option (β × Bytes)} (h : Stable read)
    (hn : ∀ x, Stable (next x)) : Stable fun bytes => (read bytes).bind fun r => next r.1 r.2 := by
  intro bytes rest y hread more
  obtain ⟨⟨x, tail⟩, hx, hy⟩ := Option.bind_eq_some_iff.1 hread
  show (read (bytes ++ more)).bind _ = _
  rw [h hx more]
  exact hn x hy more

theorem Stable.map {read : Bytes → Option (α × Bytes)} (h : Stable read) (f : α → β) :
    Stable fun bytes => (read bytes).map fun r => (f r.1, r.2) := by
  intro bytes rest y hread more
  obtain ⟨⟨x, tail⟩, hx, he⟩ := Option.map_eq_some_iff.1 hread
  obtain ⟨rfl, rfl⟩ := Prod.mk.inj he
  show (read (bytes ++ more)).map _ = _
  rw [h hx more]
  rfl

end

/-! ## One item -/

theorem stable_varintWithin? (limit : Nat) : Stable (varintWithin? limit) := by
  intro bytes rest n h more
  fun_induction varintWithin? limit bytes generalizing n rest with
  | case1 => cases h
  | case2 limit b tail hb =>
    obtain ⟨rfl, rfl⟩ := Prod.mk.inj (Option.some.inj h)
    rw [List.cons_append, varintWithin?.eq_def]
    simp only [if_pos hb]
  | case3 => cases h
  | case4 b tail hb limit ih =>
    obtain ⟨r, hr, he⟩ := Option.map_eq_some_iff.1 h
    obtain ⟨rfl, rfl⟩ := Prod.mk.inj he
    rw [List.cons_append, varintWithin?, if_neg hb, ih hr]
    rfl

theorem stable_varint? : Stable varint? := by
  intro bytes rest n h more
  obtain ⟨hread, hsize⟩ := Option.filter_eq_some_iff.1 h
  exact Option.filter_eq_some_iff.2 ⟨stable_varintWithin? 9 hread more, hsize⟩

theorem stable_take? (n : Nat) : Stable (take? n) := by
  intro bytes rest taken h more
  simp only [take?] at h ⊢
  split at h
  case isTrue hlength =>
    have hn : n ≤ bytes.length := by
      rw [List.length_take] at hlength
      omega
    obtain ⟨rfl, rfl⟩ := Prod.mk.inj (Option.some.inj h)
    rw [List.take_append_of_le_length hn, List.drop_append_of_le_length hn, if_pos hlength]
  case isFalse => cases h

theorem stable_payload? (number wireType : Nat) : Stable (payload? number wireType) := by
  unfold payload?
  split
  case h_1 => exact stable_varint?.map fun n => Item.whole number (.varint n)
  case h_2 => exact (stable_take? 8).map fun taken => Item.whole number (.eightBytes taken)
  case h_3 => exact stable_varint?.bind fun l => (stable_take? l).map fun taken => Item.whole number (.blob taken)
  case h_4 => exact stable_pure _
  case h_5 => exact stable_pure _
  case h_6 => exact (stable_take? 4).map fun taken => Item.whole number (.fourBytes taken)
  case h_7 => exact stable_none

theorem stable_item? : Stable item? := by
  have hpayload (key : Nat) : Stable fun bytes =>
      if key < UInt32.size ∧ key / 8 ≠ 0 then payload? (key / 8) (key % 8) bytes else none := by
    split
    case isTrue => exact stable_payload? _ _
    case isFalse => exact stable_none
  exact stable_varint?.bind hpayload

/-! ## All items -/

theorem items?_append {bytes : Bytes} {items : List Item} (more : Bytes) (h : items? bytes = some items) :
    items? (bytes ++ more) = (items? more).map (items ++ ·) := by
  fun_induction items? bytes generalizing items with
  | case1 bytes hempty =>
    obtain rfl := List.isEmpty_iff.1 hempty
    obtain rfl := Option.some.inj h
    simp
  | case2 => cases h
  | case3 bytes hne item rest hitem ih =>
    obtain ⟨others, hothers, rfl⟩ := Option.map_eq_some_iff.1 h
    rw [items?_of_item? (stable_item? hitem more), ih hothers, Option.map_map]
    rfl

/-- Where all groups are closed, what follows stands outside of all groups. -/
theorem closeGroups_append {groups : List OpenGroup} {items : List Item} {fields : List (Nat × Payload)}
    (more : List Item) (h : closeGroups groups items = some fields) :
    closeGroups groups (items ++ more) = (closeGroups [] more).map (fields ++ ·) := by
  fun_induction closeGroups groups items generalizing fields with
  | case1 =>
    obtain rfl := Option.some.inj h
    simp
  | case2 => cases h
  | case3 number payload rest ih =>
    obtain ⟨others, hothers, rfl⟩ := Option.map_eq_some_iff.1 h
    rw [List.cons_append, closeGroups, ih hothers, Option.map_map]
    rfl
  | case4 g outer _ _ rest ih => rw [List.cons_append, closeGroups, ih h]
  | case5 number rest ih => rw [List.cons_append, closeGroups, ih h]
  | case6 g outer number rest ih => rw [List.cons_append, closeGroups, ih h]
  | case7 => cases h
  | case8 g rest ih =>
    obtain ⟨others, hothers, rfl⟩ := Option.map_eq_some_iff.1 h
    rw [List.cons_append, closeGroups, if_pos rfl, ih hothers, Option.map_map]
    rfl
  | case9 => cases h
  | case10 g parent outer rest ih => rw [List.cons_append, closeGroups, if_pos rfl, ih h]
  | case11 => cases h

theorem fields?_append {bytes : Bytes} {fields : List (Nat × Payload)} (more : Bytes)
    (h : fields? bytes = some fields) : fields? (bytes ++ more) = (fields? more).map (fields ++ ·) := by
  obtain ⟨items, hitems, h⟩ := Option.bind_eq_some_iff.1 h
  rw [fields?, items?_append more hitems, Option.bind_map, fields?, Option.map_bind]
  exact congrArg _ (funext fun rest => closeGroups_append rest h)

/-! ## Messages -/

section
variable {bytes : Bytes} {t : MessageType} {tree : Tree} (more : Bytes)

theorem decodeWith_append {budget : Nat} {inner : MessageType → Bytes → Option Tree}
    (h : decodeWith budget inner t bytes = some tree) :
    decodeWith budget inner t (bytes ++ more) = (decodeWith budget inner t more).map (tree ++ ·) := by
  obtain ⟨fields, hfields, h⟩ := Option.bind_eq_some_iff.1 h
  obtain ⟨parts, hparts, h⟩ := Option.bind_eq_some_iff.1 h
  obtain rfl := Option.some.inj h
  unfold decodeWith
  rw [fields?_append more hfields]
  cases fields? more with
  | none => rfl
  | some others =>
    simp only [Option.map_some, Option.bind_eq_bind, Option.bind_some, List.mapM_append, hparts]
    cases others.mapM (fun f => decodeField budget inner t f.1 f.2) <;> simp

/-- A message may be followed by another of its type: the fields of both are read, one after the other. -/
theorem decode_append {budget : Nat} (h : decode budget t bytes = some tree) :
    decode budget t (bytes ++ more) = (decode budget t more).map (tree ++ ·) := by
  cases budget with
  | zero => exact decodeWith_append more h
  | succ budget => exact decodeWith_append more h

end

theorem Tree.messages_append (t t' : Tree) (number : Nat) :
    Tree.messages (t ++ t') number = t.messages number ++ t'.messages number :=
  List.filterMap_append

end ProtoSchema.Wire
