import ProtoSchema.Wire.Varint
/-!
# The fields of one message

A message is a sequence of items, each a key and what the key announces. A
group stands between an opening and a closing item with the same number, and
only its height matters: how deep the groups in it go.
-/

namespace ProtoSchema.Wire

inductive Payload where
  | varint (n : Nat)
  | eightBytes (bytes : Bytes)
  | blob (bytes : Bytes)
  | fourBytes (bytes : Bytes)
  | group (height : Nat)
deriving DecidableEq, Repr

inductive Item where
  | whole (number : Nat) (payload : Payload)
  | opening (number : Nat)
  | closing (number : Nat)
deriving DecidableEq, Repr

/-- The first `n` bytes and the rest, if there are that many. -/
def take? (n : Nat) (bytes : Bytes) : Option (Bytes × Bytes) :=
  let taken := bytes.take n
  if taken.length = n then some (taken, bytes.drop n) else none

/-- What follows a key: the three low bits of the key are the wire type. -/
def payload? (number wireType : Nat) (bytes : Bytes) : Option (Item × Bytes) :=
  match wireType with
  | 0 => (varint? bytes).map fun r => (.whole number (.varint r.1), r.2)
  | 1 => (take? 8 bytes).map fun r => (.whole number (.eightBytes r.1), r.2)
  | 2 => (varint? bytes).bind fun l =>
      (take? l.1 l.2).map fun r => (.whole number (.blob r.1), r.2)
  | 3 => some (.opening number, bytes)
  | 4 => some (.closing number, bytes)
  | 5 => (take? 4 bytes).map fun r => (.whole number (.fourBytes r.1), r.2)
  | _ => none

def item? (bytes : Bytes) : Option (Item × Bytes) :=
  (varint? bytes).bind fun key =>
    if key.1 < UInt32.size ∧ key.1 / 8 ≠ 0 then payload? (key.1 / 8) (key.1 % 8) key.2 else none

theorem take?_le {n : Nat} {bytes taken rest : Bytes} (h : take? n bytes = some (taken, rest)) :
    rest.length ≤ bytes.length := by
  simp only [take?] at h
  split at h
  · obtain ⟨-, rfl⟩ := Prod.mk.inj (Option.some.inj h)
    simp
  · cases h

theorem payload?_le {number wireType : Nat} {bytes rest : Bytes} {item : Item}
    (h : payload? number wireType bytes = some (item, rest)) : rest.length ≤ bytes.length := by
  unfold payload? at h
  split at h
  · obtain ⟨⟨n, r⟩, hr, he⟩ := Option.map_eq_some_iff.1 h
    obtain ⟨-, rfl⟩ := Prod.mk.inj he
    exact Nat.le_of_lt (varint?_shorter hr)
  · obtain ⟨⟨n, r⟩, hr, he⟩ := Option.map_eq_some_iff.1 h
    obtain ⟨-, rfl⟩ := Prod.mk.inj he
    exact take?_le hr
  · obtain ⟨⟨l, tail⟩, hl, h⟩ := Option.bind_eq_some_iff.1 h
    obtain ⟨⟨n, r⟩, hr, he⟩ := Option.map_eq_some_iff.1 h
    obtain ⟨-, rfl⟩ := Prod.mk.inj he
    exact Nat.le_trans (take?_le hr) (Nat.le_of_lt (varint?_shorter hl))
  · obtain ⟨-, rfl⟩ := Prod.mk.inj (Option.some.inj h)
    exact Nat.le_refl _
  · obtain ⟨-, rfl⟩ := Prod.mk.inj (Option.some.inj h)
    exact Nat.le_refl _
  · obtain ⟨⟨n, r⟩, hr, he⟩ := Option.map_eq_some_iff.1 h
    obtain ⟨-, rfl⟩ := Prod.mk.inj he
    exact take?_le hr
  · cases h

theorem item?_shorter {bytes rest : Bytes} {item : Item} (h : item? bytes = some (item, rest)) :
    rest.length < bytes.length := by
  obtain ⟨⟨key, tail⟩, hk, h⟩ := Option.bind_eq_some_iff.1 h
  dsimp only at h
  split at h
  · exact Nat.lt_of_le_of_lt (payload?_le h) (varint?_shorter hk)
  · cases h

def items? (bytes : Bytes) : Option (List Item) :=
  if bytes.isEmpty then some []
  else match _h : item? bytes with
    | none => none
    | some (item, rest) => (items? rest).map (item :: ·)
termination_by bytes.length
decreasing_by exact item?_shorter _h

/-- A group that is open, with the height that it has so far. -/
structure OpenGroup where
  number : Nat
  height : Nat

def OpenGroup.raise (g : OpenGroup) (height : Nat) : OpenGroup :=
  { g with height := max g.height height }

/-- Closes groups against their openings, the innermost first, and keeps what stands outside of
all groups. -/
def closeGroups : List OpenGroup → List Item → Option (List (Nat × Payload))
  | [], [] => some []
  | _ :: _, [] => none
  | [], .whole number payload :: rest => (closeGroups [] rest).map ((number, payload) :: ·)
  | g :: outer, .whole _ _ :: rest => closeGroups (g.raise 1 :: outer) rest
  | [], .opening number :: rest => closeGroups [⟨number, 0⟩] rest
  | g :: outer, .opening number :: rest => closeGroups (⟨number, 0⟩ :: g.raise 1 :: outer) rest
  | [], .closing _ :: _ => none
  | [g], .closing number :: rest =>
    if number = g.number then (closeGroups [] rest).map ((number, .group g.height) :: ·) else none
  | g :: parent :: outer, .closing number :: rest =>
    if number = g.number then closeGroups (parent.raise (g.height + 1) :: outer) rest else none

/-- The fields of a message by number, in the order in which they stand. -/
def fields? (bytes : Bytes) : Option (List (Nat × Payload)) :=
  (items? bytes).bind (closeGroups [])

/-- How deep the groups of an unknown field go. -/
def Payload.height : Payload → Nat
  | .group height => height
  | _ => 0

/-! ## Writing -/

def writeKey (number wireType : Nat) : Bytes := writeVarint (8 * number + wireType)

def writeNumber (number n : Nat) : Bytes := writeKey number 0 ++ writeVarint n

def writeBlob (number : Nat) (bytes : Bytes) : Bytes :=
  writeKey number 2 ++ writeVarint bytes.length ++ bytes

def writeText (number : Nat) (s : String) : Bytes := writeBlob number (Bytes.ofText s)

end ProtoSchema.Wire
