import ProtoSchema.Wire.Field
import ProtoSchema.Wire.Layout
/-!
# Decoded messages

A tree holds the known fields of a message in the order in which they stand,
with the messages in it decoded in the same way. A field that occurs twice is
there twice; the views below say what that means: the last text or number
counts, and messages in one field are one message with the fields of all.

Every message inside another uses up one level of a budget, and so does every
group around an unknown field.
-/

namespace ProtoSchema.Wire

/-- The value of a known field. Bytes and floating-point numbers matter to nobody and are kept
as `raw`. -/
inductive Value where
  | text (s : String)
  | number (n : Nat)
  | raw
  | message (fields : List (Nat × Value))

abbrev Tree := List (Nat × Value)

/-- What a field holds, where `inner` decodes the messages in it and `budget` is left for
unknown fields. -/
def decodeField (budget : Nat) (inner : MessageType → Bytes → Option Tree) (t : MessageType)
    (number : Nat) (payload : Payload) : Option Tree :=
  match t.field? number, payload with
  | none, _ => if payload.height < budget then some [] else none
  | some .text, .blob bytes => bytes.text?.map fun s => [(number, .text s)]
  | some .blob, .blob _ => some [(number, .raw)]
  | some .number, .varint n => some [(number, .number n)]
  | some .numbers, .varint n => some [(number, .number n)]
  | some .numbers, .blob bytes => (varints? bytes).map (·.map fun n => (number, .number n))
  | some .double, .eightBytes _ => some [(number, .raw)]
  | some (.message type), .blob bytes =>
    (inner type bytes).map fun tree => [(number, .message tree)]
  | some _, _ => none

def decodeWith (budget : Nat) (inner : MessageType → Bytes → Option Tree) (t : MessageType)
    (bytes : Bytes) : Option Tree := do
  let fields ← fields? bytes
  let parts ← fields.mapM fun f => decodeField budget inner t f.1 f.2
  return parts.flatten

def decode : Nat → MessageType → Bytes → Option Tree
  | 0 => decodeWith 0 fun _ _ => none
  | budget + 1 => decodeWith (budget + 1) (decode budget)

/-- A message with the budget of the outermost level. -/
def tree? (t : MessageType) (bytes : Bytes) : Option Tree := decode 100 t bytes

/-- What a decoder says of bytes that are no message of a type. Which bytes these are is settled by `tree?`; the words
are the decoder's own, and nothing is known of them here. -/
abbrev Refusal := MessageType → Bytes → String

namespace Tree

def texts (t : Tree) (number : Nat) : List String :=
  t.filterMap fun
    | (n, .text s) => if n = number then some s else none
    | _ => none

def numbers (t : Tree) (number : Nat) : List Nat :=
  t.filterMap fun
    | (n, .number v) => if n = number then some v else none
    | _ => none

def messages (t : Tree) (number : Nat) : List Tree :=
  t.filterMap fun
    | (n, .message m) => if n = number then some m else none
    | _ => none

def text? (t : Tree) (number : Nat) : Option String := (t.texts number).getLast?

def number? (t : Tree) (number : Nat) : Option Nat := (t.numbers number).getLast?

/-- The low 32 bits of a number, with a sign. -/
def word? (t : Tree) (number : Nat) : Option Int32 := (t.number? number).map Int32.ofNat

def flag? (t : Tree) (number : Nat) : Option Bool := (t.number? number).map (· != 0)

/-- The messages of a field as one; without any it has no fields. -/
def merged (t : Tree) (number : Nat) : Tree := (t.messages number).flatten

end Tree
end ProtoSchema.Wire
