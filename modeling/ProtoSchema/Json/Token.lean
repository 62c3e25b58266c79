import ProtoSchema.Json.Value
import ProtoSchema.Text.Decimal
/-!
# The tokens of a JSON text

A text is read character by character; what has been read of the token at hand
is the state between two of them. The characters of a string are kept as
written until its closing quote and then unescaped, in two steps, since two
escapes may stand for one character outside the basic plane.
-/

namespace ProtoSchema.Json

inductive Token where
  | openArray
  | closeArray
  | openObject
  | closeObject
  | comma
  | colon
  | null
  | bool (b : Bool)
  | num (n : Int)
  | str (s : String)
deriving DecidableEq, Repr

/-! ## Strings -/

/-- A character as it stands, or the number of an escape with four digits. -/
inductive Piece where
  | char (c : Char)
  | unit (n : Nat)

def hexValue? (c : Char) : Option Nat :=
  if '0' ≤ c ∧ c ≤ '9' then some (c.toNat - 48)
  else if 'a' ≤ c ∧ c ≤ 'f' then some (c.toNat - 87)
  else if 'A' ≤ c ∧ c ≤ 'F' then some (c.toNat - 55)
  else none

def hexNumber? (a b c d : Char) : Option Nat := do
  return ((← hexValue? a) * 16 + (← hexValue? b)) * 256 + (← hexValue? c) * 16 + (← hexValue? d)

/-- The character that a backslash and `c` stand for. -/
def unescaped? (c : Char) : Option Char :=
  if c = '"' ∨ c = '\\' ∨ c = '/' then some c
  else if c = 'b' then some '\x08'
  else if c = 'f' then some '\x0c'
  else if c = 'n' then some '\n'
  else if c = 'r' then some '\r'
  else if c = 't' then some '\t'
  else none

def pieces? : List Char → Option (List Piece)
  | [] => some []
  | '\\' :: 'u' :: a :: b :: c :: d :: rest => do
    return .unit (← hexNumber? a b c d) :: (← pieces? rest)
  | '\\' :: c :: rest => do return .char (← unescaped? c) :: (← pieces? rest)
  | c :: rest => if c = '\\' then none else (pieces? rest).map (.char c :: ·)

def isHighHalf (n : Nat) : Bool := 0xD800 ≤ n && n < 0xDC00

def isLowHalf (n : Nat) : Bool := 0xDC00 ≤ n && n < 0xE000

/-- Joins the two halves of a character; a half without its partner is refused. -/
def joined? : List Piece → Option (List Char)
  | [] => some []
  | .char c :: rest => (joined? rest).map (c :: ·)
  | .unit h :: .unit l :: rest =>
    if isHighHalf h then
      if isLowHalf l then
        (joined? rest).map (Char.ofNat (0x10000 + (h - 0xD800) * 0x400 + (l - 0xDC00)) :: ·)
      else none
    else if isLowHalf h then none
    else (joined? (.unit l :: rest)).map (Char.ofNat h :: ·)
  | .unit n :: rest =>
    if isHighHalf n || isLowHalf n then none else (joined? rest).map (Char.ofNat n :: ·)

/-! ## Words and marks -/

/-- A literal name, or a number without leading zeros and without a fraction. -/
def word? (cs : List Char) : Option Token :=
  if cs = "null".toList then some .null
  else if cs = "true".toList then some (.bool true)
  else if cs = "false".toList then some (.bool false)
  else (Decimal.read? cs).bind fun n => if Decimal.write n = cs then some (.num n) else none

def mark? (c : Char) : Option Token :=
  if c = '[' then some .openArray
  else if c = ']' then some .closeArray
  else if c = '{' then some .openObject
  else if c = '}' then some .closeObject
  else if c = ',' then some .comma
  else if c = ':' then some .colon
  else none

def isBlank (c : Char) : Bool := c = ' ' || c = '\n' || c = '\r' || c = '\t'

/-- What has been read of the token at hand, last character first. -/
inductive Scan where
  | between
  | word (read : List Char)
  | string (read : List Char)
  | escape (read : List Char)

/-- A character where no token is at hand. -/
def start (c : Char) : List Token × Scan :=
  if isBlank c then ([], .between)
  else if c = '"' then ([], .string [])
  else match mark? c with
    | some t => ([t], .between)
    | none => ([], .word [c])

def step : Scan → Char → Option (List Token × Scan)
  | .between, c => some (start c)
  | .word read, c =>
    if c.isAlphanum || c = '-' || c = '+' || c = '.' then some ([], .word (c :: read))
    else (word? read.reverse).map fun t => (t :: (start c).1, (start c).2)
  | .string read, c =>
    if c = '"' then
      ((pieces? read.reverse).bind joined?).map fun cs => ([.str (String.ofList cs)], .between)
    else if c = '\\' then some ([], .escape read)
    else if c.toNat < 0x20 then none
    else some ([], .string (c :: read))
  | .escape read, c => some ([], .string (c :: '\\' :: read))

def finish : Scan → Option (List Token)
  | .between => some []
  | .word read => (word? read.reverse).map ([·])
  | _ => none

/-- The tokens of a text, after those in `done`, which holds the last one first. -/
def scan (done : List Token) : Scan → List Char → Option (List Token)
  | s, [] => (finish s).map (done.reverse ++ ·)
  | s, c :: rest =>
    match step s c with
    | some (ts, s') => scan (ts.reverse ++ done) s' rest
    | none => none

def tokens? (cs : List Char) : Option (List Token) := scan [] .between cs

end ProtoSchema.Json
