import ProtoSchema.Json.Value
import ProtoSchema.Text.Decimal
/-!
# The two texts of a JSON value

The compact text has no blanks at all. The pretty text puts each element and
each member on a line of its own, indented by two spaces a level, and ends
without a line break. A string escapes the quote, the backslash and the
control characters below the space, and nothing else.
-/

namespace ProtoSchema.Json

/-- A digit of base sixteen, in small letters. -/
def hexDigit (n : Nat) : Char := Nat.digitChar (n % 16)

def escapeChar (c : Char) : List Char :=
  if c = '"' then ['\\', '"']
  else if c = '\\' then ['\\', '\\']
  else if c = '\x08' then ['\\', 'b']
  else if c = '\t' then ['\\', 't']
  else if c = '\n' then ['\\', 'n']
  else if c = '\x0c' then ['\\', 'f']
  else if c = '\r' then ['\\', 'r']
  else if c.toNat < 0x20 then ['\\', 'u', '0', '0', hexDigit (c.toNat / 16), hexDigit c.toNat]
  else [c]

def quoted (s : String) : List Char := '"' :: (s.toList.flatMap escapeChar ++ ['"'])

/-- A text for each value without parts of its own. -/
def constant (b : Bool) : List Char := if b then "true".toList else "false".toList

/-- How the parts of a value are set apart. -/
inductive Layout where
  | compact
  | pretty
deriving DecidableEq, Repr

namespace Layout

/-- What stands in front of a part at some level: a line break and the indentation of the level,
or nothing. -/
def newline : Layout → Nat → List Char
  | compact, _ => []
  | pretty, level => '\n' :: List.replicate (2 * level) ' '

/-- What stands between a key and its value. -/
def colon : Layout → List Char
  | compact => [':']
  | pretty => [':', ' ']

end Layout

mutual

/-- The text of a value at some level, with `rest` after it. -/
def write (l : Layout) (level : Nat) (rest : List Char) : Json → List Char
  | .null => "null".toList ++ rest
  | .bool b => constant b ++ rest
  | .num n => Decimal.write n ++ rest
  | .str s => quoted s ++ rest
  | .arr [] => '[' :: ']' :: rest
  | .arr (j :: more) =>
    '[' :: (l.newline (level + 1) ++ write l (level + 1) (writeElements l level rest more) j)
  | .obj [] => '{' :: '}' :: rest
  | .obj ((key, j) :: more) =>
    '{' :: (l.newline (level + 1) ++ (quoted key ++ (l.colon
      ++ write l (level + 1) (writeMembers l level rest more) j)))

/-- The elements of an array after its first, up to its end. -/
def writeElements (l : Layout) (level : Nat) (rest : List Char) : List Json → List Char
  | [] => l.newline level ++ ']' :: rest
  | j :: more =>
    ',' :: (l.newline (level + 1) ++ write l (level + 1) (writeElements l level rest more) j)

/-- The members of an object after its first, up to its end. -/
def writeMembers (l : Layout) (level : Nat) (rest : List Char) : List (String × Json) → List Char
  | [] => l.newline level ++ '}' :: rest
  | (key, j) :: more =>
    ',' :: (l.newline (level + 1) ++ (quoted key ++ (l.colon
      ++ write l (level + 1) (writeMembers l level rest more) j)))

end

def compact (j : Json) : String := String.ofList (j.write .compact 0 [])

def pretty (j : Json) : String := String.ofList (j.write .pretty 0 [])

/-- The pretty or the compact text. -/
def render (j : Json) (indented : Bool) : String := if indented then j.pretty else j.compact

end ProtoSchema.Json
