import ProtoSchema.Text.CaseTables
/-!
# Changing case

`upper` and `lower` give the full forms of one character, which may be
several. In a text the small form of a capital sigma depends on its place: at
the end of a word it is written `ς`.
-/

namespace ProtoSchema.Text

def isUpper (c : Char) : Bool := inRuns c.toNat uppercaseRuns

def isLower (c : Char) : Bool := inRuns c.toNat lowercaseRuns

def isCased (c : Char) : Bool := isUpper c || isLower c || inRuns c.toNat titlecaseRuns

def isCaseIgnorable (c : Char) : Bool := inRuns c.toNat caseIgnorableRuns

/-- The capital form of a character, never empty. -/
def upper (c : Char) : List Char :=
  match upperExpansions.lookup c.toNat with
  | some (head, tail) => Char.ofNat head :: tail.map Char.ofNat
  | none => [Char.ofNat (shifted c.toNat upperShifts)]

/-- The small form of a character, never empty. -/
def lower (c : Char) : List Char :=
  if c = 'İ' then ['i', '\u0307'] else [Char.ofNat (shifted c.toNat lowerShifts)]

/-- The next character that counts for word ends is a letter with case. -/
def meetsCased (cs : List Char) : Bool := (cs.dropWhile isCaseIgnorable).head?.any isCased

/-- A capital sigma between `before`, nearest first, and `after` ends a word. -/
def endsWord (before after : List Char) : Bool := meetsCased before && !meetsCased after

def lowerFrom (before : List Char) : List Char → List Char
  | [] => []
  | c :: rest =>
    (if c = 'Σ' then [if endsWord before rest then 'ς' else 'σ'] else lower c)
      ++ lowerFrom (c :: before) rest

/-- A text in small letters. -/
def lowered (cs : List Char) : List Char := lowerFrom [] cs

def lowercase (s : String) : String := String.ofList (lowered s.toList)

end ProtoSchema.Text
