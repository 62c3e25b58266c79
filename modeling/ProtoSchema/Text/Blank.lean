import ProtoSchema.Text.Runs
/-!
# Blank characters

Blank means the property White_Space, which holds for the line and paragraph
separators and the no-break space, but not for the zero-width characters.
`trim` takes blank characters off both ends.
-/

namespace ProtoSchema.Text

/-- The property White_Space. -/
def blankRuns : List Run :=
  [⟨0x9, 0xD, 1⟩, ⟨0x20, 0x20, 1⟩, ⟨0x85, 0x85, 1⟩, ⟨0xA0, 0xA0, 1⟩, ⟨0x1680, 0x1680, 1⟩,
   ⟨0x2000, 0x200A, 1⟩, ⟨0x2028, 0x2029, 1⟩, ⟨0x202F, 0x202F, 1⟩, ⟨0x205F, 0x205F, 1⟩,
   ⟨0x3000, 0x3000, 1⟩]

def isBlank (c : Char) : Bool := inRuns c.toNat blankRuns

def trimStart (cs : List Char) : List Char := cs.dropWhile isBlank

def trimEnd (cs : List Char) : List Char := (cs.reverse.dropWhile isBlank).reverse

def trim (cs : List Char) : List Char := trimEnd (trimStart cs)

/-- The trimmed text, unless nothing is left of it. -/
def content? (s : String) : Option String :=
  let cs := trim s.toList
  if cs.isEmpty then none else some (String.ofList cs)

end ProtoSchema.Text
