import ProtoSchema.Text.Blank
/-!
# Comments of a declaration

A declaration may have a comment before it, one after it, and blocks of
comments further up that belong to nothing else. `lines` reads them in the
order in which they stand, without blank ends and without blank lines.
-/

namespace ProtoSchema

structure Comments where
  leading : Option String
  trailing : Option String
  detached : List String
deriving DecidableEq, Repr

namespace Comments

def linesOf (s : String) : List String := (s.toList.splitOn '\n').map String.ofList

/-- The blocks, the leading comment line by line, and the trailing comment. -/
def lines (c : Comments) : List String :=
  c.detached.filterMap Text.content?
    ++ (c.leading.toList.flatMap linesOf).filterMap Text.content?
    ++ c.trailing.toList.filterMap Text.content?

/-- The leading comment, which names a value where there is one. -/
def label? (c : Comments) : Option String := c.leading.bind Text.content?

end Comments
end ProtoSchema
