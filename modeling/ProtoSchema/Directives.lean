import ProtoSchema.Comments
import ProtoSchema.Dictionary
import ProtoSchema.Text.Case
/-!
# Directives in comments

A comment line may hold tags such as `@min=3` or `@required`. The text before
the first `@` is prose, and a piece with `//` in it is no tag. A tag's value is
all that follows its first `=`; a tag without one has the value `true`. Keys
are compared in small letters, and of two tags with one key the later counts.
-/

namespace ProtoSchema

open Text

/-- A tag as written, without blanks around its key and its value. -/
structure Tag where
  key : String
  value : String
deriving DecidableEq, Repr

namespace Tag

def hasSlashes : List Char → Bool
  | '/' :: '/' :: _ => true
  | _ :: rest => hasSlashes rest
  | [] => false

/-- The tag in a piece of a line between two `@`. -/
def ofPiece? (piece : List Char) : Option Tag :=
  let text := trim piece
  if hasSlashes piece || text.isEmpty then none
  else match text.dropWhile (· != '=') with
    | [] => some ⟨String.ofList text, "true"⟩
    | _ :: value =>
      some ⟨String.ofList (trim (text.takeWhile (· != '='))), String.ofList (trim value)⟩

def ofLine (line : String) : List Tag := ((line.toList.splitOn '@').drop 1).filterMap ofPiece?

end Tag

/-- Values by key, where the keys are in small letters. -/
structure Directives where
  entries : Dictionary String
deriving Repr

namespace Directives

def empty : Directives := ⟨Dictionary.empty⟩

def insert (d : Directives) (key value : String) : Directives :=
  ⟨d.entries.insert (lowercase key) value⟩

/-- The value of a key that is in small letters. -/
def value? (d : Directives) (key : String) : Option String := d.entries.get? key

/-- The value of a key, however it is spelled. -/
def get? (d : Directives) (key : String) : Option String := d.value? (lowercase key)

def contains (d : Directives) (key : String) : Bool := (d.get? key).isSome

def size (d : Directives) : Nat := d.entries.size

def isEmpty (d : Directives) : Bool := d.entries.isEmpty

def addTags (d : Directives) (tags : List Tag) : Directives :=
  tags.foldl (fun d t => d.insert t.key t.value) d

def addLine (d : Directives) (line : String) : Directives := d.addTags (Tag.ofLine line)

/-- The directives of a declaration; one without comments has none. -/
def ofComments (c : Option Comments) : Directives :=
  (c.toList.flatMap Comments.lines).foldl addLine empty

/-- The value of the first key that is present, among keys in small letters. -/
def first? (d : Directives) (keys : List String) : Option String := keys.findSome? d.value?

/-- Some key is present, among keys in small letters. -/
def mentions (d : Directives) (keys : List String) : Bool := (d.first? keys).isSome

end Directives
end ProtoSchema
