import ProtoSchema.Directives
import ProtoSchema.Identifier
import ProtoSchema.Text.Decimal
/-!
# What comments say about a node

The annotations of a schema node are the attributes that the author of a
declaration controls through directives. `annotate` reads them off a set of
directives: a text is replaced, a flag is only ever set, and a bound that is no
number of its range leaves the one before. A node always ends with a title.
-/

namespace ProtoSchema.Schema

structure Annotations where
  title : Option String := none
  description : Option String := none
  format : Option String := none
  pattern : Option String := none
  minimum : Option Int := none
  maximum : Option Int := none
  minLength : Option Nat := none
  maxLength : Option Nat := none
  required : Bool := false
  primaryKey : Bool := false
  autoIncrement : Bool := false
  index : Bool := false
  query : Bool := false
deriving DecidableEq, Repr, Inhabited

namespace Annotations

/-- A title, where a missing or empty one is made from the name of the declaration. -/
def titled (identifier : String) : Option String → String
  | some title => if title.isEmpty then Identifier.splitCase identifier else title
  | none => Identifier.splitCase identifier

/-- The bound under `key`, or the one before where there is none that can be read. -/
def bound {α : Type} (read : List Char → Option α) (d : Directives) (key : String)
    (before : Option α) : Option α :=
  ((d.value? key).bind fun v => read v.toList) <|> before

/-- Bounds limit the value of an `integer` node and the length of any other. -/
def annotate (a : Annotations) (d : Directives) (integer : Bool) (identifier : String) :
    Annotations where
  title := titled identifier (d.first? ["title", "name"] <|> a.title)
  description := d.first? ["description", "desc"] <|> a.description
  format := d.first? ["format", "fmt"] <|> a.format
  pattern := d.value? "pattern" <|> a.pattern
  minimum := if integer then bound Decimal.readSigned? d "min" a.minimum else a.minimum
  maximum := if integer then bound Decimal.readSigned? d "max" a.maximum else a.maximum
  minLength := if integer then a.minLength else bound Decimal.readUnsigned? d "min" a.minLength
  maxLength := if integer then a.maxLength else bound Decimal.readUnsigned? d "max" a.maxLength
  required := a.required || d.mentions ["required", "index"]
  primaryKey := a.primaryKey || d.mentions ["id", "autoincrement"]
  autoIncrement := a.autoIncrement || d.mentions ["autoincrement"]
  index := a.index || d.mentions ["index"]
  query := a.query || d.mentions ["query"]

end Annotations
end ProtoSchema.Schema
