import ProtoSchema.Wire.Tree
/-!
# Descriptors as transmitted

A record says what the bytes of a descriptor say, and no more: names and
numbers may be missing, and comments stand in a table of locations beside the
declarations, under the path of the declaration that they belong to.
-/

namespace ProtoSchema.Record

open Wire (Tree Value)

structure Location where
  path : List Int32
  leading : Option String
  trailing : Option String
  detached : List String
deriving DecidableEq, Repr

structure Field where
  name : Option String
  number : Option Int32
  labelNumber : Option Int32
  type : Option Int32
  typeName : Option String
  jsonName : Option String
deriving DecidableEq, Repr

structure EnumValue where
  name : Option String
  number : Option Int32
deriving DecidableEq, Repr

structure Enum where
  name : Option String
  values : List EnumValue
deriving DecidableEq, Repr

structure Message where
  name : Option String
  fields : List Field
  nested : List Message
  enums : List Enum
  mapEntry : Option Bool
deriving Repr, Inhabited

structure File where
  name : Option String
  package : Option String
  messages : List Message
  enums : List Enum
  locations : List Location
deriving Repr

def Location.ofTree (t : Tree) : Location where
  path := (t.numbers 1).map Int32.ofNat
  leading := t.text? 3
  trailing := t.text? 4
  detached := t.texts 6

def Field.ofTree (t : Tree) : Field where
  name := t.text? 1
  number := t.word? 3
  labelNumber := t.word? 4
  type := t.word? 5
  typeName := t.text? 6
  jsonName := t.text? 10

def EnumValue.ofTree (t : Tree) : EnumValue where
  name := t.text? 1
  number := t.word? 2

def Enum.ofTree (t : Tree) : Enum where
  name := t.text? 1
  values := (t.messages 2).map EnumValue.ofTree

namespace Message

/-- A message, given those nested in it. -/
def ofParts (t : Tree) (nested : List Message) : Message where
  name := t.text? 1
  fields := (t.messages 2).map Field.ofTree
  nested
  enums := (t.messages 4).map Enum.ofTree
  mapEntry := (t.merged 7).flag? 7

mutual

def ofValue : Value → Message
  | .message t => ofParts t (inField 3 t)
  | _ => default

/-- The messages in one field of a tree. -/
def inField (number : Nat) : List (Nat × Value) → List Message
  | [] => []
  | (n, .message t) :: rest =>
    if n = number then ofValue (.message t) :: inField number rest else inField number rest
  | _ :: rest => inField number rest

end
end Message

def File.ofTree (t : Tree) : File where
  name := t.text? 1
  package := t.text? 2
  messages := Message.inField 4 t
  enums := (t.messages 5).map Enum.ofTree
  locations := ((t.merged 9).messages 1).map Location.ofTree

end ProtoSchema.Record
