import ProtoSchema.Descriptor
/-!
# The catalog of messages

A catalog files messages under the packages that declare them. A package is a
scope, a list of names from the outermost inwards, and the catalog of a scope
holds the catalogs of the scopes inside it; so a scope is known together with
all scopes around it. A message is filed with the place where it was declared,
and the messages nested in it have places below its own, so that two
declarations with equal contents are still told apart.
-/

namespace ProtoSchema

/-- Where a declaration stands: positions from the outermost list inwards. -/
abbrev Place := List Nat

/-- A message and the place that identifies it. -/
structure Declaration where
  place : Place
  message : Message
deriving Repr

/-- The names of a package, from the outermost inwards. -/
abbrev Scope := List String

/-- The parts of a dotted name, empty ones included. -/
def segments (name : String) : List String := (name.toList.splitOn '.').map String.ofList

namespace Scope

/-- The names in a package; empty parts say nothing. -/
def ofPackage (package : String) : Scope := (segments package).filter (· ≠ "")

/-- Each name after a dot, so that the outermost scope has no name at all. -/
def fullName (s : Scope) : String := String.join (s.map ("." ++ ·))

end Scope

namespace Declaration

/-- The first message named `name` in a list, `i` being the position of its head. -/
def findIn (place : Place) (i : Nat) (name : String) : List Message → Option Declaration
  | [] => none
  | m :: rest =>
    if m.name = name then some ⟨place ++ [i], m⟩ else findIn place (i + 1) name rest

/-- The first nested message of a name. -/
def nested? (d : Declaration) (name : String) : Option Declaration :=
  findIn d.place 0 name d.message.nested

/-- Follows names through nested messages. -/
def descend (d : Declaration) (names : List String) : Option Declaration :=
  names.foldlM nested? d

end Declaration

mutual

/-- A message and all that are nested in it, at any depth. -/
def Message.declarations (place : Place) : Message → List Declaration
  | m@⟨_, _, nested, _, _, _⟩ => ⟨place, m⟩ :: Message.declarationsFrom place 0 nested

def Message.declarationsFrom (place : Place) (i : Nat) : List Message → List Declaration
  | [] => []
  | m :: rest => m.declarations (place ++ [i]) ++ Message.declarationsFrom place (i + 1) rest

end

def Declaration.all (d : Declaration) : List Declaration := d.message.declarations d.place

/-- The messages declared in a scope and the catalogs of the scopes inside it, by name. -/
structure Catalog where
  types : Dictionary Declaration
  inner : Dictionary Catalog

namespace Catalog

def empty : Catalog := ⟨.empty, .empty⟩

instance : Inhabited Catalog := ⟨empty⟩

/-- The catalog of the scope that some names lead to, if it is known. -/
def at? (c : Catalog) : Scope → Option Catalog
  | [] => some c
  | name :: rest => (c.inner.get? name).bind (·.at? rest)

def contains (c : Catalog) (s : Scope) : Bool := (c.at? s).isSome

/-- The message declared under a name in this very scope. -/
def type? (c : Catalog) (s : Scope) (name : String) : Option Declaration :=
  (c.at? s).bind (·.types.get? name)

/-- The names of the scopes directly inside `s`, in ascending order. -/
def children (c : Catalog) (s : Scope) : List String :=
  match c.at? s with
  | some scope => scope.inner.keys
  | none => []

/-- Files a message in a scope, in place of another of its name, and makes the scopes on the
way known. -/
def insertAt (d : Declaration) (c : Catalog) : Scope → Catalog
  | [] => { c with types := c.types.insert d.message.name d }
  | name :: rest =>
    { c with inner := c.inner.insert name (((c.inner.get? name).getD empty).insertAt d rest) }

def insert (c : Catalog) (package : String) (d : Declaration) : Catalog :=
  c.insertAt d (.ofPackage package)

mutual

/-- Every declaration that a look-up can reach. -/
def declarations : Catalog → List Declaration
  | ⟨types, ⟨inner⟩⟩ => types.values.flatMap Declaration.all ++ declarationsIn inner

def declarationsIn : List (String × Catalog) → List Declaration
  | [] => []
  | (_, c) :: rest => c.declarations ++ declarationsIn rest

end

end Catalog
end ProtoSchema
