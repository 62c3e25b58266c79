import ProtoSchema.Catalog.Basic
/-!
# Names in scope

A type name with a leading dot is read from the outermost scope; any other is
tried in the current scope and then in each scope around it. Within a scope the
first part of a dotted name is an inner scope if there is one, and else a
message whose nested messages the other parts name.
-/

namespace ProtoSchema.Catalog

/-- What the parts of a name stand for in the outermost scope of a catalog, and the scope in
which that is declared. -/
def resolve (c : Catalog) : List String → Option (Declaration × Scope)
  | [] => none
  | [name] => if name = "" then none else (c.types.get? name).map (·, [])
  | name :: rest =>
    match c.inner.get? name with
    | some scope => (scope.resolve rest).map fun (d, s) => (d, name :: s)
    | none => ((c.types.get? name).bind (·.descend rest)).map (·, [])

/-- What the parts of a name stand for in the innermost scope that knows them, among a scope and
those around it. -/
def resolveOutward (c : Catalog) (parts : List String) : Scope → Option (Declaration × Scope)
  | [] => c.resolve parts
  | name :: rest =>
    ((c.inner.get? name).bind fun scope =>
      (scope.resolveOutward parts rest).map fun (d, s) => (d, name :: s)) <|> c.resolve parts

/-- The message that a type name written in the scope `current` refers to, and the scope in
which it is declared. -/
def lookup (c : Catalog) (current : Scope) (typeName : String) : Option (Declaration × Scope) :=
  match typeName.toList with
  | '.' :: absolute => c.resolve (segments (String.ofList absolute))
  | _ => c.resolveOutward (segments typeName) current

/-- The scope that a package name leads to from `start`. -/
def enter (c : Catalog) (start : Scope) (package : String) : Option Scope :=
  let s := start ++ .ofPackage package
  if c.contains s then some s else none

end ProtoSchema.Catalog
