import ProtoSchema.Catalog.Reach
import ProtoSchema.ConversionError
/-!
# Messages with their references followed

The schema of a message holds the schemas of all messages that its fields
refer to, so every reference has to be followed, and none may lead back to a
message that is being entered. `expand` does this on declarations alone, before
any node is made: which references it follows, and the first field at which it
fails, depend neither on options nor on comments.
-/

namespace ProtoSchema

mutual

/-- The fields of a message in order, each with what is behind it. -/
inductive Expansion where
  | done
  | field (field : Field) (content : Content) (rest : Expansion)

/-- What is behind a field: a plain value, a choice among numbers, or a message found in some
scope, with its own fields. -/
inductive Content where
  | value (kind : Schema.Kind)
  | choice
  | record (target : Declaration) (scope : Scope) (fields : Expansion)

end

namespace Catalog

mutual

/-- The fields of `owner`, declared in `scope`, where `path` holds the places of the messages
that are being entered. -/
def expand (c : Catalog) (path : List Place) (scope : Scope) (owner : Message) :
    List Field → Except ConversionError Expansion
  | [] => .ok .done
  | f :: rest => do
    let content ← c.content path scope owner f
    let others ← c.expand path scope owner rest
    return .field f content others
termination_by fields => (c.unvisited path, fields.length)

def content (c : Catalog) (path : List Place) (scope : Scope) (owner : Message) (f : Field) :
    Except ConversionError Content :=
  match f.kind.role with
  | .value kind => .ok (.value kind)
  | .choice => .ok .choice
  | .none => .error (.unrecognizedKind f.name owner.name f.kind)
  | .record =>
    match _found : c.lookup scope f.typeName with
    | none => .error (.unresolvedReference f.typeName f.name owner.name)
    | some (target, inner) =>
      if _entered : target.place ∈ path then
        .error (.cyclicReference f.typeName f.name owner.name)
      else
        (c.expand (target.place :: path) inner target.message target.message.fields).map
          (.record target inner)
termination_by (c.unvisited path, 0)
decreasing_by exact Prod.Lex.left _ _ (unvisited_lt (lookup_mem _found) _entered)

end

/-- A message filed in `scope` with all its fields. -/
def expandMessage (c : Catalog) (scope : Scope) (d : Declaration) :
    Except ConversionError Expansion :=
  c.expand [d.place] scope d.message d.message.fields

end Catalog
end ProtoSchema
