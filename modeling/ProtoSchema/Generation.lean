import ProtoSchema.LoadError
import ProtoSchema.Schema.Conversion
import ProtoSchema.Schema.Document
/-!
# Documents for files

Each top-level message of a file has a document of its own; a file that
declares only enumerations has one for each of those. The references of a
message may lead into any file of the set. `generate` answers the documents of
several files in the order of their names, or the first error on the way.
-/

namespace ProtoSchema

inductive GenerationError where
  | load (error : LoadError)
  | conversion (file : String) (error : ConversionError)
deriving DecidableEq, Repr

namespace GenerationError

def message : GenerationError → String
  | load error => error.message
  | conversion file error => file ++ ": " ++ error.message

def exitCode : GenerationError → Nat
  | load error => error.exitCode
  | conversion _ _ => 2

end GenerationError

/-- A document and the name under which it is written. -/
structure Output where
  name : String
  schema : Schema.Node

namespace Output

def document (o : Output) : Json := o.schema.toDocument

def render (o : Output) (indented : Bool) : String := o.document.render indented

/-- The document beside its name, as one element of a listing. -/
def toJson (o : Output) : Json := .obj [("name", .str o.name), ("content", o.document)]

end Output

/-- The top-level messages of the file at position `i` of a set. -/
def File.declarations (f : File) (i : Nat) : List Declaration :=
  f.messages.mapIdx fun j m => ⟨[i, j], m⟩

def File.outputName (f : File) (o : Options) (typeName : String) : String :=
  if o.prefixSchemaFilesWithPackage && f.packageName != "" then
    f.packageName ++ "/" ++ typeName ++ ".jsonschema"
  else
    typeName ++ ".jsonschema"

namespace Catalog

/-- Files the messages of a file, which stands at position `i`, under its package. -/
def addFile (c : Catalog) (f : File) (i : Nat) : Catalog :=
  (f.declarations i).foldl (fun c d => c.insert f.packageName d) c

def ofFiles (files : List File) : Catalog :=
  files.zipIdx.foldl (fun c e => c.addFile e.1 e.2) empty

end Catalog

namespace Generation

/-- The document of one top-level message. -/
def messageOutput (c : Catalog) (o : Options) (f : File) (scope : Scope) (d : Declaration) :
    Except GenerationError Output :=
  match Schema.ofMessage c o scope d f.enums with
  | .ok node => .ok ⟨f.outputName o d.message.name, node⟩
  | .error e => .error (.conversion f.name e)

/-- The documents of the file at position `i`. -/
def fileOutputs (c : Catalog) (o : Options) (f : File) (i : Nat) :
    Except GenerationError (List Output) :=
  if f.messages.isEmpty then
    .ok (f.enums.map fun e => ⟨f.outputName o e.name, .ofEnum e⟩)
  else
    (f.declarations i).mapM
      (messageOutput c o f ((c.enter [] f.packageName).getD []))

/-- The documents of the first file with a name. -/
def namedOutputs (c : Catalog) (files : List File) (o : Options) (name : String) :
    Except GenerationError (List Output) :=
  match files.zipIdx.find? fun e => e.1.name = name with
  | some (f, i) => fileOutputs c o f i
  | none => .error (.load (.unknownFile name))

def allOutputs (c : Catalog) (files : List File) (o : Options) :
    List String → Except GenerationError (List Output)
  | [] => .ok []
  | name :: rest => do
    let outputs ← namedOutputs c files o name
    let others ← allOutputs c files o rest
    return outputs ++ others

end Generation

def outputsOf (files : List File) (o : Options) (name : String) :
    Except GenerationError (List Output) :=
  Generation.namedOutputs (.ofFiles files) files o name

def generate (files : List File) (o : Options) (names : List String) :
    Except GenerationError (List Output) :=
  Generation.allOutputs (.ofFiles files) files o names

end ProtoSchema
