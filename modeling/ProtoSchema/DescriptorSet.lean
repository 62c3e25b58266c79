import ProtoSchema.Descriptor
import ProtoSchema.LoadError
import ProtoSchema.Record
/-!
# Loading descriptors

A declaration is found in its file by a path: for each step inwards the number
of the list that it is in, then its position there. A location belongs to the
declaration whose path it has, exactly; of two with one path the last counts.
What a record leaves out is read as empty or zero, and a field without a JSON
name gets the one made from its name.
-/

namespace ProtoSchema

namespace Record

/-- The steps from a file or a message to what is declared in it. -/
inductive Step where
  | fileMessage
  | fileEnum
  | messageField
  | nestedMessage
  | messageEnum
  | enumValue
deriving DecidableEq, Repr

/-- The number of the list that a step leads into. -/
def Step.number : Step → Int32
  | fileMessage => 4
  | fileEnum => 5
  | messageField => 2
  | nestedMessage => 3
  | messageEnum => 4
  | enumValue => 2

/-- The path of what stands at position `i` of a list. -/
def child (path : List Int32) (step : Step) (i : Nat) : List Int32 :=
  path ++ [step.number, Int32.ofNat i]

def Location.comments (l : Location) : Comments := ⟨l.leading, l.trailing, l.detached⟩

def commentsAt (locations : List Location) (path : List Int32) : Option Comments :=
  (locations.filter (·.path = path)).getLast?.map Location.comments

def Field.label (f : Field) : Label :=
  if f.labelNumber = some 2 then .required
  else if f.labelNumber = some 3 then .repeated
  else .optional

def Field.resolve (locations : List Location) (path : List Int32) (f : Field) :
    ProtoSchema.Field where
  name := f.name.getD ""
  jsonName := f.jsonName.getD (Identifier.lowerCamelCase (f.name.getD ""))
  number := f.number.getD 0
  kind := FieldKind.ofNumber (f.type.getD 0)
  label := f.label
  typeName := f.typeName.getD ""
  comments := commentsAt locations path

def EnumValue.resolve (locations : List Location) (path : List Int32) (v : EnumValue) :
    ProtoSchema.EnumValue where
  name := v.name.getD ""
  number := v.number.getD 0
  comments := commentsAt locations path

def Enum.resolve (locations : List Location) (path : List Int32) (e : Enum) :
    ProtoSchema.Enum where
  name := e.name.getD ""
  values := e.values.mapIdx fun i v => v.resolve locations (child path .enumValue i)
  comments := commentsAt locations path

namespace Message

mutual

def resolve (locations : List Location) (path : List Int32) : Message → ProtoSchema.Message
  | ⟨name, fields, nested, enums, mapEntry⟩ => {
      name := name.getD ""
      fields := fields.mapIdx fun i f => f.resolve locations (child path .messageField i)
      nested := resolveFrom locations path .nestedMessage 0 nested
      enums := enums.mapIdx fun i e => e.resolve locations (child path .messageEnum i)
      mapEntry := mapEntry.getD false
      comments := commentsAt locations path }

/-- The messages of a list that a step leads into, `i` being the position of its head. -/
def resolveFrom (locations : List Location) (path : List Int32) (step : Step) (i : Nat) :
    List Message → List ProtoSchema.Message
  | [] => []
  | m :: rest =>
    m.resolve locations (child path step i) :: resolveFrom locations path step (i + 1) rest

end
end Message

/-- The file that a record describes, each declaration with its comments. -/
def File.resolve (f : File) : ProtoSchema.File where
  name := f.name.getD ""
  package := f.package
  messages := Message.resolveFrom f.locations [] .fileMessage 0 f.messages
  enums := f.enums.mapIdx fun i e => e.resolve f.locations (child [] .fileEnum i)

end Record

/-- The files in one field of a decoded message. -/
def filesIn (t : Wire.Tree) (number : Nat) : List File :=
  (t.messages number).map fun m => (Record.File.ofTree m).resolve

namespace DescriptorSet

/-- The files of a descriptor set, if the bytes are one. -/
def files? (bytes : Bytes) : Option (List File) := (Wire.tree? .fileSet bytes).map (filesIn · 1)

/-- The files of a descriptor set, which the bytes of two sets one after the other give in turn. -/
def ofBytes (refusal : Wire.Refusal) (bytes : Bytes) : Except LoadError (List File) :=
  match files? bytes with
  | some files => .ok files
  | none => .error (.malformed (refusal .fileSet bytes))

variable {refusal : Wire.Refusal} {bytes : Bytes}

theorem ofBytes_eq_ok_iff {files : List File} : ofBytes refusal bytes = .ok files ↔ files? bytes = some files := by
  unfold ofBytes
  cases files? bytes <;> simp

/-- Bytes that are no descriptor set are refused in the words of the decoder. -/
theorem ofBytes_of_tree?_eq_none (h : Wire.tree? .fileSet bytes = none) :
    ofBytes refusal bytes = .error (.malformed (refusal .fileSet bytes)) := by
  rw [ofBytes, files?, h]
  rfl

end DescriptorSet

end ProtoSchema
