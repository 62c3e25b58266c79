import ProtoSchema.DescriptorSet
import ProtoSchema.Generation
/-!
# Answering a compiler

A compiler sends every file that it has read, the names of those to generate
and a parameter, and takes back files or one error. A failed generation is an
answer like any other, so that the compiler can show what went wrong.
-/

namespace ProtoSchema.Plugin

structure Request where
  files : List File
  filesToGenerate : List String
  parameter : String

structure GeneratedFile where
  name : String
  content : String
deriving DecidableEq, Repr

structure Response where
  error : Option String
  supportedFeatures : Nat
  files : List GeneratedFile
deriving DecidableEq, Repr

def Request.ofBytes (refusal : Wire.Refusal) (bytes : Bytes) : Except LoadError Request :=
  match Wire.tree? .request bytes with
  | some t => .ok ⟨filesIn t 15, t.texts 1, (t.text? 2).getD ""⟩
  | none => .error (.malformed (refusal .request bytes))

/-- The feature that every answer declares: fields may be marked optional. -/
def optionalFields : Nat := 1

def Response.ofRequest (r : Request) (o : Options) : Response :=
  match generate r.files o r.filesToGenerate with
  | .ok outputs => ⟨none, optionalFields, outputs.map fun x => ⟨x.name, x.render true⟩⟩
  | .error e => ⟨some e.message, optionalFields, []⟩

def GeneratedFile.toBytes (f : GeneratedFile) : Bytes :=
  Wire.writeText 1 f.name ++ Wire.writeText 15 f.content

/-- The fields of a response in ascending order of their numbers. -/
def Response.toBytes (r : Response) : Bytes :=
  r.error.toList.flatMap (Wire.writeText 1)
    ++ Wire.writeNumber 2 r.supportedFeatures
    ++ r.files.flatMap fun f => Wire.writeBlob 15 f.toBytes

def GeneratedFile.ofTree (t : Wire.Tree) : GeneratedFile :=
  ⟨(t.text? 1).getD "", (t.text? 15).getD ""⟩

def Response.ofBytes? (bytes : Bytes) : Option Response :=
  (Wire.tree? .response bytes).map fun t =>
    ⟨t.text? 1, (t.number? 2).getD 0, (t.messages 15).map GeneratedFile.ofTree⟩

/-- What to send back for the bytes of a request. -/
def answer (refusal : Wire.Refusal) (bytes : Bytes) : Except LoadError Bytes :=
  (Request.ofBytes refusal bytes).map fun r => (Response.ofRequest r (.ofParameter r.parameter)).toBytes

end ProtoSchema.Plugin
