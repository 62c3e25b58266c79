import ProtoSchema.CommandLine
import ProtoSchema.Plugin
import ProtoSchema.Storage.FileSystem
/-!
# The program

A run reads its arguments, standard input and one file, writes any number of
files, and ends with an exit code and two texts. Documents are written only
after all of them have been made, so that a set with a fault in it leaves
nothing behind.

What is outside comes in as arguments: the file system, standard input, and the
words of the decoder about bytes that it refuses.
-/

namespace ProtoSchema

/-- How a run ends, apart from the files that it wrote. -/
structure Outcome where
  exitCode : Nat
  stdout : Bytes
  /-- The messages, one a line. A log goes to the same stream, of warnings and failures and on request of every step;
  its lines are not part of an outcome. -/
  stderr : List String
deriving DecidableEq, Repr

namespace Outcome

def failed (exitCode : Nat) (message : String) : Outcome := ⟨exitCode, [], [message]⟩

def printed (text : String) : Outcome := ⟨0, Bytes.ofText text, []⟩

end Outcome

/-- Why a document is not on the disk. -/
inductive StoreError where
  | creating (directory : String) (error : SystemError)
  | writing (path : String) (error : SystemError)
deriving DecidableEq, Repr

def StoreError.message : StoreError → String
  | creating directory error => "Error creating " ++ directory ++ ": " ++ error.message
  | writing path error => "Error writing to " ++ path ++ ": " ++ error.message

namespace Program

def version : String := "protoc-gen-jsonschema 1.2.0\n"

/-- The text for a call for help. The words are this library's own and not those that a parser of arguments would make:
what counts is that there is a text on standard output. -/
def usage : List String :=
  ["usage: protoc-gen-jsonschema [convert [options] <descriptor-set>]",
   "",
   "Without a command, answers a compiler's request on standard input.",
   "",
   "-f, --file <name>                  convert this file (default: every file)",
   "--output-dir <directory>           write the documents there",
   "--pretty                           indent the documents",
   "--allow-null-values                let repeated fields be null",
   "--disallow-additional-properties   allow declared properties only",
   "--proto-and-json-fieldnames        list fields under both their names",
   "--prefix-with-package              write below a directory for the package",
   "--debug                            say more"]

/-- How a run with a wrong command line ends. Its code is what counts; the text stands in for the longer one that a
parser of arguments would make. -/
def wrongLine : Outcome := .failed 2 "error: unexpected arguments"

variable {m : Type → Type} [Monad m]

/-- The files of the descriptor set at a path. -/
def load (fs : FileSystem m) (refusal : Wire.Refusal) (path : String) : m (Except LoadError (List File)) := do
  if ← fs.present path then
    match ← fs.read path with
    | .ok bytes => return DescriptorSet.ofBytes refusal bytes
    | .error e => return .error (.unreadable path e.message)
  else
    return .error (.fileNotFound path)

/-- The text of all documents as one list. -/
def listing (pretty : Bool) (outputs : List Output) : String :=
  Json.render (.arr (outputs.map Output.toJson)) pretty

/-- The path and the text of each document in a directory. -/
def targets (directory : String) (pretty : Bool) (outputs : List Output) : List (String × String) :=
  outputs.map fun o => (Path.join directory o.name, o.render pretty)

/-- Makes the directories around a path. -/
def prepare (fs : FileSystem m) (path : String) : m (Except StoreError Unit) :=
  match Path.parent? path.toList with
  | none => return .ok ()
  | some parent => do
    match ← fs.makeAll parent with
    | .ok () => return .ok ()
    | .error e => return .error (.creating (String.ofList parent) e)

/-- Writes one text and makes the directories that it needs. -/
def store (fs : FileSystem m) (path text : String) : m (Except StoreError Unit) := do
  match ← prepare fs path with
  | .error e => return .error e
  | .ok () =>
    match ← fs.write path (Bytes.ofText text) with
    | .ok () => return .ok ()
    | .error e => return .error (.writing path e)

/-- Writes texts in turn, up to the first that cannot be written. -/
def storeAll (fs : FileSystem m) : List (String × String) → m (Except StoreError Unit)
  | [] => return .ok ()
  | (path, text) :: rest => do
    match ← store fs path text with
    | .ok () => storeAll fs rest
    | .error e => return .error e

/-- The documents for a command, from the files of its descriptor set. -/
def documents (a : CommandLine.ConvertArguments) (files : List File) :
    Except GenerationError (List Output) :=
  generate files a.options (if a.files.isEmpty then files.map (·.name) else a.files)

/-- The message after the documents have been written. -/
def report (count : Nat) (directory : String) : String :=
  "Wrote " ++ Decimal.text count ++ " schema file(s) to " ++ directory

/-- Prints the documents or writes them into a directory. -/
def deliver (fs : FileSystem m) (a : CommandLine.ConvertArguments) (outputs : List Output) :
    m Outcome :=
  match a.outputDirectory with
  | none => return .printed (listing a.pretty outputs ++ "\n")
  | some directory => do
    match ← storeAll fs (targets directory a.pretty outputs) with
    | .ok () => return ⟨0, [], [report outputs.length directory]⟩
    | .error e => return .failed 3 e.message

/-- Converts the files of a descriptor set, all of them before anything is printed or written. -/
def convertFiles (fs : FileSystem m) (a : CommandLine.ConvertArguments) (files : List File) : m Outcome :=
  match documents a files with
  | .error e => return .failed e.exitCode ("Error: " ++ e.message)
  | .ok outputs => deliver fs a outputs

def convert (fs : FileSystem m) (refusal : Wire.Refusal) (a : CommandLine.ConvertArguments) : m Outcome := do
  match ← load fs refusal a.descriptorSet with
  | .error e => return .failed e.exitCode ("Error: " ++ e.message)
  | .ok files => convertFiles fs a files

/-- Answers the request of a compiler. -/
def plugin (refusal : Wire.Refusal) (stdin : Bytes) : Outcome :=
  match Plugin.answer refusal stdin with
  | .ok response => ⟨0, response, []⟩
  | .error e => .failed e.exitCode ("Error: " ++ e.message)

/-- A run with some arguments; standard input is read only where it is needed. -/
def run (fs : FileSystem m) (refusal : Wire.Refusal) (stdin : m Bytes) (arguments : List String) : m Outcome :=
  match CommandLine.parse arguments with
  | some .plugin => do return plugin refusal (← stdin)
  | some .version => return .printed version
  | some .help => return .printed (String.join (usage.map (· ++ "\n")))
  | some (.convert a) => convert fs refusal a
  | none => return wrongLine

end Program
end ProtoSchema
