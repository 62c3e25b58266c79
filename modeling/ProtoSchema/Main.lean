import ProtoSchema.Program
/-!
# The executable

Runs the program on the system's files and streams.
-/

namespace ProtoSchema.Main

/-- The cause of a failed operation, as far as it is told apart. -/
def cause : IO.Error → SystemError
  | .noFileOrDirectory _ _ _ => .notFound
  | .alreadyExists _ _ _ => .alreadyExists
  | .inappropriateType _ code _ => if code = 20 then .notDirectory else .isDirectory
  | .invalidArgument _ code details => if code = 36 then .nameTooLong else .other details
  | e => .other (toString e)

def attempt {α : Type} (action : IO α) : IO (Except SystemError α) := do
  match ← action.toBaseIO with
  | .ok a => return .ok a
  | .error e => return .error (cause e)

def readBytes (path : String) : IO (Except SystemError Bytes) :=
  attempt do return (← IO.FS.readBinFile path).data.toList

def present (path : String) : IO Bool := do
  return (← attempt (IO.FS.realPath path)).isOk

def systemFiles : FileSystem IO where
  present
  isDirectory path := present (path ++ "/.")
  read := readBytes
  makeDirectory path := attempt (IO.FS.createDir path)
  write path bytes := attempt (IO.FS.writeBinFile path ⟨bytes.toArray⟩)

partial def readAll (input : IO.FS.Stream) (done : ByteArray) : IO ByteArray := do
  let chunk ← input.read 65536
  if chunk.isEmpty then return done else readAll input (done ++ chunk)

def standardInput : IO Bytes := do
  return (← readAll (← IO.getStdin) .empty).data.toList

/-- What this program says of bytes that it refuses: no more than that it does. -/
def refusal : Wire.Refusal := fun _ _ => "failed to decode Protobuf message"

end ProtoSchema.Main

def main (arguments : List String) : IO UInt32 := do
  let outcome ← ProtoSchema.Program.run ProtoSchema.Main.systemFiles
    ProtoSchema.Main.refusal ProtoSchema.Main.standardInput arguments
  let output ← IO.getStdout
  output.write ⟨outcome.stdout.toArray⟩
  output.flush
  outcome.stderr.forM IO.eprintln
  return outcome.exitCode.toUInt32
