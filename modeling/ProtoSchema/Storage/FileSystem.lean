import ProtoSchema.Bytes
import ProtoSchema.Storage.Path
/-!
# What is asked of a file system

The program reads one file and writes others. It asks for that through a
record of operations, so that the same steps run on the system's files and on
a disk that is a value.
-/

namespace ProtoSchema

/-- Why a file system refuses, in the words of the system. -/
inductive SystemError where
  | notFound
  | alreadyExists
  | notDirectory
  | isDirectory
  | nameTooLong
  | invalidName
  | other (text : String)
deriving DecidableEq, Repr

def SystemError.message : SystemError → String
  | notFound => "No such file or directory (os error 2)"
  | alreadyExists => "File exists (os error 17)"
  | notDirectory => "Not a directory (os error 20)"
  | isDirectory => "Is a directory (os error 21)"
  | nameTooLong => "File name too long (os error 36)"
  | invalidName => "file name contained an unexpected NUL byte"
  | other text => text

structure FileSystem (m : Type → Type) where
  /-- Something is there. -/
  present : String → m Bool
  isDirectory : String → m Bool
  read : String → m (Except SystemError Bytes)
  /-- Makes one directory, whose parent must be there. -/
  makeDirectory : String → m (Except SystemError Unit)
  /-- Puts these bytes into a file, new or not. -/
  write : String → Bytes → m (Except SystemError Unit)

namespace FileSystem

variable {m : Type → Type} [Monad m]

/-- Makes a directory that may be there already. -/
def ensureDirectory (fs : FileSystem m) (path : String) : m (Except SystemError Unit) := do
  match ← fs.makeDirectory path with
  | .ok () => return .ok ()
  | .error e => if ← fs.isDirectory path then return .ok () else return .error e

/-- Makes a directory, and for that those around it where they are missing. A path without a
parent is the root or has no steps, and is there. -/
def makeAll (fs : FileSystem m) (path : List Char) : m (Except SystemError Unit) := do
  match ← fs.ensureDirectory (String.ofList path) with
  | .error .notFound =>
    match _h : Path.parent? path with
    | none => return .ok ()
    | some parent =>
      match ← fs.makeAll parent with
      | .ok () => fs.ensureDirectory (String.ofList path)
      | .error e => return .error e
  | result => return result
termination_by path.length
decreasing_by exact Path.parent?_shorter _h

end FileSystem
end ProtoSchema
