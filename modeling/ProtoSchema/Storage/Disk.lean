import ProtoSchema.Dictionary
import ProtoSchema.Storage.FileSystem
/-!
# A disk as a value

A disk is a tree of directories and files and a working directory, at which
relative paths start. A path is followed step by step through directories, and
a step that goes outwards leads to where the one before it came from; only the
last step of a path may name something new.

This is a file system with directories and files and nothing else. No name
stands for another (there are no symbolic links, and no file has two names),
everything may be read and written by everybody, and a file is written as a
whole or not at all.
-/

namespace ProtoSchema

/-- What stands under a name. -/
inductive Entry where
  | directory (entries : Dictionary Entry)
  | file (bytes : Bytes)
deriving Repr

/-- The names that lead from the root to a file or directory. -/
abbrev Position := List String

structure Disk where
  root : Dictionary Entry
  workingDirectory : Position

namespace Entry

/-- What stands at a position inside an entry. -/
def at? : Entry → Position → Option Entry
  | e, [] => some e
  | directory entries, name :: rest => (entries.get? name).bind (·.at? rest)
  | file _, _ :: _ => none

/-- Puts `e` at a position, where the directories on the way are there. -/
def put (e : Entry) : Entry → Position → Entry
  | _, [] => e
  | directory entries, name :: rest =>
    directory (entries.insert name (put e ((entries.get? name).getD (directory .empty)) rest))
  | file bytes, _ :: _ => file bytes

mutual

/-- The files in an entry that stands at a position, each with its own position. -/
def files (p : Position) : Entry → List (Position × Bytes)
  | directory ⟨entries⟩ => filesIn p entries
  | file bytes => [(p, bytes)]

def filesIn (p : Position) : List (String × Entry) → List (Position × Bytes)
  | [] => []
  | (name, e) :: rest => e.files (p ++ [name]) ++ filesIn p rest

end
end Entry

namespace Disk

/-- What stands at a position; the root is a directory. -/
def at? (d : Disk) (p : Position) : Option Entry := (Entry.directory d.root).at? p

def put (d : Disk) (p : Position) (e : Entry) : Disk :=
  match Entry.put e (.directory d.root) p with
  | .directory root => { d with root }
  | .file _ => d

/-! ## Following paths -/

/-- The longest name of a file, in bytes, and the length that paths stay below. -/
def nameLimit : Nat := 255

def pathLimit : Nat := 4096

/-- The way from the root, the last step first: its names, and what stands under each. -/
abbrev Way := List (String × Option Entry)

/-- Where a way ends. -/
def Way.position (w : Way) : Position := (w.map (·.1)).reverse

/-- What stands at the end of a way. -/
def reached (d : Disk) : Way → Option Entry
  | [] => some (.directory d.root)
  | (_, e) :: _ => e

/-- One step from a directory. A name need not be there yet. -/
def step (d : Disk) (way : Way) (name : String) : Except SystemError Way :=
  match d.reached way with
  | none => .error .notFound
  | some (.file _) => .error .notDirectory
  | some (.directory entries) =>
    if name = "" ∨ name = "." then .ok way
    else if name = ".." then .ok way.tail
    else if name.utf8ByteSize > nameLimit then .error .nameTooLong
    else .ok ((name, entries.get? name) :: way)

/-- The way that a path takes, whether or not something stands at its end. -/
def follow (d : Disk) (path : String) : Except SystemError Way :=
  if path.toList.contains '\x00' then .error .invalidName
  else if path = "" then .error .notFound
  else if path.utf8ByteSize ≥ pathLimit then .error .nameTooLong
  else
    ((if Path.isAbsolute path then [] else d.workingDirectory) ++ Path.steps path).foldlM d.step []

/-! ## Operations -/

def find (d : Disk) (path : String) : Except SystemError Entry := do
  match d.reached (← d.follow path) with
  | some e => return e
  | none => throw .notFound

def isDirectory (d : Disk) (path : String) : Bool :=
  match d.find path with
  | .ok (.directory _) => true
  | _ => false

def read (d : Disk) (path : String) : Except SystemError Bytes := do
  match ← d.find path with
  | .file bytes => return bytes
  | .directory _ => throw .isDirectory

def makeDirectory (d : Disk) (path : String) : Except SystemError Disk := do
  let way ← d.follow path
  match d.reached way with
  | some _ => throw .alreadyExists
  | none => return d.put way.position (.directory .empty)

def write (d : Disk) (path : String) (bytes : Bytes) : Except SystemError Disk := do
  let way ← d.follow path
  match d.reached way with
  | some (.directory _) => throw .isDirectory
  | _ => return d.put way.position (.file bytes)

/-- Changes a disk, or leaves it as it is and says why. -/
def attempt (change : Disk → Except SystemError Disk) : StateM Disk (Except SystemError Unit) :=
  fun d => match change d with
    | .ok d' => (.ok (), d')
    | .error e => (.error e, d)

/-- A disk in use as a file system. -/
def fileSystem : FileSystem (StateM Disk) where
  present path := fun d => ((d.find path).isOk, d)
  isDirectory path := fun d => (d.isDirectory path, d)
  read path := fun d => (d.read path, d)
  makeDirectory path := attempt (·.makeDirectory path)
  write path bytes := attempt (·.write path bytes)

/-! ## Listing -/

/-- The steps that lead from one position to another, outwards and then inwards. -/
def stepsBetween : Position → Position → List String
  | a :: here, b :: there =>
    if a = b then stepsBetween here there else ".." :: here.map (fun _ => "..") ++ b :: there
  | here, there => here.map (fun _ => "..") ++ there

/-- The path to a position from the working directory. -/
def pathTo (d : Disk) (p : Position) : String :=
  String.intercalate "/" (stepsBetween d.workingDirectory p)

/-- The files below a directory, sorted by their paths. -/
def filesBelow (d : Disk) (path : String) : List (String × Bytes) :=
  match d.follow path with
  | .error _ => []
  | .ok way =>
    match d.reached way with
    | some (.directory entries) =>
      ((Entry.directory entries).files way.position |>.map fun f => (d.pathTo f.1, f.2)).mergeSort
        fun a b => a.1 ≤ b.1
    | _ => []

end Disk
end ProtoSchema
