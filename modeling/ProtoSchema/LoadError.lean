/-!
# Why descriptors cannot be had

`cause` is what the system says about a file that is there but cannot be read,
or what the decoder says about bytes that it refuses. Exit codes tell a problem
with a file (3) from one with its contents (2).
-/

namespace ProtoSchema

inductive LoadError where
  | fileNotFound (path : String)
  | unreadable (path cause : String)
  | malformed (cause : String)
  | unknownFile (name : String)
deriving DecidableEq, Repr

namespace LoadError

def message : LoadError → String
  | fileNotFound path => "file not found: " ++ path
  | unreadable path cause => "cannot read " ++ path ++ ": " ++ cause
  | malformed cause => "invalid descriptor data: " ++ cause
  | unknownFile name => "file " ++ name ++ " is not part of the descriptor set"

def exitCode : LoadError → Nat
  | fileNotFound _ | unreadable _ _ => 3
  | malformed _ | unknownFile _ => 2

end LoadError
end ProtoSchema
