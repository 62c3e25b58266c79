import ProtoSchema.Text.Blank
/-!
# Options

Five switches, all off at first. A plugin parameter lists the names of those
to turn on, between commas; an entry that is no name changes nothing.
-/

namespace ProtoSchema

structure Options where
  /-- A repeated field may be null. -/
  allowNullValues : Bool := false
  debug : Bool := false
  /-- An object has no properties but those of its message. -/
  disallowAdditionalProperties : Bool := false
  /-- A document is written into a directory named for its package. -/
  prefixSchemaFilesWithPackage : Bool := false
  /-- A field stands under its JSON name as well. -/
  protoAndJsonFieldnames : Bool := false
deriving DecidableEq, Repr, Inhabited

inductive Switch where
  | allowNullValues
  | debug
  | disallowAdditionalProperties
  | prefixSchemaFilesWithPackage
  | protoAndJsonFieldnames
deriving DecidableEq, Repr

namespace Switch

def all : List Switch :=
  [allowNullValues, debug, disallowAdditionalProperties, prefixSchemaFilesWithPackage,
   protoAndJsonFieldnames]

def name : Switch → String
  | allowNullValues => "allow_null_values"
  | debug => "debug"
  | disallowAdditionalProperties => "disallow_additional_properties"
  | prefixSchemaFilesWithPackage => "prefix_schema_files_with_package"
  | protoAndJsonFieldnames => "proto_and_json_fieldnames"

def ofName? (s : String) : Option Switch := all.find? (·.name == s)

end Switch

namespace Options

def get (o : Options) : Switch → Bool
  | .allowNullValues => o.allowNullValues
  | .debug => o.debug
  | .disallowAdditionalProperties => o.disallowAdditionalProperties
  | .prefixSchemaFilesWithPackage => o.prefixSchemaFilesWithPackage
  | .protoAndJsonFieldnames => o.protoAndJsonFieldnames

def set (o : Options) (s : Switch) (on : Bool) : Options :=
  match s with
  | .allowNullValues => { o with allowNullValues := on }
  | .debug => { o with debug := on }
  | .disallowAdditionalProperties => { o with disallowAdditionalProperties := on }
  | .prefixSchemaFilesWithPackage => { o with prefixSchemaFilesWithPackage := on }
  | .protoAndJsonFieldnames => { o with protoAndJsonFieldnames := on }

/-- The switches that a parameter names. -/
def named (parameter : String) : List Switch :=
  (parameter.toList.splitOn ',').filterMap fun entry =>
    Switch.ofName? (String.ofList (Text.trim entry))

def ofSwitches (switches : List Switch) : Options := switches.foldl (fun o s => o.set s true) {}

def ofParameter (parameter : String) : Options := ofSwitches (named parameter)

end Options
end ProtoSchema
