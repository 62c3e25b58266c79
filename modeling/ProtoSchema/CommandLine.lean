import ProtoSchema.Options
/-!
# The command line

Without arguments the program answers a compiler on standard input. The
command `convert` takes a descriptor set and options. Arguments are read from
left to right, and the first that does not fit makes the whole line wrong,
unless a request for help comes before it.

An argument that starts with a hyphen is an option, a single hyphen apart; two
hyphens alone end the options. The value of an option stands in the same
argument, or is the next one.
-/

namespace ProtoSchema.CommandLine

structure ConvertArguments where
  descriptorSet : String
  /-- The files to convert; none means all. -/
  files : List String
  outputDirectory : Option String
  pretty : Bool
  options : Options
deriving DecidableEq, Repr

inductive Command where
  | plugin
  | version
  | help
  | convert (arguments : ConvertArguments)
deriving DecidableEq, Repr

/-- How an argument is spelled. -/
inductive Argument where
  | operand (text : String)
  | endOfOptions
  | long (name : String) (value : Option String)
  | short (letter : Char) (attached : List Char)
deriving DecidableEq, Repr

def Argument.ofText (s : String) : Argument :=
  match s.toList with
  | ['-', '-'] => .endOfOptions
  | '-' :: '-' :: rest =>
    .long (String.ofList (rest.takeWhile (· != '='))) (match rest.dropWhile (· != '=') with
      | [] => none
      | _ :: value => some (String.ofList value))
  | '-' :: letter :: attached => .short letter attached
  | _ => .operand s

inductive Flag where
  | pretty
  | switch (s : Switch)
deriving DecidableEq, Repr

namespace Flag

def all : List Flag := .pretty :: Switch.all.map .switch

def name : Flag → String
  | pretty => "pretty"
  | switch .allowNullValues => "allow-null-values"
  | switch .debug => "debug"
  | switch .disallowAdditionalProperties => "disallow-additional-properties"
  | switch .prefixSchemaFilesWithPackage => "prefix-with-package"
  | switch .protoAndJsonFieldnames => "proto-and-json-fieldnames"

def ofName? (s : String) : Option Flag := all.find? (·.name == s)

end Flag

/-- What the arguments so far have given. -/
structure Given where
  descriptorSet : Option String := none
  files : List String := []
  outputDirectory : Option String := none
  flags : List Flag := []

namespace Given

/-- A path, which is not empty and is given once. -/
def path? (before : Option String) (text : String) : Option (Option String) :=
  if before.isNone && text != "" then some (some text) else none

def addOperand (g : Given) (text : String) : Option Given :=
  (path? g.descriptorSet text).map fun p => { g with descriptorSet := p }

def addFile (g : Given) (name : String) : Option Given :=
  some { g with files := g.files ++ [name] }

def addOutputDirectory (g : Given) (text : String) : Option Given :=
  (path? g.outputDirectory text).map fun p => { g with outputDirectory := p }

def addFlag (g : Given) (f : Flag) : Option Given :=
  if f ∈ g.flags then none else some { g with flags := g.flags ++ [f] }

def options (g : Given) : Options :=
  .ofSwitches (Switch.all.filter fun s => .switch s ∈ g.flags)

/-- The command, if nothing is missing. -/
def command? (g : Given) : Option Command :=
  g.descriptorSet.map fun d =>
    .convert ⟨d, g.files, g.outputDirectory, .pretty ∈ g.flags, g.options⟩

end Given

/-- What one argument does: it is complete, it asks for help, it ends the options, or its value
is still to come. -/
inductive Effect where
  | complete (given : Given)
  | help
  | endOfOptions
  | valueDue (add : String → Option Given)

/-- An option that takes a value, which may be at hand. -/
def withValue (add : String → Option Given) : Option String → Option Effect
  | some value => (add value).map .complete
  | none => some (.valueDue add)

/-- The value attached to a one-letter option, with or without an equals sign before it. -/
def attachedValue : List Char → Option String
  | [] => none
  | '=' :: value => some (String.ofList value)
  | value => some (String.ofList value)

/-- What an argument of `convert` does, or `none` where it does not fit. -/
def Given.read (g : Given) : Argument → Option Effect
  | .operand text => (g.addOperand text).map .complete
  | .endOfOptions => some .endOfOptions
  | .long "help" none => some .help
  | .long "file" value => withValue g.addFile value
  | .long "output-dir" value => withValue g.addOutputDirectory value
  | .long name none => ((Flag.ofName? name).bind g.addFlag).map .complete
  | .long _ (some _) => none
  | .short 'h' _ => some .help
  | .short 'f' attached => withValue g.addFile (attachedValue attached)
  | .short _ _ => none

def parseConvert (g : Given) : List String → Option Command
  | [] => g.command?
  | a :: rest =>
    match g.read (.ofText a) with
    | none => none
    | some .help => some .help
    | some .endOfOptions => (rest.foldlM Given.addOperand g).bind Given.command?
    | some (.complete g') => parseConvert g' rest
    | some (.valueDue add) =>
      match rest with
      | [] => none
      | v :: rest' =>
        match Argument.ofText v with
        | .operand text => (add text).bind (parseConvert · rest')
        | _ => none

/-- The command that the arguments of the program ask for, or `none` for a wrong line. -/
def parse : List String → Option Command
  | [] => some .plugin
  | a :: rest =>
    match Argument.ofText a with
    | .operand "convert" => parseConvert {} rest
    | .operand "help" => if rest ∈ [[], ["convert"], ["help"]] then some .help else none
    | .endOfOptions => if rest = [] then some .plugin else none
    | .long "version" none => some .version
    | .long "help" none => some .help
    | .short 'V' _ => some .version
    | .short 'h' _ => some .help
    | _ => none

end ProtoSchema.CommandLine
