import ProtoSchema.Proofs.Schema.Everywhere
import ProtoSchema.Proofs.Schema.Permissions
/-!
# What the options leave alone

Options have no say in whether a message has a schema, nor in the error if it has none: the
references of a message are followed before any node is made. And those that do not concern the
names of fields change the types and the permissions of a schema in known places only.
Without these places (`Node.common`) the schemas under any two such options are one
(`ofMessage_common`).
-/

namespace ProtoSchema.Schema

namespace Node

/-- The node without null among its types, where its items, if they are objects, say nothing about
further properties. -/
def unpermitting (n : Node) : Node :=
  { n with
    type := if n.type = .union [.null, .array] then .single .array else n.type
    items := n.items.map fun item =>
      if item.is .object then { item with additionalProperties := none } else item }

/-- What is left of a schema without null and without what the root and the elements of arrays say about
further properties. -/
def common (n : Node) : Node := { n.everywhere unpermitting with additionalProperties := none }

/-! ## The nodes that are built -/

variable (o : Options)

/-- Directives are read alike, since neither a union nor the array in its place is an integer. -/
theorem unpermitting_asProperty (n : Node) (f : Field) :
    (n.asProperty f).unpermitting = n.unpermitting.asProperty f := by
  have hinteger : n.unpermitting.is .integer = n.is .integer := by
    simp only [unpermitting, is]
    split
    · rename_i hu
      rw [hu]
      rfl
    · rfl
  simp only [asProperty, annotate, hinteger]
  rfl

theorem everywhere_asProperty (n : Node) (f : Field) :
    (n.asProperty f).everywhere unpermitting = (n.everywhere unpermitting).asProperty f := by
  rw [everywhere_eq, everywhere_eq, ← unpermitting_asProperty]
  rfl

/-- An array of values is one whether or not null may stand for it. -/
theorem everywhere_arrayOf (o o' : Options) (item : Node) :
    (arrayOf o item).everywhere unpermitting = (arrayOf o' item).everywhere unpermitting := by
  have hplain : ∀ o : Options, (arrayOf o item).everywhere unpermitting =
      (arrayOf {} item).everywhere unpermitting := fun o => by
    rw [everywhere_eq, everywhere_eq]
    cases hn : o.allowNullValues with
    | false => simp only [arrayOf, hn]
    | true =>
      simp only [arrayOf, hn]
      rfl
  rw [hplain o, hplain o']

theorem everywhere_ofProperties (o : Options) (m : Message) (l : List (String × Node)) :
    (ofProperties o m l).everywhere unpermitting = ofProperties o m (everywhereIn unpermitting l) := by
  rw [everywhere_eq, ofProperties_properties, map_everywhere_ofList]
  rfl

theorem everywhere_ofRecord (o o' : Options) (target : Message) (f : Field) {l l' : List (String × Node)}
    (h : everywhereIn unpermitting l = everywhereIn unpermitting l') :
    (ofRecord target f (ofProperties o target l)).everywhere unpermitting =
      (ofRecord target f (ofProperties o' target l')).everywhere unpermitting := by
  rw [everywhere_eq, everywhere_eq]
  unfold ofRecord
  split
  · -- The elements are objects, which say nothing about further properties any more.
    simp only [Option.map_some, everywhere_ofProperties, h]
    rfl
  · simp only [ofProperties_properties, map_everywhere_ofList, h]
    rfl

/-! ## One expansion under two options -/

mutual

theorem everywhere_ofContent {o o' : Options} (outer : List Enum)
    (h : o.protoAndJsonFieldnames = o'.protoAndJsonFieldnames) (owner : Message) (f : Field) : (x : Content) →
      (ofContent o outer owner f x).everywhere unpermitting = (ofContent o' outer owner f x).everywhere unpermitting
  | .value _ | .choice => by
    simp only [ofContent]
    split
    · exact everywhere_arrayOf _ _ _
    · rfl
  | .record target _ fields => by
    simp only [ofContent]
    exact everywhere_ofRecord o o' target.message f (everywhere_ofExpansion outer h target.message fields)

theorem everywhere_ofExpansion {o o' : Options} (outer : List Enum)
    (h : o.protoAndJsonFieldnames = o'.protoAndJsonFieldnames) (owner : Message) : (x : Expansion) →
      everywhereIn unpermitting (ofExpansion o outer owner x) =
        everywhereIn unpermitting (ofExpansion o' outer owner x)
  | .done => by simp only [ofExpansion]
  | .field f content rest => by
    have hnames : fieldNames o f = fieldNames o' f := by simp only [fieldNames, h]
    simp only [ofExpansion, everywhereIn_append, everywhereIn_names, everywhere_asProperty, hnames,
      everywhere_ofContent outer h owner f content, everywhere_ofExpansion outer h owner rest]

end

end Node

open Node

/-- Under any two options a message has a schema or fails with one error. Where the options agree on the
names of fields, the schemas differ in nothing but whether null may stand for an array, and in what the
root and the elements of arrays say about further properties. -/
theorem ofMessage_common (c : Catalog) (o o' : Options) (scope : Scope) (d : Declaration) (outer : List Enum) :
    (∀ e, ofMessage c o scope d outer = .error e ↔ ofMessage c o' scope d outer = .error e) ∧
    (o.protoAndJsonFieldnames = o'.protoAndJsonFieldnames →
      (ofMessage c o scope d outer).map common = (ofMessage c o' scope d outer).map common) := by
  unfold ofMessage
  cases c.expandMessage scope d with
  | error e => exact ⟨fun _ => Iff.rfl, fun _ => rfl⟩
  | ok x =>
    refine ⟨fun _ => ⟨nofun, nofun⟩, fun h => congrArg Except.ok ?_⟩
    simp only [common, everywhere_ofProperties, everywhere_ofExpansion outer h d.message x]
    rfl

/-- All options but the one about the names of fields. -/
def strict : Options where
  allowNullValues := true
  debug := true
  disallowAdditionalProperties := true
  prefixSchemaFilesWithPackage := true

/-- The album is closed under these options and open without them, and so are its photos; their tags may be
null or not. -/
theorem ofMessage_common_album : ∃ top top',
    strict.protoAndJsonFieldnames = ({} : Options).protoAndJsonFieldnames ∧
    ofMessage albums strict ["media"] album [] = .ok top ∧ ofMessage albums {} ["media"] album [] = .ok top' ∧
    top ≠ top' ∧ top.common = top'.common := by
  obtain ⟨top, htop⟩ := exists_schemaAt_album strict
  obtain ⟨top', htop'⟩ := exists_schemaAt_album {}
  have hcommon := (ofMessage_common albums strict {} ["media"] album []).2 rfl
  rw [show ofMessage albums strict ["media"] album [] = .ok top from htop,
    show ofMessage albums {} ["media"] album [] = .ok top' from htop'] at hcommon
  refine ⟨top, top', rfl, htop, htop', fun heq => ?_, Except.ok.inj hcommon⟩
  have hclosed := additionalProperties_schemaAt htop
  rw [heq, additionalProperties_schemaAt htop'] at hclosed
  cases hclosed

end ProtoSchema.Schema
