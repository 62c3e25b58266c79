import Mathlib.Data.List.Nodup
import ProtoSchema.Proofs.Expansion.Uncommented
import ProtoSchema.Proofs.Generation.Documents
import ProtoSchema.Proofs.Schema.Everywhere
/-!
# What comments can change

Comments give a schema its titles, descriptions, formats, patterns, bounds and flags, and the numbers of
an enumeration their labels. Without these a schema is its outline (`Node.outline`): types, properties
with their order, items, permissions and numbers. Taking all comments out of a set of files leaves the
outline of every document as it is, and every error and name too, so files that differ in comments
only have documents with the same outlines.
-/

namespace ProtoSchema

namespace Schema.Node

/-- The node without what directives and comments say about it. -/
def unannotated (n : Node) : Node := { n with annotations := {}, optionLabels := [] }

/-- What is left of a schema without annotations and labels, at every depth. -/
def outline (n : Node) : Node := n.everywhere unannotated

variable (o : Options) (n : Node)

theorem outline_eq : n.outline = unannotated (n.withParts (n.properties.map outline) (n.items.map outline)) :=
  everywhere_eq unannotated n

theorem outline_annotate (comments : Option Comments) (identifier : String) :
    (n.annotate comments identifier).outline = n.outline := by
  rw [outline_eq, outline_eq]
  rfl

theorem outline_asProperty (f : Field) :
    (n.asProperty f).outline = { n.outline with order := some f.number } := by
  rw [outline_eq, outline_eq]
  rfl

variable {n} {n' : Node}

theorem outline_arrayOf (h : n.outline = n'.outline) : (arrayOf o n).outline = (arrayOf o n').outline := by
  rw [outline_eq, outline_eq]
  simp only [arrayOf, Option.map_some, h]
  rfl

/-- An object has its outline from the outlines of what is written into it. -/
theorem outline_ofProperties {m m' : Message} {l l' : List (String × Node)}
    (h : everywhereIn unannotated l = everywhereIn unannotated l') :
    (ofProperties o m l).outline = (ofProperties o m' l').outline := by
  -- The comments of the message are annotations, so they go first.
  unfold ofProperties
  rw [outline_annotate, outline_annotate, outline_eq, outline_eq]
  show unannotated (withParts _ ((Dictionary.ofList l).map (everywhere unannotated)) none) =
    unannotated (withParts _ ((Dictionary.ofList l').map (everywhere unannotated)) none)
  rw [map_everywhere_ofList, map_everywhere_ofList, h]
  rfl

theorem properties_outline (n : Node) : n.outline.properties = n.properties.map outline := by
  rw [outline_eq]
  rfl

theorem outline_ofRecord {target target' : Message} {f f' : Field} (hentry : target'.mapEntry = target.mapEntry)
    (hlabel : f'.label = f.label) (h : n'.outline = n.outline) :
    (ofRecord target' f' n').outline = (ofRecord target f n).outline := by
  have hrepeated : f'.isRepeated = f.isRepeated := by simp only [Field.isRepeated, hlabel]
  have hproperties : n'.properties.map outline = n.properties.map outline := by
    rw [← properties_outline, ← properties_outline, h]
  rw [outline_eq, outline_eq]
  simp only [ofRecord, hentry, hrepeated, hlabel]
  -- An array has the object among its parts, and a single field only the properties of it.
  split
  · simp only [Option.map_some, h]
    rfl
  · simp only [hproperties]
    rfl

/-! ## Bare declarations -/

theorem choices_bare (outer : List Enum) (owner : Message) (f : Field) :
    choices (outer.map Enum.bare) owner.bare f.bare = (choices outer owner f).map Enum.bare := by
  rw [choices, Message.bare_enums, ← List.map_append, List.filter_map]
  rfl

theorem outline_choice (enums : List Enum) : (choice (enums.map Enum.bare)).outline = (choice enums).outline := by
  have hvalues : (enums.map Enum.bare).flatMap Enum.values = (enums.flatMap Enum.values).map EnumValue.bare := by
    rw [List.flatMap_map, List.map_flatMap]
    rfl
  rw [outline_eq, outline_eq]
  simp only [choice, hvalues, List.map_map]
  rfl

theorem outline_ofEnum (e : Enum) : (ofEnum e.bare).outline = (ofEnum e).outline := by
  unfold ofEnum
  rw [outline_annotate, outline_annotate, outline_eq, outline_eq]
  simp only [Enum.bare, List.map_map]
  rfl

theorem fieldNames_bare (f : Field) : fieldNames o f.bare = fieldNames o f := rfl

mutual

theorem outline_ofContent (outer : List Enum) (owner : Message) (f : Field) : (x : Content) →
      (ofContent o (outer.map Enum.bare) owner.bare f.bare x.bare).outline = (ofContent o outer owner f x).outline
  | .value _ => by
    simp only [Content.bare, ofContent]
    rfl
  | .choice => by
    have hrepeated : f.bare.isRepeated = f.isRepeated := rfl
    simp only [Content.bare, ofContent, choices_bare, hrepeated]
    split
    · exact outline_arrayOf o (outline_choice _)
    · exact outline_choice _
  | .record target _ fields => by
    simp only [Content.bare, ofContent]
    exact outline_ofRecord target.message.bare_mapEntry rfl
      (outline_ofProperties o (outline_ofExpansion outer target.message fields))

theorem outline_ofExpansion (outer : List Enum) (owner : Message) : (x : Expansion) →
      everywhereIn unannotated (ofExpansion o (outer.map Enum.bare) owner.bare x.bare) =
        everywhereIn unannotated (ofExpansion o outer owner x)
  | .done => by simp only [Expansion.bare, ofExpansion]
  | .field f content rest => by
    have hnode := outline_ofContent outer owner f content
    have hproperty : ((ofContent o (outer.map Enum.bare) owner.bare f.bare content.bare).asProperty f.bare).outline =
        ((ofContent o outer owner f content).asProperty f).outline := by
      rw [outline_asProperty, outline_asProperty, hnode]
      rfl
    rw [outline, outline] at hproperty
    simp only [Expansion.bare, ofExpansion, everywhereIn_append, everywhereIn_names, fieldNames_bare, hproperty,
      outline_ofExpansion outer owner rest]

end

end Schema.Node

open Schema Schema.Node

/-- What comments cannot change of a document. -/
def Output.outline (output : Output) : Output := { output with schema := output.schema.outline }

section Outputs

variable {c c' : Catalog} (h : Uncomments c c') (o : Options)

theorem map_mapM {ε α β γ : Type} (g : α → Except ε β) (k : β → γ) (l : List α) :
    (l.mapM g).map (List.map k) = l.mapM fun a => (g a).map k := by
  induction l with
  | nil => rfl
  | cons a l ih =>
    rw [List.mapM_cons, List.mapM_cons, ← ih]
    cases g a with
    | error e => rfl
    | ok b => cases l.mapM g <;> rfl

include h

theorem ofMessage_bare (scope : Scope) (d : Declaration) (outer : List Enum) :
    (ofMessage c' o scope d.bare (outer.map Enum.bare)).map outline = (ofMessage c o scope d outer).map outline := by
  rw [ofMessage, ofMessage, expandMessage_bare h]
  cases c.expandMessage scope d with
  | error e => rfl
  | ok x => exact congrArg Except.ok (outline_ofProperties o (outline_ofExpansion o outer d.message x))

theorem messageOutput_bare (f : File) (scope : Scope) (d : Declaration) :
    (Generation.messageOutput c' o f.bare scope d.bare).map Output.outline =
      (Generation.messageOutput c o f scope d).map Output.outline := by
  have hschema := ofMessage_bare h o scope d f.enums
  have hname : f.bare.outputName o d.bare.message.name = f.outputName o d.message.name := by
    rw [Declaration.bare, Message.bare_name]
    rfl
  have henums : f.bare.enums = f.enums.map Enum.bare := rfl
  unfold Generation.messageOutput
  rw [hname, henums]
  generalize ofMessage c' o scope d.bare (f.enums.map Enum.bare) = result' at hschema ⊢
  generalize ofMessage c o scope d f.enums = result at hschema ⊢
  cases result <;> cases result'
  case ok.ok =>
    exact congrArg (fun n => Except.ok (Output.mk (f.outputName o d.message.name) n)) (Except.ok.inj hschema)
  case error.error =>
    rw [Except.error.inj hschema]
    rfl
  case ok.error => cases hschema
  case error.ok => cases hschema

theorem enter_bare (package : String) : c'.enter [] package = c.enter [] package := by
  simp only [Catalog.enter, h.known]

theorem fileOutputs_bare (f : File) (i : Nat) :
    (Generation.fileOutputs c' o f.bare i).map (List.map Output.outline) =
      (Generation.fileOutputs c o f i).map (List.map Output.outline) := by
  have hempty : f.bare.messages.isEmpty = f.messages.isEmpty := List.isEmpty_map
  have hscope : c'.enter [] f.bare.packageName = c.enter [] f.packageName := enter_bare h f.packageName
  rw [Generation.fileOutputs, Generation.fileOutputs, hempty, hscope, declarations_bare]
  split
  · refine congrArg Except.ok ?_
    simp only [File.bare, List.map_map]
    refine List.map_congr_left fun e _ => ?_
    exact congrArg (Output.mk (f.outputName o e.name)) (outline_ofEnum e)
  · rw [map_mapM, map_mapM, List.mapM_map]
    exact congrArg (List.mapM · _) (funext (messageOutput_bare h o f _))

end Outputs

/-- Without comments the documents of a file are the same but for annotations and labels. -/
theorem outputsOf_bare (o : Options) (files : List File) (name : String) :
    (outputsOf (files.map File.bare) o name).map (List.map Output.outline) =
      (outputsOf files o name).map (List.map Output.outline) := by
  have hfind : (files.map File.bare).zipIdx.find? (fun e => e.1.name = name) =
      (files.zipIdx.find? fun e => e.1.name = name).map (Prod.map File.bare id) := by
    rw [List.zipIdx_map, List.find?_map]
    rfl
  unfold outputsOf Generation.namedOutputs
  rw [hfind]
  cases files.zipIdx.find? fun e => e.1.name = name with
  | none => rfl
  | some e => exact fileOutputs_bare (uncomments_bare files) o e.1 e.2

/-- The outputs are documents of the same name, one by one, and their schemas are equal but for annotations
and labels. -/
def SameOutlines (outputs outputs' : List Output) : Prop :=
  List.Forall₂ (fun a b => a.name = b.name ∧ a.schema.outline = b.schema.outline) outputs outputs'

theorem sameOutlines_iff {outputs outputs' : List Output} : SameOutlines outputs outputs' ↔
    outputs.map Output.outline = outputs'.map Output.outline := by
  rw [← List.forall₂_eq_eq_eq, List.forall₂_map_left_iff, List.forall₂_map_right_iff]
  simp [SameOutlines, Output.outline]

/-- Files that differ in comments only are converted with the same error, or to documents of the same names
that differ in annotations and labels only. -/
theorem outputsOf_uncommented {files files' : List File} (h : files.map File.bare = files'.map File.bare)
    (o : Options) (name : String) :
    (∃ e, outputsOf files o name = .error e ∧ outputsOf files' o name = .error e) ∨
      ∃ outputs outputs', outputsOf files o name = .ok outputs ∧ outputsOf files' o name = .ok outputs' ∧
        SameOutlines outputs outputs' := by
  have hsame : (outputsOf files o name).map (List.map Output.outline) =
      (outputsOf files' o name).map (List.map Output.outline) := by
    rw [← outputsOf_bare, h, outputsOf_bare]
  match outputsOf files o name, outputsOf files' o name, hsame with
  | .error e, .error e', hsame => exact .inl ⟨e, rfl, congrArg Except.error (Except.error.inj hsame).symm⟩
  | .ok outputs, .ok outputs', hsame =>
    exact .inr ⟨outputs, outputs', rfl, rfl, sameOutlines_iff.2 (Except.ok.inj hsame)⟩

def cupSize : Field := ⟨"size", "size", 1, .enum, .optional, ".cafe.Cup.Size", none⟩

def cupSizes (label : Option Comments) : Enum := ⟨"Size", [⟨"SMALL", 1, label⟩, ⟨"LARGE", 2, none⟩], none⟩

/-- A cup that comes small or large, with comments on the cup and on the small size. -/
def labelledCup (comments label : Option Comments) : Message :=
  ⟨"Cup", [cupSize], [], [cupSizes label], false, comments⟩

def cupFile (comments label : Option Comments) : File :=
  ⟨"cup.proto", some "cafe", [labelledCup comments label], []⟩

def spoken : Comments := ⟨some "holds an espresso", none, []⟩

theorem exists_outputs_cup (comments label : Option Comments) : ∃ n,
    outputsOf [cupFile comments label] {} "cup.proto" = .ok [⟨"Cup.jsonschema", n⟩] ∧
    n.properties.get? "size" = some ((choice [cupSizes label]).asProperty cupSize) := by
  have hnamed : Named [cupFile comments label] 0 (cupFile comments label) :=
    named_of_nodup (List.nodup_singleton _) rfl
  have hexpand : ∀ c : Catalog, ∀ s : Scope, c.expandMessage s ⟨[0, 0], labelledCup comments label⟩ =
      .ok (.field cupSize .choice .done) := fun c s => by
    show c.expand _ s _ [cupSize] = _
    rw [Catalog.expand_cons, Catalog.expand_nil, Catalog.content_choice rfl]
    rfl
  have hschema : schemaAt (.ofFiles [cupFile comments label]) {} [] ((cupFile comments label).site 0 0
      (labelledCup comments label)) = .ok _ := congrArg (Except.map _) (hexpand _ _)
  refine ⟨_, (outputsOf_eq_ok_iff (j := 0) hnamed rfl).2 (.cons ⟨_, hschema, rfl⟩ .nil), ?_⟩
  have hsuffix : "Size".toList.isSuffixOf ".cafe.Cup.Size".toList = true := by decide
  have hchoices : choices [] (labelledCup comments label) cupSize = [cupSizes label] := by
    simp only [choices, labelledCup, cupSizes, cupSize, List.append_nil, List.filter_cons, hsuffix, List.filter_nil,
      if_true]
  rw [← hchoices]
  rfl

/-- The small cup has another label in the second document, and the outlines are one. -/
theorem outputsOf_uncommented_cup : ∃ n n',
    [cupFile none none].map File.bare = [cupFile (some spoken) (some spoken)].map File.bare ∧
    outputsOf [cupFile none none] {} "cup.proto" = .ok [⟨"Cup.jsonschema", n⟩] ∧
    outputsOf [cupFile (some spoken) (some spoken)] {} "cup.proto" = .ok [⟨"Cup.jsonschema", n'⟩] ∧
    n ≠ n' ∧ n.outline = n'.outline := by
  obtain ⟨n, hn, hsize⟩ := exists_outputs_cup none none
  obtain ⟨n', hn', hsize'⟩ := exists_outputs_cup (some spoken) (some spoken)
  have hbare : [cupFile none none].map File.bare = [cupFile (some spoken) (some spoken)].map File.bare := rfl
  have hne : n ≠ n' := by
    rintro rfl
    have hlabels := congrArg Node.optionLabels (Option.some.inj (hsize.symm.trans hsize'))
    cases hlabels
  rcases outputsOf_uncommented hbare {} "cup.proto" with ⟨e, he, -⟩ | ⟨outputs, outputs', h, h', hsame⟩
  · cases he.symm.trans hn
  · obtain rfl := Except.ok.inj (h.symm.trans hn)
    obtain rfl := Except.ok.inj (h'.symm.trans hn')
    exact ⟨n, n', hbare, hn, hn', hne, (List.forall₂_cons.1 hsame).1.2⟩

end ProtoSchema
