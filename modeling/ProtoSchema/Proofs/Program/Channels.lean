import ProtoSchema.Proofs.Json.Reading
import ProtoSchema.Proofs.Program.Failures
/-!
# One generation, three ways out

Documents go to a compiler as the files of a response, onto standard output as one
list, or into a directory. `channels_agree` says that the three carry the same
documents under the same names in the same order, whether their texts are indented
or not, and that a generation that fails does so on each of them with one message.
-/

namespace ProtoSchema.Program

open CommandLine (ConvertArguments)
open Plugin (Request Response)

/-! ## What a reader finds -/

/-- The documents in texts, each under the name of its text. -/
def documentsIn? (texts : List (String × String)) : Option (List (String × Json)) :=
  texts.mapM fun t => (Json.read? t.2).map (t.1, ·)

def listed? : Json → Option (String × Json)
  | .obj [("name", .str name), ("content", document)] => some (name, document)
  | _ => none

/-- The documents in one text that lists them, each beside its name. -/
def documentsListed? (text : String) : Option (List (String × Json)) :=
  match Json.read? text with
  | some (.arr elements) => elements.mapM listed?
  | _ => none

def responseTexts (r : Response) : List (String × String) := r.files.map fun f => (f.name, f.content)

/-- The texts of documents under their names. -/
def namedTexts (pretty : Bool) (outputs : List Output) : List (String × String) :=
  outputs.map fun x => (x.name, x.render pretty)

def namedDocuments (outputs : List Output) : List (String × Json) := outputs.map fun x => (x.name, x.document)

theorem mapM_map_eq_some {α β γ : Type} {f : β → Option γ} {g : α → β} {k : α → γ}
    (h : ∀ a, f (g a) = some (k a)) (l : List α) : (l.map g).mapM f = some (l.map k) := by
  rw [List.mapM_map, show f ∘ g = fun a => pure (k a) from funext h, List.mapM_pure]
  rfl

theorem documentsIn?_namedTexts (pretty : Bool) (outputs : List Output) :
    documentsIn? (namedTexts pretty outputs) = some (namedDocuments outputs) :=
  mapM_map_eq_some (fun x => congrArg (Option.map (x.name, ·)) (Json.read?_render x.document pretty)) outputs

theorem documentsListed?_listing (pretty : Bool) (outputs : List Output) :
    documentsListed? (listing pretty outputs ++ "\n") = some (namedDocuments outputs) := by
  rw [documentsListed?, listing, Json.read?_render_line]
  exact mapM_map_eq_some (f := listed?) (fun _ => rfl) outputs

/-! ## What a command does -/

section
variable {m : Type → Type} [Monad m]

/-- A command that is to convert the files of a request under these options. -/
structure Asks (a : ConvertArguments) (r : Request) (o : Options) : Prop where
  files : a.files = r.filesToGenerate
  options : a.options = o

/-- Writes texts below a directory and says how many there are. -/
def storeTexts (fs : FileSystem m) (directory : String) (texts : List (String × String)) : m Outcome := do
  match ← storeAll fs (texts.map fun t => (Path.join directory t.1, t.2)) with
  | .ok () => return ⟨0, [], [report texts.length directory]⟩
  | .error e => return .failed 3 e.message

/-- A conversion prints one text that lists `documents`, or writes one text for each of them below its
directory; where these are indented, they are those of the response. -/
def Delivers (fs : FileSystem m) (a : ConvertArguments) (files : List File) (r : Response)
    (documents : List (String × Json)) : Prop :=
  match a.outputDirectory with
  | none => ∃ text, convertFiles fs a files = pure (.printed text) ∧ documentsListed? text = some documents
  | some directory => ∃ texts, convertFiles fs a files = storeTexts fs directory texts ∧
      documentsIn? texts = some documents ∧ (a.pretty = true → texts = responseTexts r)

theorem storeTexts_namedTexts (fs : FileSystem m) (directory : String) (pretty : Bool) (outputs : List Output) :
    storeTexts fs directory (namedTexts pretty outputs) = (do
      match ← storeAll fs (targets directory pretty outputs) with
      | .ok () => return ⟨0, [], [report outputs.length directory]⟩
      | .error e => return .failed 3 e.message) := by
  rw [storeTexts, namedTexts, List.map_map, List.length_map]
  rfl

theorem delivers_of_documents {fs : FileSystem m} {a : ConvertArguments} {files : List File} {r : Response}
    {outputs : List Output} (h : documents a files = .ok outputs) (hr : responseTexts r = namedTexts true outputs) :
    Delivers fs a files r (namedDocuments outputs) := by
  have hconvert : convertFiles fs a files = deliver fs a outputs := by rw [convertFiles, h]
  unfold Delivers
  rw [hconvert, deliver]
  cases a.outputDirectory with
  | none => exact ⟨_, rfl, documentsListed?_listing a.pretty outputs⟩
  | some directory =>
    refine ⟨namedTexts a.pretty outputs, (storeTexts_namedTexts fs directory a.pretty outputs).symm,
      documentsIn?_namedTexts a.pretty outputs, fun hpretty => ?_⟩
    rw [hpretty, hr]

/-- A command that lists its files converts those of a request. -/
theorem Asks.documents_eq {a : ConvertArguments} {r : Request} {o : Options} (h : Asks a r o)
    (hne : r.filesToGenerate ≠ []) : documents a r.files = generate r.files o r.filesToGenerate := by
  rw [documents, h.files, h.options, if_neg (by simpa using hne)]

/-- A response and the commands that ask for the same agree: all of them fail with one message, or all
of them carry the same documents. -/
theorem channels_agree (fs : FileSystem m) (r : Request) (o : Options) (hne : r.filesToGenerate ≠ []) :
    (∃ message, Response.ofRequest r o = ⟨some message, Plugin.optionalFields, []⟩ ∧
      ∀ a, Asks a r o → convertFiles fs a r.files = pure (.failed 2 ("Error: " ++ message))) ∨
    ((Response.ofRequest r o).error = none ∧
      ∃ documents, documentsIn? (responseTexts (Response.ofRequest r o)) = some documents ∧
        ∀ a, Asks a r o → Delivers fs a r.files (Response.ofRequest r o) documents) := by
  unfold Response.ofRequest
  cases h : generate r.files o r.filesToGenerate with
  | error e =>
    have hcode : e.exitCode = 2 := by
      obtain ⟨_, _, _, _, hfault⟩ := generate_eq_error_iff.1 h
      exact hfault.exitCode_eq
    refine .inl ⟨e.message, rfl, fun a ha => ?_⟩
    rw [convertFiles, ha.documents_eq hne, h, ← hcode]
  | ok outputs =>
    have htexts : responseTexts ⟨none, Plugin.optionalFields, outputs.map fun x => ⟨x.name, x.render true⟩⟩ =
        namedTexts true outputs := by
      rw [responseTexts, List.map_map]
      rfl
    refine .inr ⟨rfl, namedDocuments outputs, ?_, fun a ha => delivers_of_documents ((ha.documents_eq hne).trans h) htexts⟩
    rw [htexts]
    exact documentsIn?_namedTexts true outputs

end

theorem generate_fine : ∃ outputs, generate [fineFile, brokenFile] {} ["fine.proto"] = .ok outputs := by
  cases h : generate [fineFile, brokenFile] {} ["fine.proto"] with
  | ok outputs => exact ⟨outputs, rfl⟩
  | error e =>
    obtain ⟨j, name, hj, -, hfault⟩ := generate_eq_error_iff.1 h
    obtain rfl : name = fineFile.name := List.mem_singleton.1 (List.mem_of_getElem? hj)
    exact absurd hfault (faultless_fine e)

theorem generate_broken : generate [fineFile, brokenFile] {} ["broken.proto"] =
    .error (.conversion "broken.proto" (.unresolvedReference "Ghost" "ghost" "Broken")) :=
  generate_eq_error_iff.2 ⟨0, _, rfl, by simp, .message named_broken.2 rfl (j := 0) rfl (by simp) schemaIn_broken⟩

/-- A response for the first of two files and the list that is printed for it carry the same documents;
for the second of them both report that a message is missing. -/
theorem channels_agree_fine :
    (["fine.proto"] ≠ [] ∧ ∃ text documents,
      convertFiles Disk.fileSystem ⟨"set.pb", ["fine.proto"], none, false, {}⟩ [fineFile, brokenFile] =
        pure (.printed text) ∧
      documentsListed? text = some documents ∧
      documentsIn? (responseTexts (Response.ofRequest ⟨[fineFile, brokenFile], ["fine.proto"], ""⟩ {})) =
        some documents) ∧
    (["broken.proto"] ≠ [] ∧ ∃ message,
      convertFiles Disk.fileSystem ⟨"set.pb", ["broken.proto"], some "out", true, {}⟩ [fineFile, brokenFile] =
        pure (.failed 2 ("Error: " ++ message)) ∧
      (Response.ofRequest ⟨[fineFile, brokenFile], ["broken.proto"], ""⟩ {}).error = some message) := by
  have hfine : ["fine.proto"] ≠ [] := by simp
  have hbroken : ["broken.proto"] ≠ [] := by simp
  refine ⟨⟨hfine, ?_⟩, ⟨hbroken, ?_⟩⟩
  · obtain ⟨message, hresponse, -⟩ | ⟨-, documents, hdocuments, hall⟩ :=
      channels_agree Disk.fileSystem ⟨[fineFile, brokenFile], ["fine.proto"], ""⟩ {} hfine
    · obtain ⟨outputs, houtputs⟩ := generate_fine
      rw [Response.ofRequest, houtputs] at hresponse
      cases hresponse
    · obtain ⟨text, hconvert, hlisted⟩ := hall ⟨"set.pb", ["fine.proto"], none, false, {}⟩ ⟨rfl, rfl⟩
      exact ⟨text, documents, hconvert, hlisted, hdocuments⟩
  · obtain ⟨message, hresponse, hall⟩ | ⟨hnone, -⟩ :=
      channels_agree Disk.fileSystem ⟨[fineFile, brokenFile], ["broken.proto"], ""⟩ {} hbroken
    · exact ⟨message, hall _ ⟨rfl, rfl⟩, congrArg Response.error hresponse⟩
    · rw [Response.ofRequest, generate_broken] at hnone
      cases hnone

end ProtoSchema.Program
