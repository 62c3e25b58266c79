import Mathlib.Data.List.Basic
import ProtoSchema.Program
import ProtoSchema.Proofs.Wire.Reading
import ProtoSchema.Storage.Disk
/-!
# Answering a compiler

The bytes of a response are read as that response (`ofBytes?_toBytes`). A run without a
command answers every request with the response to it, on standard output, and
refuses bytes that are no request (`plugin_answers`).
-/

namespace ProtoSchema.Plugin

open Wire (Tree decodeWith decode)

/-! ## Responses as trees -/

def GeneratedFile.tree (f : GeneratedFile) : Tree := [(1, .text f.name), (15, .text f.content)]

def Response.tree (r : Response) : Tree :=
  r.error.toList.map (fun e => (1, .text e)) ++ (2, .number r.supportedFeatures) ::
    r.files.map fun f => (15, .message f.tree)

/-- The lengths in the bytes of a response are below 2^64, as the wire format has it. -/
structure Response.Fits (r : Response) : Prop where
  features : r.supportedFeatures < UInt64.size
  error : ∀ e ∈ r.error, (Bytes.ofText e).length < UInt64.size
  files : ∀ f ∈ r.files, f.toBytes.length < UInt64.size

theorem length_le_writeBlob (number : Nat) (bytes : Bytes) : bytes.length ≤ (Wire.writeBlob number bytes).length := by
  simp only [Wire.writeBlob, List.length_append]
  omega

theorem decode_responseFile {f : GeneratedFile} (h : f.toBytes.length < UInt64.size) :
    decode 99 .responseFile f.toBytes = some f.tree := by
  have hname : (Bytes.ofText f.name).length ≤ (Wire.writeText 1 f.name).length := length_le_writeBlob _ _
  have hcontent : (Bytes.ofText f.content).length ≤ (Wire.writeText 15 f.content).length := length_le_writeBlob _ _
  rw [GeneratedFile.toBytes, List.length_append] at h
  show decodeWith 99 (decode 98) .responseFile (Wire.writeText 1 f.name ++ Wire.writeText 15 f.content) = _
  rw [Wire.decodeWith_writeText (by decide) (by decide) rfl (by omega), ← List.append_nil (Wire.writeText 15 f.content),
    Wire.decodeWith_writeText (by decide) (by decide) rfl (by omega), Wire.decodeWith_nil]
  rfl

theorem decodeWith_files {files : List GeneratedFile} (h : ∀ f ∈ files, f.toBytes.length < UInt64.size) :
    decodeWith 100 (decode 99) .response (files.flatMap fun f => Wire.writeBlob 15 f.toBytes) =
      some (files.map fun f => (15, .message f.tree)) := by
  induction files with
  | nil => exact Wire.decodeWith_nil
  | cons f files ih =>
    obtain ⟨hf, hfiles⟩ := List.forall_mem_cons.1 h
    rw [List.flatMap_cons, Wire.decodeWith_writeMessage (by decide) (by decide) rfl hf (decode_responseFile hf),
      ih hfiles]
    rfl

theorem tree?_toBytes {r : Response} (h : r.Fits) : Wire.tree? .response r.toBytes = some r.tree := by
  have hrest : decodeWith 100 (decode 99) .response (Wire.writeNumber 2 r.supportedFeatures ++
      r.files.flatMap fun f => Wire.writeBlob 15 f.toBytes) =
        some ((2, .number r.supportedFeatures) :: r.files.map fun f => (15, .message f.tree)) := by
    rw [Wire.decodeWith_writeNumber (by decide) (by decide) rfl h.features, decodeWith_files h.files]
    rfl
  show decodeWith 100 (decode 99) .response r.toBytes = _
  rw [Response.toBytes, Response.tree, List.append_assoc]
  cases he : r.error with
  | none => exact hrest
  | some e =>
    rw [Option.toList_some, List.flatMap_singleton,
      Wire.decodeWith_writeText (by decide) (by decide) rfl (h.error e he), hrest]
    rfl

theorem Response.text?_tree (r : Response) : r.tree.text? 1 = r.error := by
  cases he : r.error <;> simp [Tree.text?, Tree.texts, Response.tree, he, List.filterMap_none]

theorem Response.number?_tree (r : Response) : r.tree.number? 2 = some r.supportedFeatures := by
  cases he : r.error <;> simp [Tree.number?, Tree.numbers, Response.tree, he, List.filterMap_none]

theorem Response.messages_tree (r : Response) : r.tree.messages 15 = r.files.map GeneratedFile.tree := by
  cases he : r.error <;> simp [Tree.messages, Response.tree, he]

/-- The parts of a response are not longer than the response. -/
theorem Response.Fits.of_length {r : Response} (hf : r.supportedFeatures < UInt64.size)
    (hl : r.toBytes.length < UInt64.size) : r.Fits := by
  rw [Response.toBytes, List.length_append, List.length_append] at hl
  refine ⟨hf, fun e he => ?_, fun f hmem => ?_⟩
  · have herror : (Bytes.ofText e).length ≤ (r.error.toList.flatMap (Wire.writeText 1)).length := by
      rw [Option.mem_def.1 he, Option.toList_some, List.flatMap_singleton]
      exact length_le_writeBlob 1 _
    omega
  · have hpart := List.sublist_flatten_of_mem (List.mem_map_of_mem (f := fun f => Wire.writeBlob 15 f.toBytes) hmem)
    have hblob := length_le_writeBlob 15 f.toBytes
    have hle := hpart.length_le
    rw [← List.flatMap_def] at hle
    omega

/-- The bytes of a response are read as that response. -/
theorem ofBytes?_toBytes {r : Response} (h : r.Fits) : Response.ofBytes? r.toBytes = some r := by
  have hfiles : (r.files.map GeneratedFile.tree).map GeneratedFile.ofTree = r.files :=
    (List.map_map ..).trans (List.map_id r.files)
  rw [Response.ofBytes?, tree?_toBytes h, Option.map_some, r.text?_tree, r.number?_tree, r.messages_tree, hfiles]
  rfl

end ProtoSchema.Plugin

namespace ProtoSchema.Program

open Plugin (Request Response)

/-- The answer to a request: all documents in order with their indented texts, or one error and no
document. -/
inductive Answer (request : Request) : Response → Prop where
  | documents {outputs : List Output}
      (generated : generate request.files (.ofParameter request.parameter) request.filesToGenerate = .ok outputs) :
      Answer request ⟨none, 1, outputs.map fun x => ⟨x.name, x.document.pretty⟩⟩
  | failure {e : GenerationError}
      (failed : generate request.files (.ofParameter request.parameter) request.filesToGenerate = .error e) :
      Answer request ⟨some e.message, 1, []⟩

theorem answer_ofRequest (request : Request) :
    Answer request (Response.ofRequest request (.ofParameter request.parameter)) := by
  unfold Response.ofRequest
  cases h : generate request.files (.ofParameter request.parameter) request.filesToGenerate with
  | ok outputs => exact .documents h
  | error e => exact .failure h

theorem Answer.supportedFeatures_eq {request : Request} {r : Response} (h : Answer request r) :
    r.supportedFeatures = 1 := by
  cases h <;> rfl

/-- Bytes that are no request are a problem with contents, whatever the decoder says of them. -/
theorem exitCode_of_ofBytes {refusal : Wire.Refusal} {bytes : Bytes} {e : LoadError}
    (h : Request.ofBytes refusal bytes = .error e) : e.exitCode = 2 := by
  unfold Request.ofBytes at h
  split at h
  · cases h
  · obtain rfl := Except.error.inj h
    rfl

/-- Without a command, the program reads standard input and nothing else. Bytes that are no request make it
end with 2 and print nothing; for a request it ends with 0 and prints the answer, which is read as that
very response. Lengths on the wire are 64-bit words, and no response of 2^64 bytes or more can be written. -/
theorem plugin_answers {m : Type → Type} [Monad m] (fs : FileSystem m) (refusal : Wire.Refusal) (stdin : m Bytes)
    {arguments : List String} (hp : CommandLine.parse arguments = some .plugin) :
    run fs refusal stdin arguments = (do return plugin refusal (← stdin)) ∧
      ∀ bytes, match Request.ofBytes refusal bytes with
      | .error _ => (plugin refusal bytes).exitCode = 2 ∧ (plugin refusal bytes).stdout = []
      | .ok request => (plugin refusal bytes).exitCode = 0 ∧
          Answer request (Response.ofRequest request (.ofParameter request.parameter)) ∧
          ((plugin refusal bytes).stdout.length < UInt64.size → Response.ofBytes? (plugin refusal bytes).stdout =
            some (Response.ofRequest request (.ofParameter request.parameter))) := by
  refine ⟨by rw [run, hp], fun bytes => ?_⟩
  unfold plugin Plugin.answer
  cases h : Request.ofBytes refusal bytes with
  | error e => exact ⟨exitCode_of_ofBytes h, rfl⟩
  | ok request =>
    have hanswer := answer_ofRequest request
    have hfeatures : (Response.ofRequest request (.ofParameter request.parameter)).supportedFeatures < UInt64.size := by
      rw [hanswer.supportedFeatures_eq]
      decide
    exact ⟨rfl, hanswer, fun hl => Plugin.ofBytes?_toBytes (.of_length hfeatures hl)⟩

/-- A request for a file that declares one enumeration. -/
def sizeRequest : Bytes :=
  Wire.writeText 1 "size.proto" ++ Wire.writeBlob 15 (Wire.writeText 1 "size.proto" ++
    Wire.writeBlob 5 (Wire.writeText 1 "Größe" ++ Wire.writeBlob 2 (Wire.writeText 1 "KLEIN")))

def sizeFile : File := ⟨"size.proto", none, [], [⟨"Größe", [⟨"KLEIN", 0, none⟩], none⟩]⟩

def sizeDocument : String :=
  String.intercalate "\n" ["\x7b", "  \"$schema\": \"http://json-schema.org/draft-04/schema#\",",
    "  \"type\": \"integer\",", "  \"title\": \"Größe\",", "  \"enum\": [", "    0", "  ],",
    "  \"optionLabels\": [", "    \"KLEIN\"", "  ]", "\x7d"]

def sizeResponse : Response := ⟨none, 1, [⟨"Größe.jsonschema", sizeDocument⟩]⟩

theorem ofBytes_sizeRequest (refusal : Wire.Refusal) :
    Request.ofBytes refusal sizeRequest = .ok ⟨[sizeFile], ["size.proto"], ""⟩ := by
  with_unfolding_all rfl

theorem ofRequest_size : Response.ofRequest ⟨[sizeFile], ["size.proto"], ""⟩ (.ofParameter "") = sizeResponse := by
  decide +kernel

theorem plugin_answers_size :
    CommandLine.parse [] = some .plugin ∧
    ((plugin Wire.zeroRefusal sizeRequest).exitCode = 0 ∧
      Response.ofBytes? (plugin Wire.zeroRefusal sizeRequest).stdout = some sizeResponse) ∧
    (plugin Wire.zeroRefusal [0]).exitCode = 2 ∧ (plugin Wire.zeroRefusal [0]).stdout = [] := by
  have hp : CommandLine.parse [] = some .plugin := rfl
  have hall := (plugin_answers Disk.fileSystem Wire.zeroRefusal (pure []) hp).2
  have hsize := hall sizeRequest
  rw [ofBytes_sizeRequest] at hsize
  obtain ⟨hexit, -, hread⟩ := hsize
  have hrefused := hall [0]
  rw [Request.ofBytes, Wire.tree?_zero] at hrefused
  refine ⟨hp, ⟨hexit, ?_⟩, hrefused⟩
  rw [hread (by decide +kernel)]
  exact congrArg some ofRequest_size

end ProtoSchema.Program
