import ProtoSchema.Program
import ProtoSchema.Proofs.Generation.Requests
import ProtoSchema.Proofs.Storage.Changes
import ProtoSchema.Proofs.Wire.Reading
/-!
# Conversions that fail

A conversion reads its descriptor set, decodes it, makes all documents and only then
prints or writes them. `FirstFault` says what goes wrong first, in the words of the
disk, of the decoder and of the files of the set; a conversion with a fault reports that one and
leaves the disk as it was (`fault_leaves_disk`).
-/

namespace ProtoSchema.Program

open CommandLine (ConvertArguments)

variable {d : Disk} {refusal : Wire.Refusal} {a : ConvertArguments} {files : List File} {e : GenerationError}

/-- The files of the descriptor set that a command names. -/
def Loaded (d : Disk) (a : ConvertArguments) (files : List File) : Prop :=
  ∃ bytes, d.read a.descriptorSet = .ok bytes ∧ DescriptorSet.files? bytes = some files

/-- The names of the files to convert: those that the command lists, or else all. -/
def requested (a : ConvertArguments) (files : List File) : List String :=
  if a.files.isEmpty then files.map (·.name) else a.files

/-- Something is wrong with the descriptor set, with a name or with a message of a file, wherever
it is. -/
inductive Faulty (d : Disk) (a : ConvertArguments) : Prop where
  | unread (fails : ∀ bytes, d.read a.descriptorSet ≠ .ok bytes)
  | undecoded {bytes : Bytes} (read : d.read a.descriptorSet = .ok bytes)
      (fails : Wire.tree? .fileSet bytes = none)
  | unknown {files : List File} {name : String} (loaded : Loaded d a files)
      (requested : name ∈ requested a files) (absent : ¬ ∃ f ∈ files, f.name = name)
  | message {files : List File} {i j : Nat} {f : File} {m : Message} {e : ConversionError}
      (loaded : Loaded d a files) (requested : f.name ∈ requested a files) (named : Named files i f)
      (message : f.messages[j]? = some m) (fails : schemaIn files a.options f ⟨[i, j], m⟩ = .error e)

/-- What goes wrong first: reading comes before decoding, that before the files, and these are taken
in the order in which they are requested. -/
inductive FirstFault (d : Disk) (refusal : Wire.Refusal) (a : ConvertArguments) : GenerationError → Prop where
  | missing (absent : ∀ entry, d.find a.descriptorSet ≠ .ok entry) :
      FirstFault d refusal a (.load (.fileNotFound a.descriptorSet))
  | unreadable {entry : Entry} {cause : SystemError} (present : d.find a.descriptorSet = .ok entry)
      (fails : d.read a.descriptorSet = .error cause) :
      FirstFault d refusal a (.load (.unreadable a.descriptorSet cause.message))
  | malformed {bytes : Bytes} (read : d.read a.descriptorSet = .ok bytes)
      (fails : Wire.tree? .fileSet bytes = none) :
      FirstFault d refusal a (.load (.malformed (refusal .fileSet bytes)))
  | file {files : List File} {j : Nat} {name : String} {e : GenerationError} (loaded : Loaded d a files)
      (position : (requested a files)[j]? = some name)
      (before : ∀ k < j, ∀ other, (requested a files)[k]? = some other →
        ∀ e', ¬ FileFault files a.options other e')
      (fails : FileFault files a.options name e) : FirstFault d refusal a e

/-! ## What there is at all has a first -/

theorem documents_eq_error_iff : documents a files = .error e ↔
    ∃ (j : Nat) (name : String), (requested a files)[j]? = some name ∧
      (∀ k < j, ∀ other, (requested a files)[k]? = some other → ∀ e', ¬ FileFault files a.options other e') ∧
      FileFault files a.options name e :=
  generate_eq_error_iff

/-- Where a requested file cannot be converted, there are no documents. -/
theorem exists_documents_error {name : String} (hname : name ∈ requested a files)
    (hfault : ∀ outputs, outputsOf files a.options name ≠ .ok outputs) : ∃ e, documents a files = .error e := by
  cases h : documents a files with
  | error e => exact ⟨e, rfl⟩
  | ok outputs =>
    have hall := generate_isOk_iff.1 ⟨outputs, h⟩
    obtain ⟨part, hpart⟩ := outputsOf_isOk_iff.2 (hall name hname)
    exact absurd hpart (hfault part)

theorem FirstFault.of_documents (hl : Loaded d a files) (h : documents a files = .error e) :
    FirstFault d refusal a e := by
  obtain ⟨j, name, hj, hbefore, hfault⟩ := documents_eq_error_iff.1 h
  exact .file hl hj hbefore hfault

theorem Faulty.exists_first (h : Faulty d a) : ∃ e, FirstFault d refusal a e := by
  cases h with
  | unread hread =>
    cases hfind : d.find a.descriptorSet with
    | error cause => exact ⟨_, .missing fun entry h => by rw [hfind] at h; cases h⟩
    | ok entry =>
      cases hr : d.read a.descriptorSet with
      | error cause => exact ⟨_, .unreadable hfind hr⟩
      | ok bytes => exact absurd hr (hread bytes)
  | undecoded hread hfails => exact ⟨_, .malformed hread hfails⟩
  | unknown hl hname habsent =>
    obtain ⟨e, he⟩ := exists_documents_error (a := a) hname fun outputs h => by
      rw [outputsOf_unknown habsent] at h
      cases h
    exact ⟨e, .of_documents hl he⟩
  | message hl hname hnamed hmessage hfails =>
    obtain ⟨e, he⟩ := exists_documents_error (a := a) hname fun outputs h => by
      obtain ⟨n, hn⟩ := exists_schemaIn_of_outputsOf hnamed h hmessage
      rw [hfails] at hn
      cases hn
    exact ⟨e, .of_documents hl he⟩

/-! ## The run -/

/-- Loading a descriptor set leaves the disk as it is. -/
theorem load_run (refusal : Wire.Refusal) (path : String) :
    (load Disk.fileSystem refusal path).run d = (match d.find path with
    | .error _ => .error (.fileNotFound path)
    | .ok _ => match d.read path with
      | .ok bytes => DescriptorSet.ofBytes refusal bytes
      | .error e => .error (.unreadable path e.message), d) := by
  unfold load
  show ((if (d.find path).isOk then _ else _ : StateM Disk _).run d) = _
  cases d.find path with
  | error _ => rfl
  | ok _ =>
    show ((match d.read path with | .ok bytes => _ | .error e => _ : StateM Disk _).run d) = _
    cases d.read path <;> rfl

/-- The files of a set that is read are converted. -/
theorem convert_run_of_loaded (hl : Loaded d a files) :
    (convert Disk.fileSystem refusal a).run d = (convertFiles Disk.fileSystem a files).run d := by
  obtain ⟨bytes, hread, hfiles⟩ := hl
  have hload := load_run (d := d) refusal a.descriptorSet
  simp only [Disk.read_eq_ok_iff_find.1 hread, hread, DescriptorSet.ofBytes_eq_ok_iff.2 hfiles] at hload
  unfold convert
  rw [StateT.run_bind, hload]
  rfl

theorem convert_run_of_load_error {e : LoadError}
    (h : (load Disk.fileSystem refusal a.descriptorSet).run d = (.error e, d)) :
    (convert Disk.fileSystem refusal a).run d = (.failed e.exitCode ("Error: " ++ e.message), d) := by
  unfold convert
  rw [StateT.run_bind, h]
  rfl

/-- The first fault is what the run reports; the disk stays as it is. -/
theorem FirstFault.convert_run (h : FirstFault d refusal a e) : (convert Disk.fileSystem refusal a).run d =
    (.failed (if (d.read a.descriptorSet).isOk then 2 else 3) ("Error: " ++ e.message), d) := by
  cases h with
  | missing habsent =>
    have hread : (d.read a.descriptorSet).isOk = false := by
      cases h : d.read a.descriptorSet with
      | error cause => rfl
      | ok bytes => exact absurd (Disk.read_eq_ok_iff_find.1 h) (habsent _)
    rw [hread]
    refine convert_run_of_load_error (e := .fileNotFound a.descriptorSet) ?_
    rw [load_run]
    cases h : d.find a.descriptorSet with
    | error cause => rfl
    | ok entry => exact absurd h (habsent entry)
  | unreadable hfind hfails =>
    rw [hfails]
    refine convert_run_of_load_error (e := .unreadable a.descriptorSet _) ?_
    rw [load_run, hfind, hfails]
  | malformed hread hfails =>
    rw [hread]
    refine convert_run_of_load_error (e := .malformed _) ?_
    rw [load_run, Disk.read_eq_ok_iff_find.1 hread, hread]
    show (DescriptorSet.ofBytes refusal _, d) = _
    rw [DescriptorSet.ofBytes_of_tree?_eq_none hfails]
  | file hl hj hbefore hfault =>
    rw [convert_run_of_loaded hl, convertFiles, documents_eq_error_iff.2 ⟨_, _, hj, hbefore, hfault⟩]
    obtain ⟨bytes, hread, -⟩ := hl
    rw [hread]
    show (Outcome.failed e.exitCode _, d) = _
    rw [hfault.exitCode_eq]
    rfl

/-- A conversion with a fault prints nothing and leaves the disk as it was. It reports the first fault, bytes
that are no descriptor set in the words of the decoder, and ends with 3 if the descriptor set cannot be read,
and with 2 otherwise. -/
theorem fault_leaves_disk {arguments : List String} (hp : CommandLine.parse arguments = some (.convert a))
    (h : Faulty d a) (stdin : StateM Disk Bytes) :
    (∃ e, FirstFault d refusal a e) ∧ ∀ e, FirstFault d refusal a e →
      (run Disk.fileSystem refusal stdin arguments).run d =
        (⟨if (d.read a.descriptorSet).isOk then 2 else 3, [], ["Error: " ++ e.message]⟩, d) := by
  refine ⟨h.exists_first, fun e he => ?_⟩
  rw [run, hp]
  exact he.convert_run

/-- A descriptor set whose first file is in order and whose second refers to a message that there is
not. -/
def brokenSet : Bytes :=
  Wire.writeBlob 1 (Wire.writeText 1 "fine.proto" ++ Wire.writeBlob 4 (Wire.writeText 1 "Fine")) ++
  Wire.writeBlob 1 (Wire.writeText 1 "broken.proto" ++ Wire.writeBlob 4 (Wire.writeText 1 "Broken" ++
    Wire.writeBlob 2 (Wire.writeText 1 "ghost" ++ Wire.writeNumber 3 1 ++ Wire.writeNumber 5 11 ++
      Wire.writeText 6 "Ghost")))

def brokenCommand : ConvertArguments := ⟨"set.pb", [], some "out", false, {}⟩

def brokenDisk : Disk := ⟨⟨[("set.pb", .file brokenSet)]⟩, []⟩

theorem loaded_broken : Loaded brokenDisk brokenCommand [fineFile, brokenFile] :=
  ⟨brokenSet, rfl, by with_unfolding_all rfl⟩

theorem firstFault_broken : FirstFault brokenDisk refusal brokenCommand
    (.conversion "broken.proto" (.unresolvedReference "Ghost" "ghost" "Broken")) := by
  refine .file loaded_broken (j := 1) rfl ?_ (.message named_broken.2 rfl (j := 0) rfl (by simp) schemaIn_broken)
  intro k hk other hother e
  obtain rfl : k = 0 := by omega
  obtain rfl : other = fineFile.name := (Option.some.inj hother).symm
  exact faultless_fine e

/-- Under the name of the descriptor set stand bytes that are none. -/
def undecodedDisk : Disk := ⟨⟨[("set.pb", .file [0])]⟩, []⟩

/-- A set with a message that cannot be converted, and bytes that are no set. -/
theorem fault_leaves_disk_broken :
    CommandLine.parse ["convert", "set.pb", "--output-dir", "out"] = some (.convert brokenCommand) ∧
    (Faulty brokenDisk brokenCommand ∧
      (run Disk.fileSystem Wire.zeroRefusal (pure []) ["convert", "set.pb", "--output-dir", "out"]).run brokenDisk =
        (⟨2, [], ["Error: broken.proto: no such message type named Ghost (field ghost in message Broken)"]⟩,
          brokenDisk)) ∧
    Faulty undecodedDisk brokenCommand ∧
    (run Disk.fileSystem Wire.zeroRefusal (pure []) ["convert", "set.pb", "--output-dir", "out"]).run undecodedDisk =
      (⟨2, [], ["Error: invalid descriptor data: failed to decode Protobuf message: invalid tag value: 0"]⟩,
        undecodedDisk) := by
  have hp : CommandLine.parse ["convert", "set.pb", "--output-dir", "out"] = some (.convert brokenCommand) := by
    decide +kernel
  have hbroken : Faulty brokenDisk brokenCommand :=
    .message loaded_broken (by decide) named_broken.2 (j := 0) rfl schemaIn_broken
  have hread : undecodedDisk.read brokenCommand.descriptorSet = .ok [0] := rfl
  have hundecoded : Faulty undecodedDisk brokenCommand := .undecoded hread (Wire.tree?_zero .fileSet)
  exact ⟨hp, ⟨hbroken, (fault_leaves_disk hp hbroken (pure [])).2 _ firstFault_broken⟩, hundecoded,
    (fault_leaves_disk hp hundecoded (pure [])).2 _ (.malformed hread (Wire.tree?_zero .fileSet))⟩

end ProtoSchema.Program
