import ProtoSchema.Proofs.Generation.OutputNames
import ProtoSchema.Proofs.Program.Arguments
import ProtoSchema.Proofs.Program.Failures
import ProtoSchema.Proofs.Program.Stores
/-!
# What a conversion touches

A conversion with a directory for its output writes into that directory and makes what is missing of it. Nothing checks
the names that a descriptor set gives to its declarations, so a name may lead out of the directory, and then its
document is stored elsewhere (`output_outside`). All other documents are inside, and nothing else is touched, whether or
not the conversion succeeds (`output_inside`).
-/

namespace ProtoSchema.Program

open CommandLine (ConvertArguments)
open Disk (Confined)

variable {d d' : Disk} {a : ConvertArguments} {files : List File} {directory : String} {outputs : List Output}
  {outcome : Outcome} {refusal : Wire.Refusal}

/-- The name of a document for a requested file. -/
def NamesOutput (a : ConvertArguments) (files : List File) (name : String) : Prop :=
  ∃ i f, Named files i f ∧ f.name ∈ requested a files ∧
    ∃ declared ∈ f.documented, name = f.outputName a.options declared

/-- The name of a document that is absolute or comes to lead outwards. -/
structure Stray (a : ConvertArguments) (files : List File) (name : String) : Prop where
  output : NamesOutput a files name
  outward : ¬ Path.Inward name

/-- A conversion touches the places of its documents and the ways to them. -/
theorem convert_confined (refusal : Wire.Refusal) (hl : Loaded d a files) (hd : a.outputDirectory = some directory) :
    Confined
    (fun p => ∃ name, NamesOutput a files name ∧ d.PassedBy (Path.join directory name) p)
    (fun p => ∃ name, NamesOutput a files name ∧ p = d.spot (Path.join directory name)) d
    ((convert Disk.fileSystem refusal a).run d).2 := by
  rw [convert_run_of_loaded hl, convertFiles]
  cases h : documents a files with
  | error e => exact .refl d
  | ok outputs =>
    simp only [deliver, hd]
    have hname : ∀ t ∈ targets directory a.pretty outputs, ∃ name, NamesOutput a files name ∧
        t.1 = Path.join directory name := fun t ht => by
      obtain ⟨x, hx, rfl⟩ := List.mem_map.1 ht
      exact ⟨x.name, exists_declared_of_generate h hx, rfl⟩
    refine .bind ((storeAll_confined _ d).mono (fun p hp => ?made) fun p hp => ?written) fun result d' _ => ?_
    case made =>
      obtain ⟨t, ht, hpassed⟩ := hp
      obtain ⟨name, hname, heq⟩ := hname t ht
      exact ⟨name, hname, heq ▸ hpassed⟩
    case written =>
      obtain ⟨t, ht, hspot⟩ := hp
      obtain ⟨name, hname, heq⟩ := hname t ht
      exact ⟨name, hname, heq ▸ hspot⟩
    cases result <;> exact .refl d'

/-- A conversion into a directory creates and overwrites files only in the directory and below it, and makes
directories only there and on the path of the directory. Documents with stray names are excepted, together with the
ways to them. -/
theorem output_inside {arguments : List String} (hp : CommandLine.parse arguments = some (.convert a))
    (hd : a.outputDirectory = some directory) (hl : Loaded d a files) {stdin : StateM Disk Bytes}
    (hrun : (run Disk.fileSystem refusal stdin arguments).run d = (outcome, d')) :
    (∀ q, d'.place directory = .ok q → d.spot directory = q) ∧
    Confined
      (fun p => d.spot directory <+: p ∨ d.PassedBy directory p ∨
        ∃ name, Stray a files name ∧ d.PassedBy (Path.join directory name) p)
      (fun p => d.spot directory <+: p ∨ ∃ name, Stray a files name ∧ p = d.spot (Path.join directory name)) d d' := by
  have hne : directory ≠ "" := fun h => CommandLine.outputDirectory_ne_empty hp (h ▸ hd)
  have hconvert := convert_confined refusal hl hd
  rw [run, hp] at hrun
  rw [show (convert Disk.fileSystem refusal a).run d = (outcome, d') from hrun] at hconvert
  refine ⟨fun q hq => hconvert.grows.spot_eq directory ▸ Disk.spot_of_place hq,
    hconvert.mono (fun p hp => ?made) fun p hp => ?written⟩
  case made =>
    obtain ⟨name, hname, hpassed⟩ := hp
    by_cases hinward : Path.Inward name
    · exact (Disk.passedBy_of_inward hne hinward hpassed).elim (fun h => .inr (.inl h)) .inl
    · exact .inr (.inr ⟨name, ⟨hname, hinward⟩, hpassed⟩)
  case written =>
    obtain ⟨name, hname, heq⟩ := hp
    by_cases hinward : Path.Inward name
    · exact .inl (heq ▸ Disk.spot_prefix_of_inward hne hinward)
    · exact .inr ⟨name, ⟨hname, hinward⟩, heq⟩

/-! ## A name that leads out of the directory -/

/-- A file that declares one enumeration under any name. -/
def strayFile (name : String) : File := ⟨"size.proto", none, [], [⟨name, [⟨"WIDE", 0, none⟩], none⟩]⟩

def strayBytes (name : String) : Bytes :=
  Wire.writeBlob 1 (Wire.writeText 1 "size.proto" ++
    Wire.writeBlob 5 (Wire.writeText 1 name ++ Wire.writeBlob 2 (Wire.writeText 1 "WIDE")))

/-- A descriptor set beside a directory with a file. -/
def strayDisk (name : String) : Disk :=
  ⟨⟨[("in.pb", .file (strayBytes name)),
     ("notes", .directory ⟨[("Size.jsonschema", .file (Bytes.ofText "none"))]⟩)]⟩, []⟩

def strayCommand : ConvertArguments := ⟨"in.pb", [], some "gen/out", false, {}⟩

def strayArguments : List String := ["convert", "in.pb", "--output-dir", "gen/out"]

def strayRun (name : String) : Outcome × Disk :=
  (run Disk.fileSystem Wire.zeroRefusal (pure []) strayArguments).run (strayDisk name)

theorem parse_stray : CommandLine.parse strayArguments = some (.convert strayCommand) := by decide +kernel

theorem loaded_draft : Loaded (strayDisk "draft/../Size") strayCommand [strayFile "draft/../Size"] :=
  ⟨strayBytes "draft/../Size", rfl, by with_unfolding_all rfl⟩

theorem not_stray_draft (name : String) : ¬ Stray strayCommand [strayFile "draft/../Size"] name := by
  rintro ⟨⟨i, f, hf, -, declared, hdeclared, rfl⟩, houtward⟩
  obtain rfl := List.mem_singleton.1 hf.mem
  obtain rfl : declared = "draft/../Size" := by simpa [strayFile, File.documented] using hdeclared
  exact houtward (by decide +kernel)

/-- A name that turns back stays inside: all files are the same outside. -/
theorem output_inside_draft :
    CommandLine.parse strayArguments = some (.convert strayCommand) ∧
    strayCommand.outputDirectory = some "gen/out" ∧
    Loaded (strayDisk "draft/../Size") strayCommand [strayFile "draft/../Size"] ∧
    (strayRun "draft/../Size").1 = ⟨0, [], ["Wrote 1 schema file(s) to gen/out"]⟩ ∧
    (strayRun "draft/../Size").2.IsDirectoryAt ["gen", "out", "draft"] ∧
    ∀ p, ¬ ["gen", "out"] <+: p →
      (strayRun "draft/../Size").2.bytes? p = (strayDisk "draft/../Size").bytes? p := by
  have hrun : (run Disk.fileSystem Wire.zeroRefusal (pure []) strayArguments).run (strayDisk "draft/../Size") =
    ((strayRun "draft/../Size").1, (strayRun "draft/../Size").2) := rfl
  obtain ⟨-, hconfined⟩ := output_inside parse_stray rfl loaded_draft hrun
  have hspot : (strayDisk "draft/../Size").spot "gen/out" = ["gen", "out"] := by decide +kernel
  refine ⟨parse_stray, rfl, loaded_draft, by decide +kernel, by decide +kernel, fun p hp => hconfined.files ?_⟩
  rintro (hinside | ⟨name, hstray, -⟩)
  · exact hp (hspot ▸ hinside)
  · exact not_stray_draft name hstray

/-- A name that leads outwards takes its document out of the directory, over a file that is there, and the directory
is made for it first, with the one around it. -/
theorem output_outside :
    CommandLine.parse strayArguments = some (.convert strayCommand) ∧
    strayCommand.outputDirectory = some "gen/out" ∧
    Loaded (strayDisk "../../notes/Size") strayCommand [strayFile "../../notes/Size"] ∧
    (strayRun "../../notes/Size").1 = ⟨0, [], ["Wrote 1 schema file(s) to gen/out"]⟩ ∧
    (strayRun "../../notes/Size").2.place "gen/out" = .ok ["gen", "out"] ∧
    ¬ ["gen", "out"] <+: ["notes", "Size.jsonschema"] ∧
    (strayDisk "../../notes/Size").bytes? ["notes", "Size.jsonschema"] = some (Bytes.ofText "none") ∧
    (strayRun "../../notes/Size").2.bytes? ["notes", "Size.jsonschema"] ≠ some (Bytes.ofText "none") ∧
    ¬ ["gen", "out"] <+: ["gen"] ∧
    ¬ (strayDisk "../../notes/Size").IsDirectoryAt ["gen"] ∧ (strayRun "../../notes/Size").2.IsDirectoryAt ["gen"] :=
  ⟨parse_stray, rfl, ⟨strayBytes "../../notes/Size", rfl, by with_unfolding_all rfl⟩, by decide +kernel,
    by decide +kernel, by decide, rfl, by decide +kernel, by decide, by decide +kernel, by decide +kernel⟩

end ProtoSchema.Program
