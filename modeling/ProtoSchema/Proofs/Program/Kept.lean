import ProtoSchema.Proofs.Generation.OutputNames
import ProtoSchema.Proofs.Program.Arguments
import ProtoSchema.Proofs.Program.Failures
import ProtoSchema.Proofs.Program.Stores
/-!
# Documents on the disk

A command that writes its documents into an empty directory leaves each of them there
under its own name, and nothing else, if these names are different
(`documents_kept`). They are if packages are part of them; without that, two
declarations of one name in different packages share a file (`document_replaced`).
-/

namespace ProtoSchema.Program

open CommandLine (ConvertArguments)
open Disk (Grows)

variable {d d' : Disk} {directory : String} {pretty : Bool} {outputs : List Output}

/-- Where a path leads in the end there was nothing at first, or an empty directory. -/
def Vacant (d d' : Disk) (path : String) : Prop :=
  ∀ p, d'.place path = .ok p → d.at? p = none ∨ d.at? p = some (.directory .empty)

/-- It is so at first already, if the path leads somewhere then. -/
theorem Vacant.of_place {path : String} {q : Position} (h : Grows d d') (hq : d.place path = .ok q)
    (hempty : d.at? q = none ∨ d.at? q = some (.directory .empty)) : Vacant d d' path := fun p hp => by
  obtain rfl := Except.ok.inj ((h.place hq).symm.trans hp)
  exact hempty

theorem Vacant.at?_append {path : String} {p s : Position} (h : Vacant d d' path) (hp : d'.place path = .ok p) :
    d.at? (p ++ s) = none ∨ d.at? (p ++ s) = some (.directory .empty) := by
  rw [Disk.at?_append]
  rcases h p hp with h | h
  · exact .inl (by rw [h]; rfl)
  · rw [h]
    cases s with
    | nil => exact .inr rfl
    | cons name s => exact .inl rfl

/-! ## Texts under different names -/

/-- The names of documents are different and made of plain steps. -/
structure NamedApart (outputs : List Output) : Prop where
  distinct : (outputs.map (·.name)).Nodup
  plain : ∀ x ∈ outputs, ∀ step ∈ Path.steps x.name, Path.Plain step

section
variable (hd : directory ≠ "") (hnames : NamedApart outputs)
  (hrun : (storeAll Disk.fileSystem (targets directory pretty outputs)).run d = (.ok (), d'))
include hd hnames hrun

/-- The path of each document leads into the directory. -/
theorem place_of_output {x : Output} (hx : x ∈ outputs) : ∃ q, d'.place directory = .ok q ∧ d'.IsDirectoryAt q ∧
    d'.place (Path.join directory x.name) = .ok (q ++ Path.steps x.name) := by
  obtain ⟨p, hp⟩ := (storeAll_run hrun).2.1 (Path.join directory x.name, x.render pretty) (List.mem_map_of_mem hx)
  obtain ⟨q, hq, hdirectory, rfl⟩ := Disk.place_join hd (hnames.plain x hx) hp
  exact ⟨q, hq, hdirectory, hp⟩

theorem place_of_output_at {q : Position} (hq : d'.place directory = .ok q) {x : Output} (hx : x ∈ outputs) :
    d'.place (Path.join directory x.name) = .ok (q ++ Path.steps x.name) := by
  obtain ⟨q', hq', -, hplace⟩ := place_of_output hd hnames hrun hx
  obtain rfl := Except.ok.inj (hq.symm.trans hq')
  exact hplace

/-- The files in the directory are the documents, each with its own text, and those that were there before. -/
theorem bytes?_eq_some_iff_output {q r : Position} {bytes : Bytes} (hq : d'.place directory = .ok q) :
    d'.bytes? r = some bytes ↔
      (∃ x ∈ outputs, r = q ++ Path.steps x.name ∧ bytes = Bytes.ofText (x.render pretty)) ∨
      (∀ x ∈ outputs, r ≠ q ++ Path.steps x.name) ∧ d.bytes? r = some bytes := by
  have hplace := fun x (hx : x ∈ outputs) => place_of_output_at hd hnames hrun hq hx
  rw [(storeAll_run hrun).2.2 r]
  cases hfind : (targets directory pretty outputs).reverse.find? fun t => d'.place t.1 = .ok r with
  | none =>
    have hnone : ∀ x ∈ outputs, r ≠ q ++ Path.steps x.name := fun x hx heq => by
      have hmem : (Path.join directory x.name, x.render pretty) ∈ (targets directory pretty outputs).reverse :=
        List.mem_reverse.2 (List.mem_map_of_mem hx)
      have hno := List.find?_eq_none.1 hfind _ hmem
      rw [hplace x hx, heq] at hno
      exact hno (decide_eq_true rfl)
    constructor
    · exact fun h => .inr ⟨hnone, h⟩
    · rintro (⟨x, hx, heq, -⟩ | ⟨-, h⟩)
      · exact absurd heq (hnone x hx)
      · exact h
  | some t =>
    obtain ⟨x, hx, rfl⟩ := List.mem_map.1 (List.mem_reverse.1 (List.mem_of_find?_eq_some hfind))
    have hr : d'.place (Path.join directory x.name) = .ok r := by simpa using List.find?_some hfind
    obtain rfl := Except.ok.inj ((hplace x hx).symm.trans hr)
    show some (Bytes.ofText (x.render pretty)) = some bytes ↔ _
    constructor
    · exact fun h => .inl ⟨x, hx, rfl, (Option.some.inj h).symm⟩
    · rintro (⟨y, hy, heq, rfl⟩ | ⟨hnone, -⟩)
      · -- Different documents have different names, and those different steps.
        have hname := Path.steps_injective (List.append_cancel_left heq)
        rw [List.inj_on_of_nodup_map hnames.distinct hx hy hname]
      · exact absurd rfl (hnone x hx)

/-- Each document is read back at its own path. -/
theorem read_output {x : Output} (hx : x ∈ outputs) :
    d'.read (Path.join directory x.name) = .ok (Bytes.ofText (x.render pretty)) := by
  obtain ⟨q, hq, -, hplace⟩ := place_of_output hd hnames hrun hx
  exact Disk.read_eq_ok_iff.2 ⟨_, hplace, (bytes?_eq_some_iff_output hd hnames hrun hq).2 (.inl ⟨x, hx, rfl, rfl⟩)⟩

/-- In a directory that was empty there are as many files as documents. -/
theorem length_filesBelow (hempty : Vacant d d' directory) : (d'.filesBelow directory).length = outputs.length := by
  by_cases hdirectory : ∃ q, d'.place directory = .ok q ∧ d'.IsDirectoryAt q
  · obtain ⟨q, hq, hdirectory⟩ := hdirectory
    have htidy : d.TidyAt q := fun e he => by
      rcases hempty q hq with h | h <;> rw [h] at he <;> cases he
      exact Entry.tidy_empty
    obtain ⟨files, hlength, hnodup, hmem⟩ := Disk.exists_files hq hdirectory ((storeAll_run hrun).1.tidy htidy)
    have hpositions : ∀ r, r ∈ files.map Prod.fst ↔ r ∈ outputs.map fun x => q ++ Path.steps x.name := by
      intro r
      constructor
      · intro hr
        obtain ⟨⟨r, bytes⟩, hfile, rfl⟩ := List.mem_map.1 hr
        obtain ⟨⟨s, rfl⟩, hbytes⟩ := (hmem _ _).1 hfile
        rcases (bytes?_eq_some_iff_output hd hnames hrun hq).1 hbytes with ⟨x, hx, heq, -⟩ | ⟨-, hbefore⟩
        · exact List.mem_map.2 ⟨x, hx, heq.symm⟩
        · rw [Disk.bytes?_eq_some_iff] at hbefore
          rcases hempty.at?_append (s := s) hq with h | h <;> rw [h] at hbefore <;> cases hbefore
      · intro hr
        obtain ⟨x, hx, rfl⟩ := List.mem_map.1 hr
        have hbytes := (bytes?_eq_some_iff_output hd hnames hrun hq).2 (.inl ⟨x, hx, rfl, rfl⟩)
        exact List.mem_map.2 ⟨_, (hmem _ _).2 ⟨List.prefix_append _ _, hbytes⟩, rfl⟩
    have hdistinct : (outputs.map fun x => q ++ Path.steps x.name).Nodup := by
      have hsteps := hnames.distinct.map (f := fun name => q ++ Path.steps name) fun a b h =>
        Path.steps_injective (List.append_cancel_left h)
      rwa [List.map_map] at hsteps
    have hperm := (List.perm_ext_iff_of_nodup hnodup hdistinct).2 hpositions
    rw [hlength, ← List.length_map Prod.fst, hperm.length_eq, List.length_map]
  · have hnone : outputs = [] := List.eq_nil_iff_forall_not_mem.2 fun x hx => by
      obtain ⟨q, hq, hq', -⟩ := place_of_output hd hnames hrun hx
      exact hdirectory ⟨q, hq, hq'⟩
    rw [Disk.filesBelow_eq_nil fun p hp hp' => hdirectory ⟨p, hp, hp'⟩, hnone]
    rfl

end

/-! ## The run -/

variable {a : ConvertArguments} {files : List File} {outcome : Outcome} {refusal : Wire.Refusal}

/-- A conversion into a directory that succeeds has stored all documents. -/
theorem stored_of_exitCode (hl : Loaded d a files) (hd : a.outputDirectory = some directory)
    (hrun : (convert Disk.fileSystem refusal a).run d = (outcome, d')) (hexit : outcome.exitCode = 0) :
    ∃ outputs, documents a files = .ok outputs ∧ outcome = ⟨0, [], [report outputs.length directory]⟩ ∧
      (storeAll Disk.fileSystem (targets directory a.pretty outputs)).run d = (.ok (), d') := by
  rw [convert_run_of_loaded hl, convertFiles] at hrun
  cases hdocuments : documents a files with
  | error e =>
    rw [hdocuments] at hrun
    obtain rfl : Outcome.failed e.exitCode ("Error: " ++ e.message) = outcome := congrArg Prod.fst hrun
    obtain ⟨_, _, _, _, hfault⟩ := documents_eq_error_iff.1 hdocuments
    exact absurd (hfault.exitCode_eq.symm.trans hexit) (by decide)
  | ok outputs =>
    rw [hdocuments] at hrun
    simp only [deliver, hd] at hrun
    rw [StateT.run_bind] at hrun
    cases hstore : (storeAll Disk.fileSystem (targets directory a.pretty outputs)).run d with
    | mk result d₁ =>
      rw [hstore] at hrun
      cases result with
      | error e =>
        obtain rfl : Outcome.failed 3 e.message = outcome := congrArg Prod.fst hrun
        cases hexit
      | ok =>
        obtain rfl : d₁ = d' := congrArg Prod.snd hrun
        exact ⟨outputs, rfl, (congrArg Prod.fst hrun).symm, hstore⟩

/-- The names of the declarations that have documents in the file of a name. -/
def documentedIn (files : List File) (name : String) : List String :=
  (files.find? (·.name = name)).elim [] File.documented

/-- Either packages are part of the names of documents, or the declarations have different names. -/
def Apart (a : ConvertArguments) (files : List File) : Prop :=
  a.options.prefixSchemaFilesWithPackage = true ∨ ((requested a files).flatMap (documentedIn files)).Nodup

theorem documentedIn_name (hfiles : ProperNames files) {f : File} (hf : f ∈ files) :
    documentedIn files f.name = f.documented := by
  unfold documentedIn
  cases hfind : files.find? (·.name = f.name) with
  | none => exact absurd (decide_eq_true rfl) (List.find?_eq_none.1 hfind f hf)
  | some g =>
    have hname : g.name = f.name := by simpa using List.find?_some hfind
    rw [List.inj_on_of_nodup_map hfiles.names (List.mem_of_find?_eq_some hfind) hf hname]
    rfl

/-- The documents of a set with proper names are named apart. -/
theorem namedApart_of_documents (hfiles : ProperNames files) (hrequested : (requested a files).Nodup)
    (hapart : Apart a files) (h : documents a files = .ok outputs) : NamedApart outputs := by
  obtain ⟨chosen, hchosen, hnamed, hnames⟩ := generate_names h
  have hmem : ∀ f ∈ chosen, f ∈ files := fun f hf => (hnamed f hf).elim fun _ h => h.mem
  have hdocumented : (requested a files).flatMap (documentedIn files) = chosen.flatMap File.documented := by
    show List.flatMap _ (if a.files.isEmpty then files.map (·.name) else a.files) = _
    rw [← hchosen, List.flatMap_map]
    exact List.flatMap_congr fun f hf => documentedIn_name hfiles (hmem f hf)
  refine ⟨?_, fun x hx => ?_⟩
  · rw [hnames]
    exact hfiles.nodup_outputNames hmem (hchosen ▸ hrequested) (hapart.imp_right fun h => hdocumented ▸ h)
  · obtain ⟨_, f, hf, -, name, hdeclared, heq⟩ := exists_declared_of_generate h hx
    rw [heq]
    exact plain_outputName (hfiles.packages f hf.mem)
      (hfiles.declarations f hf.mem name (mem_declared_of_documented hdeclared))

/-- A conversion into an empty directory that succeeds leaves all documents there, each as it was made, and
no other file: as many as it says. -/
theorem documents_kept {arguments : List String} (hp : CommandLine.parse arguments = some (.convert a))
    (hd : a.outputDirectory = some directory) (hl : Loaded d a files) (hfiles : ProperNames files)
    (hrequested : a.files.Nodup) (hapart : Apart a files) {stdin : StateM Disk Bytes}
    (hrun : (run Disk.fileSystem refusal stdin arguments).run d = (outcome, d')) (hexit : outcome.exitCode = 0)
    (hempty : Vacant d d' directory) :
    ∃ outputs, documents a files = .ok outputs ∧ outcome.stderr = [report outputs.length directory] ∧
      (∀ x ∈ outputs, d'.read (Path.join directory x.name) = .ok (Bytes.ofText (x.render a.pretty))) ∧
      (d'.filesBelow directory).length = outputs.length := by
  have hne : directory ≠ "" := fun h => CommandLine.outputDirectory_ne_empty hp (h ▸ hd)
  have hall : (requested a files).Nodup := by
    unfold requested
    split
    · exact hfiles.names
    · exact hrequested
  rw [run, hp] at hrun
  obtain ⟨outputs, houtputs, rfl, hstore⟩ := stored_of_exitCode hl hd hrun hexit
  have hnames := namedApart_of_documents hfiles hall hapart houtputs
  exact ⟨outputs, houtputs, rfl, fun x hx => read_output hne hnames hstore hx,
    length_filesBelow hne hnames hstore hempty⟩

/-! ## Two declarations of one name -/

/-- A file of a package that declares the enumeration `Size` with one value. -/
def sizesFile (name package label : String) : File :=
  ⟨name, some package, [], [⟨"Size", [⟨label, 0, none⟩], none⟩]⟩

def sizesFileBytes (name package label : String) : Bytes :=
  Wire.writeText 1 name ++ Wire.writeText 2 package ++
    Wire.writeBlob 5 (Wire.writeText 1 "Size" ++ Wire.writeBlob 2 (Wire.writeText 1 label))

def sizes : List File := [sizesFile "hat.proto" "hat" "WIDE", sizesFile "shoe.proto" "shoe" "LONG"]

def sizesBytes : Bytes :=
  Wire.writeBlob 1 (sizesFileBytes "hat.proto" "hat" "WIDE") ++
    Wire.writeBlob 1 (sizesFileBytes "shoe.proto" "shoe" "LONG")

/-- An empty directory beside a descriptor set. -/
def sizesDisk : Disk := ⟨⟨[("in.pb", .file sizesBytes), ("out", .directory .empty)]⟩, []⟩

def sizesCommand (prefixed : Bool) : ConvertArguments :=
  ⟨"in.pb", [], some "out", false, { prefixSchemaFilesWithPackage := prefixed }⟩

def sizesArguments (prefixed : Bool) : List String :=
  ["convert", "in.pb", "--output-dir", "out"] ++ if prefixed then ["--prefix-with-package"] else []

def sizesRun (prefixed : Bool) : Outcome × Disk :=
  (run Disk.fileSystem Wire.zeroRefusal (pure []) (sizesArguments prefixed)).run sizesDisk

theorem parse_sizes (prefixed : Bool) :
    CommandLine.parse (sizesArguments prefixed) = some (.convert (sizesCommand prefixed)) := by
  cases prefixed <;> decide +kernel

theorem properNames_sizes : ProperNames sizes := by decide +kernel

theorem read_sizes : sizesDisk.read "in.pb" = .ok sizesBytes := rfl

theorem loaded_sizes (prefixed : Bool) : Loaded sizesDisk (sizesCommand prefixed) sizes :=
  ⟨sizesBytes, read_sizes, by with_unfolding_all rfl⟩

theorem sizesRun_outcome (prefixed : Bool) :
    (sizesRun prefixed).1 = ⟨0, [], ["Wrote 2 schema file(s) to out"]⟩ := by
  cases prefixed <;> decide +kernel

theorem vacant_sizes : Vacant sizesDisk (sizesRun true).2 "out" := by
  have hrun : (convert Disk.fileSystem Wire.zeroRefusal (sizesCommand true)).run sizesDisk =
      ((sizesRun true).1, (sizesRun true).2) := by
    rw [sizesRun, run, parse_sizes]
    rfl
  have hexit : (sizesRun true).1.exitCode = 0 := by rw [sizesRun_outcome]
  obtain ⟨_, -, -, hstore⟩ := stored_of_exitCode (loaded_sizes true) rfl hrun hexit
  exact .of_place (storeAll_run hstore).1 (q := ["out"]) (by decide +kernel) (.inr rfl)

theorem documents_kept_sizes :
    CommandLine.parse (sizesArguments true) = some (.convert (sizesCommand true)) ∧
    Loaded sizesDisk (sizesCommand true) sizes ∧ ProperNames sizes ∧ Apart (sizesCommand true) sizes ∧
    (sizesRun true).1 = ⟨0, [], ["Wrote 2 schema file(s) to out"]⟩ ∧ Vacant sizesDisk (sizesRun true).2 "out" ∧
    ∃ outputs, documents (sizesCommand true) sizes = .ok outputs ∧
      (∀ x ∈ outputs, (sizesRun true).2.read (Path.join "out" x.name) = .ok (Bytes.ofText (x.render false))) ∧
      ((sizesRun true).2.filesBelow "out").length = outputs.length := by
  have hapart : Apart (sizesCommand true) sizes := .inl rfl
  have hrun : (run Disk.fileSystem Wire.zeroRefusal (pure []) (sizesArguments true)).run sizesDisk =
      ((sizesRun true).1, (sizesRun true).2) := rfl
  have hexit : (sizesRun true).1.exitCode = 0 := by rw [sizesRun_outcome]
  obtain ⟨outputs, houtputs, -, hread, hlength⟩ := documents_kept (parse_sizes true) rfl (loaded_sizes true)
    properNames_sizes List.nodup_nil hapart hrun hexit vacant_sizes
  exact ⟨parse_sizes true, loaded_sizes true, properNames_sizes, hapart, sizesRun_outcome true, vacant_sizes,
    outputs, houtputs, hread, hlength⟩

/-- Without packages in their names, two documents go into one file, and both of them are counted. -/
theorem document_replaced :
    CommandLine.parse (sizesArguments false) = some (.convert (sizesCommand false)) ∧
    Loaded sizesDisk (sizesCommand false) sizes ∧ ProperNames sizes ∧
    sizesDisk.find "out" = .ok (.directory .empty) ∧
    (sizesRun false).1 = ⟨0, [], ["Wrote 2 schema file(s) to out"]⟩ ∧
    ((sizesRun false).2.filesBelow "out").length = 1 :=
  ⟨parse_sizes false, loaded_sizes false, properNames_sizes, rfl, sizesRun_outcome false, by decide +kernel⟩

end ProtoSchema.Program
