import ProtoSchema.Proofs.Generation.Documents
/-!
# What goes wrong first

Files are converted in the order of their names and the messages of a file in the
order in which they stand, and the first fault ends it. `FileFault` says what is
wrong with one file, without the conversion; `generate_eq_error_iff` says that the
error of several files is the fault of the first that has one.
-/

namespace ProtoSchema

variable {files : List File} {o : Options} {name : String} {e : GenerationError}

/-- What is wrong with the file that a name stands for: there is none, or a message of it has no schema
where all messages before that one have theirs. -/
inductive FileFault (files : List File) (o : Options) (name : String) : GenerationError → Prop where
  | unknown (absent : ¬ ∃ f ∈ files, f.name = name) : FileFault files o name (.load (.unknownFile name))
  | message {i j : Nat} {f : File} {m : Message} {e : ConversionError} (named : Named files i f)
      (same : f.name = name) (message : f.messages[j]? = some m)
      (before : ∀ k < j, ∀ m', f.messages[k]? = some m' → ∃ n, schemaIn files o f ⟨[i, k], m'⟩ = .ok n)
      (fails : schemaIn files o f ⟨[i, j], m⟩ = .error e) : FileFault files o name (.conversion name e)

theorem FileFault.exitCode_eq (h : FileFault files o name e) : e.exitCode = 2 := by
  cases h <;> rfl

/-- A name that occurs stands for one of the files. -/
theorem exists_named (h : ∃ f ∈ files, f.name = name) : ∃ i f, Named files i f ∧ f.name = name := by
  obtain ⟨g, hg, hname⟩ := h
  have hlt : files.findIdx (·.name = name) < files.length :=
    List.findIdx_lt_length_of_exists ⟨g, hg, by simpa using hname⟩
  have hsame : files[files.findIdx (·.name = name)].name = name := by
    simpa using List.findIdx_getElem (w := hlt)
  refine ⟨_, _, ⟨List.getElem?_eq_getElem hlt, fun k hk g hg hgname => ?_⟩, hsame⟩
  have hne := List.not_of_lt_findIdx hk
  rw [(List.getElem?_eq_some_iff.1 hg).2] at hne
  exact absurd (hgname.trans hsame) (by simpa using hne)

theorem getElem?_declarations_iff {f : File} {i j : Nat} {d : Declaration} :
    (f.declarations i)[j]? = some d ↔ ∃ m, f.messages[j]? = some m ∧ d = ⟨[i, j], m⟩ := by
  rw [File.declarations, List.getElem?_mapIdx, Option.map_eq_some_iff]
  simp only [eq_comm]

section File
variable {i : Nat} {f : File} {d : Declaration}

theorem messageOutput_eq_error_iff :
    Generation.messageOutput (.ofFiles files) o f (((Catalog.ofFiles files).enter [] f.packageName).getD []) d =
      .error e ↔ ∃ e', schemaIn files o f d = .error e' ∧ e = .conversion f.name e' := by
  unfold Generation.messageOutput schemaIn
  cases Schema.ofMessage _ o _ d f.enums <;> simp [eq_comm]

theorem messageOutput_isOk_iff :
    (∃ output, Generation.messageOutput (.ofFiles files) o f
      (((Catalog.ofFiles files).enter [] f.packageName).getD []) d = .ok output) ↔
      ∃ n, schemaIn files o f d = .ok n := by
  unfold Generation.messageOutput schemaIn
  cases Schema.ofMessage _ o _ d f.enums <;> simp

/-- A file that there is fails at the first of its messages without a schema. -/
theorem outputsOf_name_eq_error_iff (hf : Named files i f) :
    outputsOf files o f.name = .error e ↔ ∃ (j : Nat) (m : Message) (e' : ConversionError),
      f.messages[j]? = some m ∧
      (∀ k < j, ∀ m', f.messages[k]? = some m' → ∃ n, schemaIn files o f ⟨[i, k], m'⟩ = .ok n) ∧
      schemaIn files o f ⟨[i, j], m⟩ = .error e' ∧ e = .conversion f.name e' := by
  rw [outputsOf_name hf, Generation.fileOutputs]
  split
  case isTrue hm => simp [List.isEmpty_iff.1 hm]
  case isFalse =>
    rw [mapM_eq_error_iff]
    simp only [messageOutput_eq_error_iff, messageOutput_isOk_iff, getElem?_declarations_iff]
    constructor
    · rintro ⟨j, _, ⟨m, hm, rfl⟩, hbefore, e', he, rfl⟩
      exact ⟨j, m, e', hm, fun k hk m' hm' => hbefore k hk _ ⟨m', hm', rfl⟩, he, rfl⟩
    · rintro ⟨j, m, e', hm, hbefore, he, rfl⟩
      refine ⟨j, _, ⟨m, hm, rfl⟩, ?_, e', he, rfl⟩
      rintro k hk _ ⟨m', hm', rfl⟩
      exact hbefore k hk m' hm'

/-- In a file that is converted each message has a schema. -/
theorem exists_schemaIn_of_outputsOf {j : Nat} {m : Message} {outputs : List Output} (hf : Named files i f)
    (h : outputsOf files o f.name = .ok outputs) (hm : f.messages[j]? = some m) :
    ∃ n, schemaIn files o f ⟨[i, j], m⟩ = .ok n := by
  rw [outputsOf_name hf, Generation.fileOutputs] at h
  split at h
  case isTrue hnil => simp [List.isEmpty_iff.1 hnil] at hm
  case isFalse =>
    have hd := List.mem_of_getElem? (getElem?_declarations_iff.2 ⟨m, hm, rfl⟩ : (f.declarations i)[j]? = _)
    exact messageOutput_isOk_iff.1 (exists_of_mapM_eq_ok h _ hd)

end File

theorem outputsOf_eq_error_iff : outputsOf files o name = .error e ↔ FileFault files o name e := by
  constructor
  · intro h
    by_cases hname : ∃ f ∈ files, f.name = name
    · obtain ⟨i, f, hf, rfl⟩ := exists_named hname
      obtain ⟨j, m, e', hm, hbefore, he, rfl⟩ := (outputsOf_name_eq_error_iff hf).1 h
      exact .message hf rfl hm hbefore he
    · rw [outputsOf_unknown hname] at h
      obtain rfl := Except.error.inj h
      exact .unknown hname
  · rintro (hname | ⟨hf, rfl, hm, hbefore, he⟩)
    · exact outputsOf_unknown hname
    · exact (outputsOf_name_eq_error_iff hf).2 ⟨_, _, _, hm, hbefore, he, rfl⟩

/-! ## Several files -/

/-- The documents of several files are those of each in turn. -/
theorem generate_eq_mapM (names : List String) :
    generate files o names = (names.mapM (outputsOf files o)).map List.flatten := by
  unfold generate
  induction names with
  | nil => rfl
  | cons name names ih =>
    rw [Generation.allOutputs, List.mapM_cons, ih]
    show (do let outputs ← outputsOf files o name; _) = _
    cases outputsOf files o name with
    | error e => rfl
    | ok outputs => cases names.mapM (outputsOf files o) <;> rfl

theorem generate_eq_error_iff {names : List String} : generate files o names = .error e ↔
    ∃ (j : Nat) (name : String), names[j]? = some name ∧
      (∀ k < j, ∀ before, names[k]? = some before → ∀ e', ¬ FileFault files o before e') ∧
      FileFault files o name e := by
  have hmap : generate files o names = .error e ↔ names.mapM (outputsOf files o) = .error e := by
    rw [generate_eq_mapM]
    cases names.mapM (outputsOf files o) <;> simp [Except.map]
  have hok : ∀ before, (∃ outputs, outputsOf files o before = .ok outputs) ↔
      ∀ e', ¬ FileFault files o before e' := fun before => by
    simp only [← outputsOf_eq_error_iff]
    cases outputsOf files o before <;> simp
  simp only [hmap, mapM_eq_error_iff, hok, outputsOf_eq_error_iff]

/-! ## Two files, one with a fault -/

def fineFile : File := ⟨"fine.proto", none, [⟨"Fine", [], [], [], false, none⟩], []⟩

def brokenMessage : Message :=
  ⟨"Broken", [⟨"ghost", "ghost", 1, .message, .optional, "Ghost", none⟩], [], [], false, none⟩

def brokenFile : File := ⟨"broken.proto", none, [brokenMessage], []⟩

theorem named_broken : Named [fineFile, brokenFile] 0 fineFile ∧ Named [fineFile, brokenFile] 1 brokenFile :=
  ⟨named_of_nodup (by decide) rfl, named_of_nodup (by decide) rfl⟩

theorem schemaIn_broken : schemaIn [fineFile, brokenFile] {} brokenFile ⟨[1, 0], brokenMessage⟩ =
    .error (.unresolvedReference "Ghost" "ghost" "Broken") :=
  (ofMessage_eq_error _ _ _ _ _).2 (Catalog.expand_eq_error_iff.2 ⟨0, _, rfl, Catalog.content_unresolved rfl rfl, by simp⟩)

theorem faultless_fine (e : GenerationError) : ¬ FileFault [fineFile, brokenFile] {} fineFile.name e := by
  intro hfault
  obtain ⟨j, m, e', hm, -, he, -⟩ := (outputsOf_name_eq_error_iff named_broken.1).1 (outputsOf_eq_error_iff.2 hfault)
  obtain rfl : m = ⟨"Fine", [], [], [], false, none⟩ := List.mem_singleton.1 (List.mem_of_getElem? hm)
  have hexpand := (ofMessage_eq_error _ _ _ _ _).1 he
  rw [Catalog.expandVisit, Visit.start, Catalog.expand_nil] at hexpand
  cases hexpand

end ProtoSchema
