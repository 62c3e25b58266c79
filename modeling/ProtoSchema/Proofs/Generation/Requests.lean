import ProtoSchema.Proofs.Generation.Faults
/-!
# Several files in turn

The documents of several files are those of the file that each name stands for, one file after the other
(`generate_in_order`): a document for each of its messages, or for each of its enumerations where it has no
messages. The first name without documents ends it, with the first fault of its file. So names can be split
into several requests, made one after the other.
-/

namespace ProtoSchema

variable {files : List File} {o : Options} {name : String} {i : Nat} {f : File} {outputs : List Output}

/-- The name stands for a file whose messages all have schemas. -/
def Converts (files : List File) (o : Options) (name : String) : Prop :=
  ∃ i f, Named files i f ∧ f.name = name ∧
    ∀ j m, f.messages[j]? = some m → ∃ n, schemaIn files o f ⟨[i, j], m⟩ = .ok n

/-- The documents of the file that a name stands for. -/
inductive DocumentsOf (files : List File) (o : Options) (name : String) : List Output → Prop where
  | messages {i : Nat} {f : File} {outputs : List Output} (named : Named files i f) (same : f.name = name)
      (declares : f.messages ≠ []) (each : List.Forall₂ (fun d output => ∃ n, schemaIn files o f d = .ok n ∧
        ⟨f.outputName o d.message.name, n⟩ = output) (f.declarations i) outputs) : DocumentsOf files o name outputs
  | enums {i : Nat} {f : File} (named : Named files i f) (same : f.name = name) (declares : f.messages = []) :
      DocumentsOf files o name (f.enums.map fun e => ⟨f.outputName o e.name, .ofEnum e⟩)

/-! ## One file -/

theorem outputsOf_enums (hf : Named files i f) (hm : f.messages = []) :
    outputsOf files o f.name = .ok (f.enums.map fun e => ⟨f.outputName o e.name, .ofEnum e⟩) := by
  rw [outputsOf_name hf, Generation.fileOutputs, if_pos (by rw [hm]; rfl)]

theorem outputsOf_eq_ok_iff_documentsOf : outputsOf files o name = .ok outputs ↔ DocumentsOf files o name outputs := by
  constructor
  · intro h
    by_cases hname : ∃ f ∈ files, f.name = name
    · obtain ⟨i, f, hf, rfl⟩ := exists_named hname
      by_cases hm : f.messages = []
      · rw [outputsOf_enums hf hm] at h
        exact Except.ok.inj h ▸ .enums hf rfl hm
      · exact .messages hf rfl hm ((outputsOf_messages hf hm).1 h)
    · rw [outputsOf_unknown hname] at h
      cases h
  · rintro (⟨hf, rfl, hm, heach⟩ | ⟨hf, rfl, hm⟩)
    · exact (outputsOf_messages hf hm).2 heach
    · exact outputsOf_enums hf hm

theorem outputsOf_isOk_iff : (∃ outputs, outputsOf files o name = .ok outputs) ↔ Converts files o name := by
  constructor
  · rintro ⟨outputs, h⟩
    have hname : ∃ f ∈ files, f.name = name := by
      by_contra hno
      rw [outputsOf_unknown hno] at h
      cases h
    obtain ⟨i, f, hf, rfl⟩ := exists_named hname
    exact ⟨i, f, hf, rfl, fun j m hm => exists_schemaIn_of_outputsOf hf h hm⟩
  · rintro ⟨i, f, hf, rfl, hall⟩
    cases h : outputsOf files o f.name with
    | ok outputs => exact ⟨outputs, rfl⟩
    | error e =>
      obtain ⟨j, m, e', hm, -, hfails, -⟩ := (outputsOf_name_eq_error_iff hf).1 h
      obtain ⟨n, hn⟩ := hall j m hm
      cases hfails.symm.trans hn

theorem converts_iff_faultless : Converts files o name ↔ ∀ e, ¬ FileFault files o name e := by
  rw [← outputsOf_isOk_iff]
  simp only [← outputsOf_eq_error_iff]
  cases outputsOf files o name <;> simp

/-! ## One file after the other -/

theorem generate_isOk_iff {names : List String} :
    (∃ outputs, generate files o names = .ok outputs) ↔ ∀ name ∈ names, Converts files o name := by
  simp only [generate_eq_mapM, ← outputsOf_isOk_iff, ← mapM_isOk_iff]
  cases names.mapM (outputsOf files o) <;> simp [Except.map]

theorem generate_eq_ok_iff {names : List String} : generate files o names = .ok outputs ↔
    ∃ parts, List.Forall₂ (DocumentsOf files o) names parts ∧ parts.flatten = outputs := by
  simp only [generate_eq_mapM, map_eq_ok_iff, mapM_eq_ok_iff, outputsOf_eq_ok_iff_documentsOf]

theorem generate_append (names more : List String) : generate files o (names ++ more) =
    (generate files o names).bind fun outputs => (generate files o more).map (outputs ++ ·) := by
  rw [generate_eq_mapM, generate_eq_mapM, generate_eq_mapM, List.mapM_append]
  cases names.mapM (outputsOf files o) with
  | error e => rfl
  | ok parts =>
    cases more.mapM (outputsOf files o) with
    | error e => rfl
    | ok rest => exact congrArg Except.ok List.flatten_append

/-- Several files are converted in the order of their names, until one fails. There are documents if every name
stands for a file whose messages all have schemas, and they are the documents of these files in turn. The error
is else the fault of the first name that has one. So the documents of two lists of names, one after the other,
are those of the first and then those of the second, unless there is an error, and one of the first comes
before any of the second. -/
theorem generate_in_order (files : List File) (o : Options) (names : List String) :
    ((∃ outputs, generate files o names = .ok outputs) ↔ ∀ name ∈ names, Converts files o name) ∧
    (∀ outputs, generate files o names = .ok outputs ↔
      ∃ parts, List.Forall₂ (DocumentsOf files o) names parts ∧ parts.flatten = outputs) ∧
    (∀ e, generate files o names = .error e ↔ ∃ (j : Nat) (name : String), names[j]? = some name ∧
      (∀ k < j, ∀ before, names[k]? = some before → Converts files o before) ∧ FileFault files o name e) ∧
    ∀ more, generate files o (names ++ more) =
      (generate files o names).bind fun outputs => (generate files o more).map (outputs ++ ·) := by
  refine ⟨generate_isOk_iff, fun _ => generate_eq_ok_iff, fun e => ?_, generate_append names⟩
  simp only [generate_eq_error_iff, converts_iff_faultless]

end ProtoSchema
