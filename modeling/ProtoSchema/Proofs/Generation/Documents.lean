import ProtoSchema.Proofs.Expansion.Cycles
import ProtoSchema.Proofs.Schema.Rendering
/-!
# The documents of a file

Converting a file makes one document for each of its messages, in order: the
schema of the message in the scope of the file's package, with the top-level
enumerations of the file (`outputsOf_eq_ok_iff`). `Documented` says which document
a message has. Of two files with one name only the first is converted.
-/

namespace ProtoSchema

open Schema

/-- The message at position `j` of the file at position `i`. -/
def File.site (f : File) (i j : Nat) (m : Message) : Site := ⟨f.scope, ⟨[i, j], m⟩⟩

/-- The file at position `i` is the one that its name stands for: the first of that name. -/
structure Named (files : List File) (i : Nat) (f : File) : Prop where
  file : files[i]? = some f
  first : ∀ k < i, ∀ g, files[k]? = some g → g.name ≠ f.name

/-- Converting the file at position `i` makes `document` of its message at position `j`. -/
structure Documented (files : List File) (o : Options) (i j : Nat) (f : File) (m : Message)
    (document : Json) : Prop where
  named : Named files i f
  message : f.messages[j]? = some m
  output : ∃ outputs output, outputsOf files o f.name = .ok outputs ∧ outputs[j]? = some output ∧
    output.document = document

variable {files : List File} {o : Options} {i j : Nat} {f : File} {m : Message} {n : Node}

/-- Where all names are different, each stands for its own file. -/
theorem named_of_nodup (hn : (files.map File.name).Nodup) (hf : files[i]? = some f) : Named files i f where
  file := hf
  first k hk g hg hname := by
    have hlt : i < (files.map File.name).length := by simpa using (List.getElem?_eq_some_iff.1 hf).1
    have hsame : (files.map File.name)[i]? = (files.map File.name)[k]? := by simp [hg, hf, hname]
    exact absurd ((List.getElem?_inj hlt hn).1 hsame) (Nat.ne_of_gt hk)

theorem Named.mem (h : Named files i f) : f ∈ files := List.mem_of_getElem? h.file

theorem outputsOf_name (hf : Named files i f) :
    outputsOf files o f.name = Generation.fileOutputs (.ofFiles files) o f i := by
  have hfind : files.zipIdx.find? (fun e => e.1.name = f.name) = some (f, i) := by
    obtain ⟨hlt, hi⟩ := List.getElem?_eq_some_iff.1 hf.file
    rw [List.find?_eq_some_iff_getElem]
    refine ⟨by simp, i, by simpa using hlt, by simp [hi], fun k hk => ?_⟩
    simpa using hf.first k hk _ (List.getElem?_eq_getElem (Nat.lt_trans hk hlt))
  unfold outputsOf Generation.namedOutputs
  rw [hfind]

theorem outputsOf_unknown {name : String} (h : ¬ ∃ f ∈ files, f.name = name) :
    outputsOf files o name = .error (.load (.unknownFile name)) := by
  have hfind : files.zipIdx.find? (fun e => e.1.name = name) = none := by
    refine List.find?_eq_none.2 fun e he => ?_
    have hmem := List.mem_zipIdx_iff_getElem?.1 he
    simpa using fun hname => h ⟨e.1, List.mem_of_getElem? hmem, hname⟩
  unfold outputsOf Generation.namedOutputs
  rw [hfind]

/-- The messages of a file are followed from the scope of its package. -/
theorem schemaIn_eq_schemaAt (hf : files[i]? = some f) (hm : f.messages ≠ []) (d : Declaration) :
    schemaIn files o f d = schemaAt (.ofFiles files) o f.enums ⟨f.scope, d⟩ := by
  obtain ⟨m, rest, hcons⟩ := List.exists_cons_of_ne_nil hm
  rw [schemaIn, enter_ofFiles hf (show f.messages[0]? = some m by rw [hcons]; rfl)]
  rfl

/-- A file with messages is converted when each of them has a schema, and its documents are those
schemas in order. -/
theorem outputsOf_messages (hf : Named files i f) (hm : f.messages ≠ []) {outputs : List Output} :
    outputsOf files o f.name = .ok outputs ↔ List.Forall₂ (fun d output => ∃ n, schemaIn files o f d = .ok n ∧
      ⟨f.outputName o d.message.name, n⟩ = output) (f.declarations i) outputs := by
  rw [outputsOf_name hf, fileOutputs_eq_mapM hm, mapM_eq_ok_iff]
  refine iff_of_eq (congrArg (List.Forall₂ · _ _) ?_)
  funext d output
  cases schemaIn files o f d <;> simp

/-- In a file that is converted each message has a schema. -/
theorem exists_schemaAt_of_fileOutputs {d : Declaration} {outputs : List Output} (hf : files[i]? = some f)
    (h : Generation.fileOutputs (.ofFiles files) o f i = .ok outputs) (hd : d ∈ f.declarations i) :
    ∃ n, schemaAt (.ofFiles files) o f.enums ⟨f.scope, d⟩ = .ok n := by
  obtain ⟨j, m, hm, rfl⟩ := mem_declarations.1 hd
  have hne : f.messages ≠ [] := fun hnil => by simp [hnil] at hm
  rw [fileOutputs_eq_mapM hne] at h
  obtain ⟨output, houtput⟩ := exists_of_mapM_eq_ok h _ hd
  rw [schemaIn_eq_schemaAt hf hne] at houtput
  cases hn : schemaAt (.ofFiles files) o f.enums ⟨f.scope, ⟨[i, j], m⟩⟩ with
  | ok n => exact ⟨n, rfl⟩
  | error e => simp [hn] at houtput

/-- The schemas are made in the scope of the package of the file. -/
theorem outputsOf_eq_ok_iff (hf : Named files i f) (hm : f.messages[j]? = some m) {outputs : List Output} :
    outputsOf files o f.name = .ok outputs ↔
      List.Forall₂ (fun d output => ∃ n, schemaAt (.ofFiles files) o f.enums ⟨f.scope, d⟩ = .ok n ∧
        ⟨f.outputName o d.message.name, n⟩ = output) (f.declarations i) outputs := by
  have hne : f.messages ≠ [] := by
    intro h
    simp [h] at hm
  simp only [outputsOf_messages hf hne, schemaIn_eq_schemaAt hf.file hne]

theorem getElem?_declarations (hm : f.messages[j]? = some m) : (f.declarations i)[j]? = some ⟨[i, j], m⟩ := by
  simp [File.declarations, hm]

/-- The document of a message is its schema. -/
theorem Documented.exists_schemaAt {document : Json} (h : Documented files o i j f m document) :
    ∃ n, schemaAt (.ofFiles files) o f.enums (f.site i j m) = .ok n ∧ document = n.toDocument := by
  obtain ⟨outputs, output, hok, hj, rfl⟩ := h.output
  have hall := (outputsOf_eq_ok_iff h.named h.message).1 hok
  obtain ⟨hd, hd'⟩ := List.getElem?_eq_some_iff.1 (getElem?_declarations (i := i) h.message)
  obtain ⟨hlt, hout⟩ := List.getElem?_eq_some_iff.1 hj
  obtain ⟨n, hschema, heq⟩ := hall.get hd hlt
  simp only [List.get_eq_getElem, hd', hout] at hschema heq
  exact ⟨n, hschema, by rw [← heq]; rfl⟩

theorem documented_of_schemaAt (hf : Named files i f) (hm : f.messages = [m])
    (h : schemaAt (.ofFiles files) o f.enums (f.site i 0 m) = .ok n) :
    Documented files o i 0 f m n.toDocument where
  named := hf
  message := by rw [hm]; rfl
  output := by
    have hdecl : f.declarations i = [⟨[i, 0], m⟩] := by simp [File.declarations, hm]
    refine ⟨[⟨f.outputName o m.name, n⟩], _, ?_, rfl, rfl⟩
    rw [outputsOf_eq_ok_iff hf (j := 0) (by rw [hm]; rfl), hdecl]
    exact .cons ⟨n, h, rfl⟩ .nil

end ProtoSchema
