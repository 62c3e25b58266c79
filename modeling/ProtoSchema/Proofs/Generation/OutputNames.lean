import Mathlib.Data.List.Nodup
import Mathlib.Data.List.Pairwise
import ProtoSchema.Proofs.Generation.Faults
import ProtoSchema.Proofs.Storage.Joining
import ProtoSchema.Proofs.Text.Splitting
/-!
# The names of documents

A document has the name of its declaration, below the package of its file if the
options say so. In a set with proper names these are different for all documents of
different files if packages are part of them, or if the declarations have different
names to begin with (`nodup_outputNames`).
-/

namespace ProtoSchema

variable {files : List File} {o : Options} {f g : File} {name : String}

/-! ## Proper names -/

/-- Letters, digits and underscores, at least one of them. -/
def isIdentifier (s : String) : Bool := s != "" && s.toList.all fun c => c.isAlphanum || c == '_'

/-- The names of the top-level messages and enumerations of a file. -/
def File.declared (f : File) : List String := f.messages.map (·.name) ++ f.enums.map (·.name)

/-- The name of a top-level declaration with that of the package in front. -/
def File.qualified (f : File) (name : String) : String :=
  if f.packageName = "" then name else f.packageName ++ "." ++ name

/-- Files with names of their own, which declare things under identifiers, each under a full name of
its own. -/
structure ProperNames (files : List File) : Prop where
  names : (files.map (·.name)).Nodup
  packages : ∀ f ∈ files, f.packageName = "" ∨ ∀ part ∈ segments f.packageName, isIdentifier part
  declarations : ∀ f ∈ files, ∀ name ∈ f.declared, isIdentifier name
  distinct : (files.flatMap fun f => f.declared.map f.qualified).Nodup

instance (files : List File) : Decidable (ProperNames files) :=
  decidable_of_iff
    ((files.map (·.name)).Nodup ∧
      (∀ f ∈ files, f.packageName = "" ∨ ∀ part ∈ segments f.packageName, isIdentifier part) ∧
      (∀ f ∈ files, ∀ name ∈ f.declared, isIdentifier name) ∧
      (files.flatMap fun f => f.declared.map f.qualified).Nodup)
    ⟨fun ⟨h, h', h'', h'''⟩ => ⟨h, h', h'', h'''⟩, fun ⟨h, h', h'', h'''⟩ => ⟨h, h', h'', h'''⟩⟩

theorem mem_isIdentifier {c : Char} (h : isIdentifier name) (hc : c ∈ name.toList) : c.isAlphanum ∨ c = '_' := by
  simp only [isIdentifier, Bool.and_eq_true, List.all_eq_true, Bool.or_eq_true, beq_iff_eq] at h
  exact h.2 c hc

theorem slash_not_mem_identifier (h : isIdentifier name) : '/' ∉ name.toList := fun hmem => by
  rcases mem_isIdentifier h hmem with h | h <;> exact absurd h (by decide)

/-- The name of a package is one plain step of a path. -/
theorem slash_not_mem_package {package : String} (h : ∀ part ∈ segments package, isIdentifier part) :
    '/' ∉ package.toList := fun hmem => by
  obtain ⟨piece, hpiece, hslash⟩ := mem_splitOn hmem (show '/' ≠ '.' by decide)
  exact slash_not_mem_identifier (h _ (List.mem_map_of_mem hpiece)) (by rwa [String.toList_ofList])

theorem plain_package {package : String} (hne : package ≠ "") (h : ∀ part ∈ segments package, isIdentifier part) :
    Path.Plain package := by
  have hdots : ∀ dots : String, "" ∈ segments dots → package ≠ dots := fun dots hmem heq =>
    absurd (h "" (heq ▸ hmem)) (by decide)
  exact ⟨hne, hdots "." (by decide), hdots ".." (by decide)⟩

/-! ## Names as paths -/

theorem toList_extension : ".jsonschema".toList = ['.', 'j', 's', 'o', 'n', 's', 'c', 'h', 'e', 'm', 'a'] := rfl

theorem plain_extension (name : String) : Path.Plain (name ++ ".jsonschema") := by
  have hlong : ∀ s : String, s.length < 11 → name ++ ".jsonschema" ≠ s := fun s hs heq => by
    have hlength : (name ++ ".jsonschema").length = name.length + 11 := String.length_append _ _
    rw [heq] at hlength
    omega
  exact ⟨hlong "" (by decide), hlong "." (by decide), hlong ".." (by decide)⟩

/-- The steps of the name of a document. -/
theorem steps_outputName (hp : f.packageName = "" ∨ ∀ part ∈ segments f.packageName, isIdentifier part)
    (hn : isIdentifier name) : Path.steps (f.outputName o name) =
      if o.prefixSchemaFilesWithPackage && f.packageName != "" then [f.packageName, name ++ ".jsonschema"]
      else [name ++ ".jsonschema"] := by
  have hname : '/' ∉ (name ++ ".jsonschema").toList := by
    rw [String.toList_append, toList_extension]
    simp [slash_not_mem_identifier hn]
  have hsteps : Path.steps (name ++ ".jsonschema") = [name ++ ".jsonschema"] := by
    rw [Path.steps, List.splitOn_eq_singleton hname]
    simp
  unfold File.outputName
  split
  case isFalse => exact hsteps
  case isTrue h =>
    have hpackage : '/' ∉ f.packageName.toList := by
      rcases hp with hp | hp
      · simp [hp]
      · exact slash_not_mem_package hp
    rw [Path.steps] at hsteps ⊢
    rw [show f.packageName ++ "/" ++ name ++ ".jsonschema" = f.packageName ++ "/" ++ (name ++ ".jsonschema") from
        String.append_assoc, String.toList_append, String.toList_append, List.append_assoc]
    show ((f.packageName.toList ++ '/' :: (name ++ ".jsonschema").toList).splitOn '/').map String.ofList = _
    rw [List.splitOn_append_cons_self_of_not_mem hpackage, List.map_cons, hsteps, String.ofList_toList]

theorem plain_outputName (hp : f.packageName = "" ∨ ∀ part ∈ segments f.packageName, isIdentifier part)
    (hn : isIdentifier name) : ∀ step ∈ Path.steps (f.outputName o name), Path.Plain step := by
  rw [steps_outputName hp hn]
  split
  case isFalse => simpa using plain_extension name
  case isTrue h =>
    have hne : f.packageName ≠ "" := by simpa using (Bool.and_eq_true_iff.1 h).2
    simpa using ⟨plain_package hne (hp.resolve_left hne), plain_extension name⟩

theorem Path.steps_injective {s t : String} (h : Path.steps s = Path.steps t) : s = t := by
  have hsplit := (List.map_inj_right fun _ _ => String.ofList_injective).1 h
  have hjoined : ['/'].intercalate (s.toList.splitOn '/') = ['/'].intercalate (t.toList.splitOn '/') :=
    congrArg _ hsplit
  rwa [List.intercalate_splitOn, List.intercalate_splitOn, String.toList_inj] at hjoined

/-! ## The names of all documents -/

/-- The names of the declarations that have documents: messages, or enumerations where there are none. -/
def File.documented (f : File) : List String :=
  if f.messages.isEmpty then f.enums.map (·.name) else f.messages.map (·.name)

theorem mem_declared_of_documented (h : name ∈ f.documented) : name ∈ f.declared := by
  unfold File.documented at h
  split at h
  · exact List.mem_append_right _ h
  · exact List.mem_append_left _ h

theorem nodup_documented (h : f.declared.Nodup) : f.documented.Nodup := by
  unfold File.documented
  split
  · exact h.of_append_right
  · exact h.of_append_left

theorem messageOutput_name {c : Catalog} {scope : Scope} {d : Declaration} {output : Output}
    (h : Generation.messageOutput c o f scope d = .ok output) : output.name = f.outputName o d.message.name := by
  unfold Generation.messageOutput at h
  split at h
  · obtain rfl := Except.ok.inj h
    rfl
  · cases h

theorem map_message_declarations (f : File) (i : Nat) : (f.declarations i).map (·.message) = f.messages := by
  refine List.ext_getElem? fun j => ?_
  simp [File.declarations, Function.comp_def]

theorem outputsOf_names {outputs : List Output} (h : outputsOf files o name = .ok outputs) :
    ∃ i f, Named files i f ∧ f.name = name ∧ outputs.map (·.name) = f.documented.map (f.outputName o) := by
  by_cases hname : ∃ f ∈ files, f.name = name
  · obtain ⟨i, f, hf, rfl⟩ := exists_named hname
    refine ⟨i, f, hf, rfl, ?_⟩
    rw [outputsOf_name hf, Generation.fileOutputs] at h
    unfold File.documented
    split at h
    case isTrue hnone =>
      obtain rfl := Except.ok.inj h
      rw [if_pos hnone, List.map_map, List.map_map]
      rfl
    case isFalse hsome =>
      rw [if_neg hsome, map_of_mapM_eq_ok h fun d output hd => messageOutput_name hd,
        ← map_message_declarations f i, List.map_map, List.map_map]
      rfl
  · rw [outputsOf_unknown hname] at h
    cases h

/-- The documents for several names have the names of the declarations in the files that these stand for, file by
file. -/
theorem generate_names {names : List String} {outputs : List Output} (h : generate files o names = .ok outputs) :
    ∃ chosen : List File, chosen.map (·.name) = names ∧ (∀ f ∈ chosen, ∃ i, Named files i f) ∧
      outputs.map (·.name) = chosen.flatMap fun f => f.documented.map (f.outputName o) := by
  rw [generate_eq_mapM, map_eq_ok_iff] at h
  obtain ⟨parts, hparts, rfl⟩ := h
  have hall := mapM_eq_ok_iff.1 hparts
  clear hparts
  induction hall with
  | nil => exact ⟨[], rfl, by simp, rfl⟩
  | cons hpart _ ih =>
    obtain ⟨i, f, hf, rfl, hnames⟩ := outputsOf_names hpart
    obtain ⟨chosen, rfl, hchosen, hrest⟩ := ih
    refine ⟨f :: chosen, rfl, List.forall_mem_cons.2 ⟨⟨i, hf⟩, hchosen⟩, ?_⟩
    rw [List.flatten_cons, List.map_append, hnames, hrest]
    rfl

/-- Each document has the name of a declaration in a file that one of the names stands for. -/
theorem exists_declared_of_generate {names : List String} {outputs : List Output}
    (h : generate files o names = .ok outputs) {x : Output} (hx : x ∈ outputs) :
    ∃ i f, Named files i f ∧ f.name ∈ names ∧ ∃ declared ∈ f.documented, x.name = f.outputName o declared := by
  obtain ⟨chosen, rfl, hnamed, hnames⟩ := generate_names h
  have hname : x.name ∈ chosen.flatMap fun f => f.documented.map (f.outputName o) := hnames ▸ List.mem_map_of_mem hx
  obtain ⟨f, hf, hname⟩ := List.mem_flatMap.1 hname
  obtain ⟨declared, hdeclared, heq⟩ := List.mem_map.1 hname
  obtain ⟨i, hi⟩ := hnamed f hf
  exact ⟨i, f, hi, List.mem_map_of_mem hf, declared, hdeclared, heq.symm⟩

namespace ProperNames

variable (hfiles : ProperNames files)
include hfiles

/-- Declarations of different files have different full names. -/
theorem qualified_ne (hf : f ∈ files) (hg : g ∈ files) (hne : f.name ≠ g.name) {a b : String} (ha : a ∈ f.declared)
    (hb : b ∈ g.declared) : f.qualified a ≠ g.qualified b := by
  have : Std.Symm (Function.onFun List.Disjoint fun f : File => f.declared.map f.qualified) := ⟨fun _ _ h _ ha hb => h hb ha⟩
  have hdisjoint := (List.nodup_flatMap.1 hfiles.distinct).2.forall hf hg fun h => hne (h ▸ rfl)
  exact fun heq => hdisjoint (List.mem_map_of_mem ha) (heq ▸ List.mem_map_of_mem hb)

theorem nodup_declared (hf : f ∈ files) : f.declared.Nodup :=
  ((List.nodup_flatMap.1 hfiles.distinct).1 f hf).of_map _

/-- Where the package is part of it, the name of a document tells the full name of its declaration. -/
theorem outputName_inj (hpackaged : o.prefixSchemaFilesWithPackage = true) (hf : f ∈ files) (hg : g ∈ files) {a b : String}
    (ha : a ∈ f.declared) (hb : b ∈ g.declared) (h : f.outputName o a = g.outputName o b) :
    f.qualified a = g.qualified b := by
  have hsteps := congrArg Path.steps h
  rw [steps_outputName (hfiles.packages f hf) (hfiles.declarations f hf a ha),
    steps_outputName (hfiles.packages g hg) (hfiles.declarations g hg b hb), hpackaged] at hsteps
  unfold File.qualified
  by_cases hfp : f.packageName = "" <;> by_cases hgp : g.packageName = "" <;> simp_all

/-- The documents of different files have different names if the package is part of them, or if the names
of the declarations differ already. -/
theorem nodup_outputNames {chosen : List File} (hchosen : ∀ f ∈ chosen, f ∈ files)
    (hnames : (chosen.map (·.name)).Nodup)
    (hapart : o.prefixSchemaFilesWithPackage = true ∨ (chosen.flatMap File.documented).Nodup) :
    (chosen.flatMap fun f => f.documented.map (f.outputName o)).Nodup := by
  by_cases hpackaged : o.prefixSchemaFilesWithPackage = true
  · refine List.nodup_flatMap.2 ⟨fun f hf => ?_, ?_⟩
    · refine (nodup_documented (hfiles.nodup_declared (hchosen f hf))).map_on fun a ha b hb heq => ?_
      have ha' := mem_declared_of_documented ha
      have hb' := mem_declared_of_documented hb
      exact List.inj_on_of_nodup_map ((List.nodup_flatMap.1 hfiles.distinct).1 f (hchosen f hf)) ha' hb'
        (hfiles.outputName_inj hpackaged (hchosen f hf) (hchosen f hf) ha' hb' heq)
    · refine (List.pairwise_map.1 hnames).imp_of_mem fun hf hg hne name hname hname' => ?_
      obtain ⟨a, ha, rfl⟩ := List.mem_map.1 hname
      obtain ⟨b, hb, heq⟩ := List.mem_map.1 hname'
      have ha' := mem_declared_of_documented ha
      have hb' := mem_declared_of_documented hb
      exact hfiles.qualified_ne (hchosen _ hf) (hchosen _ hg) hne ha' hb'
        (hfiles.outputName_inj hpackaged (hchosen _ hf) (hchosen _ hg) ha' hb' heq.symm)
  · have hsimple : (fun f : File => f.documented.map (f.outputName o)) = fun f => f.documented.map (· ++ ".jsonschema") := by
      funext f
      refine List.map_congr_left fun name _ => ?_
      simp [File.outputName, hpackaged]
    rw [hsimple, ← List.map_flatMap]
    exact (hapart.resolve_left hpackaged).map fun a b h => by simpa using h

end ProperNames

end ProtoSchema
