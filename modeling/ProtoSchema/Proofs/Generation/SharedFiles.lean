import Mathlib.Data.List.Perm.Subperm
import ProtoSchema.Proofs.Catalog.AbsoluteNames
import ProtoSchema.Proofs.Catalog.Twins
import ProtoSchema.Proofs.Generation.Imports
import ProtoSchema.Proofs.Schema.Simulation
/-!
# A file among other files

The documents of a file depend on the other files of the set by what its references lead
to, and not on positions. So the order of the files makes no difference, whatever the
references look like (`outputsOf_perm`). And files that are added leave a conversion that
succeeds as it is, where names do not clash and references are absolute
(`outputsOf_of_subperm`): an absolute name then belongs to one message, which no scope that
comes with the new files can hide. In both cases a message and its twin in the other set
are followed side by side.
-/

namespace ProtoSchema

open Schema

variable {S T : List File} {o : Options} {f : File} {i j : Nat} {name : String} {outputs : List Output}

/-- A message and its twin, with references read in one scope. -/
structure Shared (S T : List File) (a a' : Site) : Prop where
  scope : a'.scope = a.scope
  twin : Twin S T a.declaration a'.declaration

/-! ## Another order -/

theorem simulation_of_perm (hp : S.Perm T) (hn : (S.map File.name).Nodup)
    (hk : (S.flatMap File.keys).Nodup) : Simulation (.ofFiles S) (.ofFiles T) (Shared S T) where
  message h := h.twin.message
  place ha hb := ha.twin.place_iff hn ((hp.map File.name).nodup_iff.1 hn) hb.twin
  refers {a a' b f} ha hr := by
    obtain ⟨⟨d', s'⟩, hfound, hd, rfl⟩ :=
      exists_of_rel_some ((corresponds_of_perm hp hk).lookup a.scope f.typeName) hr.found
    refine ⟨⟨b.scope, d'⟩, ⟨?_, hr.kind, ?_⟩, rfl, hd⟩
    · rw [Site.message, ha.twin.message]
      exact hr.mem
    · rw [ha.scope]
      exact hfound

theorem flip_shared : flip (Shared S T) = Shared T S := by
  funext a' a
  exact propext ⟨fun h => ⟨h.scope.symm, h.twin.symm⟩, fun h => ⟨h.scope.symm, h.twin.symm⟩⟩

/-! ## More files -/

/-- References to messages are written with a leading dot. -/
def AbsoluteReferences (files : List File) : Prop :=
  ∀ e ∈ definitionsOf files, ∀ f ∈ e.message.fields, f.kind = .message ∨ f.kind = .group →
    f.typeName.toList.head? = some '.'

instance (files : List File) : Decidable (AbsoluteReferences files) :=
  inferInstanceAs (Decidable (∀ e ∈ definitionsOf files, ∀ f ∈ e.message.fields,
    f.kind = .message ∨ f.kind = .group → f.typeName.toList.head? = some '.'))

theorem nodup_names_of_subperm (hs : S.Subperm T) (hn : (T.map File.name).Nodup) :
    (S.map File.name).Nodup := by
  obtain ⟨l, hperm, hsub⟩ := hs
  exact (hperm.map File.name).nodup_iff.1 ((hsub.map File.name).nodup hn)

theorem simulation_of_subperm (hs : S.Subperm T) (hn : (T.map File.name).Nodup) (w : WellNamed T)
    (habs : AbsoluteReferences S) :
    Simulation (.ofFiles S) (.ofFiles T) fun a a' => Declared S a.declaration ∧ Shared S T a a' where
  message h := h.2.twin.message
  place ha hb := ha.2.twin.place_iff (nodup_names_of_subperm hs hn) hn hb.2.twin
  refers := by
    rintro a a' b f ⟨⟨e, he, hea⟩, ha⟩ hr
    have hdot := habs e he f (by rw [Definition.message, hea]; exact hr.mem) hr.kind
    obtain ⟨x, hx, hxb, hxs, hname⟩ := eq_fullName_of_lookup hdot hr.found
    obtain ⟨x', hx', hscope, hnames, htwin⟩ := exists_twin hs.subset x hx
    have hparts : x'.parts = x.parts := by rw [Definition.parts, hscope, hnames, Definition.parts]
    refine ⟨⟨x'.scope, x'.declaration⟩, ⟨?_, hr.kind, ?_⟩, ⟨x, hx, hxb⟩, hscope.trans hxs, hxb ▸ htwin⟩
    · rw [Site.message, ha.twin.message]
      exact hr.mem
    · rw [hname, ← hparts]
      exact lookup_fullName w hx' a'.scope

/-! ## The documents of a shared file -/

theorem forall₂_declarations (hi : S[i]? = some f) (hj : T[j]? = some f) :
    List.Forall₂ (fun d d' => d ∈ f.declarations i ∧ Twin S T d d') (f.declarations i) (f.declarations j) := by
  refine (List.forall₂_and_left _ _).2 ⟨fun _ h => h, List.forall₂_iff_get.2 ⟨by simp [File.declarations], ?_⟩⟩
  intro k _ _
  simp only [File.declarations, List.get_eq_getElem, List.getElem_mapIdx]
  exact .intro hi hj

/-- A file is converted alike in two sets if its messages have the same schemas in both. -/
theorem fileOutputs_eq (hi : S[i]? = some f) (hj : T[j]? = some f)
    (h : ∀ d d', d ∈ f.declarations i → Twin S T d d' →
      schemaAt (.ofFiles T) o f.enums ⟨f.scope, d'⟩ = schemaAt (.ofFiles S) o f.enums ⟨f.scope, d⟩) :
    Generation.fileOutputs (.ofFiles T) o f j = Generation.fileOutputs (.ofFiles S) o f i := by
  by_cases hm : f.messages = []
  · simp only [Generation.fileOutputs, hm, List.isEmpty_nil, if_true]
  · rw [fileOutputs_eq_mapM hm, fileOutputs_eq_mapM hm]
    refine mapM_eq_of_forall₂ ((forall₂_declarations hi hj).imp ?_)
    rintro d d' ⟨hd, htwin⟩
    rw [schemaIn_eq_schemaAt hj hm, schemaIn_eq_schemaAt hi hm, h d d' hd htwin, htwin.message]

/-- The order of the files makes no difference to the documents of any of them, nor to the error, if
their names are different and no two top-level messages have the same package and name. -/
theorem outputsOf_perm (hp : S.Perm T) (hn : (S.map File.name).Nodup) (hk : (S.flatMap File.keys).Nodup)
    (o : Options) (name : String) : outputsOf T o name = outputsOf S o name := by
  have hn' : (T.map File.name).Nodup := (hp.map File.name).nodup_iff.1 hn
  have hk' : (T.flatMap File.keys).Nodup := (hp.flatMap_right File.keys).nodup_iff.1 hk
  by_cases hname : ∃ f ∈ S, f.name = name
  · obtain ⟨f, hf, rfl⟩ := hname
    obtain ⟨i, hi⟩ := List.mem_iff_getElem?.1 hf
    obtain ⟨j, hj⟩ := List.mem_iff_getElem?.1 (hp.subset hf)
    rw [outputsOf_name (named_of_nodup hn' hj), outputsOf_name (named_of_nodup hn hi)]
    refine fileOutputs_eq hi hj fun d d' _ htwin => ?_
    have hback := simulation_of_perm hp.symm hn' hk'
    rw [← flip_shared] at hback
    exact (simulation_of_perm hp hn hk).schemaAt_eq hback ⟨rfl, htwin⟩
  · rw [outputsOf_unknown hname, outputsOf_unknown fun ⟨f, hf, hfn⟩ => hname ⟨f, hp.symm.subset hf, hfn⟩]

/-- Relative references between the packages are followed alike from both ends. -/
theorem outputsOf_perm_exchanged : [orderFile, bankFile].Perm [bankFile, orderFile] ∧
    ([orderFile, bankFile].map File.name).Nodup ∧ ([orderFile, bankFile].flatMap File.keys).Nodup ∧
    outputsOf [bankFile, orderFile] {} "order.proto" = outputsOf [orderFile, bankFile] {} "order.proto" := by
  have hp : [orderFile, bankFile].Perm [bankFile, orderFile] := .swap _ _ _
  have hn : ([orderFile, bankFile].map File.name).Nodup := by decide
  have hk : ([orderFile, bankFile].flatMap File.keys).Nodup := by decide +kernel
  exact ⟨hp, hn, hk, outputsOf_perm hp hn hk {} "order.proto"⟩

/-- A conversion that succeeds comes out the same when files are added, wherever they stand, if names do
not clash and references are absolute. -/
theorem outputsOf_of_subperm (hs : S.Subperm T) (hn : (T.map File.name).Nodup) (w : WellNamed T)
    (habs : AbsoluteReferences S) (h : outputsOf S o name = .ok outputs) : outputsOf T o name = .ok outputs := by
  by_cases hname : ∃ f ∈ S, f.name = name
  · obtain ⟨f, hf, rfl⟩ := hname
    obtain ⟨i, hi⟩ := List.mem_iff_getElem?.1 hf
    obtain ⟨j, hj⟩ := List.mem_iff_getElem?.1 (hs.subset hf)
    rw [outputsOf_name (named_of_nodup (nodup_names_of_subperm hs hn) hi)] at h
    rw [outputsOf_name (named_of_nodup hn hj), ← h]
    refine fileOutputs_eq hi hj fun d d' hd htwin => ?_
    obtain ⟨n, hok⟩ := exists_schemaAt_of_fileOutputs hi h hd
    obtain ⟨k, m, hm, rfl⟩ := mem_declarations.1 hd
    have hshared : Declared S ⟨[i, k], m⟩ ∧ Shared S T ⟨f.scope, ⟨[i, k], m⟩⟩ ⟨f.scope, d'⟩ :=
      ⟨⟨_, definition_mem hi hm, rfl⟩, rfl, htwin⟩
    rw [hok]
    exact (simulation_of_subperm hs hn w habs).schemaAt hshared hok
  · rw [outputsOf_unknown hname] at h
    cases h

def paintedCar : List File := garage (paint ".paint.Paint.Color" [color]) []

/-- The same files the other way round, after a file whose package is inside that of the car and has a
paint too. -/
def repaintedCar : List File :=
  ⟨"repaint.proto", some "cars.paint", [paint "" []], []⟩ :: paintedCar.reverse

theorem outputsOf_of_subperm_repainted : ∃ outputs, paintedCar.Subperm repaintedCar ∧
    (repaintedCar.map File.name).Nodup ∧ WellNamed repaintedCar ∧ AbsoluteReferences paintedCar ∧
    outputsOf paintedCar {} "car.proto" = .ok outputs ∧
    outputsOf repaintedCar {} "car.proto" = .ok outputs := by
  obtain ⟨_, -, hcar⟩ := exists_documented_car ".paint.Paint.Color" [color] []
  obtain ⟨outputs, -, houtputs, -, -⟩ := hcar.output
  have hs : paintedCar.Subperm repaintedCar :=
    (List.reverse_perm _).symm.subperm.trans (List.sublist_cons_self _ _).subperm
  have hn : (repaintedCar.map File.name).Nodup := by decide
  have w : WellNamed repaintedCar := by decide +kernel
  have habs : AbsoluteReferences paintedCar := by decide +kernel
  exact ⟨outputs, hs, hn, w, habs, houtputs, outputsOf_of_subperm hs hn w habs houtputs⟩

end ProtoSchema
