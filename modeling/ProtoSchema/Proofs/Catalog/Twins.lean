import Mathlib.Data.List.Nodup
import ProtoSchema.Proofs.Catalog.Correspondence
import ProtoSchema.Proofs.Catalog.FileSet
/-!
# One file in two sets

A file may stand at different positions in two sets, and its messages then have
different places. `Twin` relates a message to itself in the other set. Twins have twins
nested in them, and where the names of files are different, places tell messages apart
equally well in both sets (`Twin.place_iff`). Sets that differ in order only, and in which
no two top-level messages have the same scope and name, have catalogs that answer with
twins (`corresponds_of_perm`).
-/

namespace ProtoSchema

/-- The same message of the same file, whose positions in two sets may differ. -/
inductive Twin (S T : List File) : Declaration → Declaration → Prop where
  | intro {i j : Nat} {f : File} {rest : Place} {m : Message} (hi : S[i]? = some f) (hj : T[j]? = some f) :
      Twin S T ⟨i :: rest, m⟩ ⟨j :: rest, m⟩

/-- The scope and the name of each top-level message. -/
def File.keys (f : File) : List (Scope × String) := f.messages.map fun m => (f.scope, m.name)

variable {S T files : List File} {a a' b b' d d' : Declaration} {i j : Nat} {f : File} {name : String}

theorem position_unique (hn : (files.map File.name).Nodup) (hi : files[i]? = some f) (hj : files[j]? = some f) :
    i = j := by
  have hlt : i < (files.map File.name).length := by simpa using (List.getElem?_eq_some_iff.1 hi).1
  exact (List.getElem?_inj hlt hn).1 (by simp [hi, hj])

namespace Twin

theorem symm (h : Twin S T d d') : Twin T S d' d := by
  obtain ⟨hi, hj⟩ := h
  exact .intro hj hi

theorem message (h : Twin S T d d') : d'.message = d.message := by
  cases h
  rfl

/-- Positions below those of twins are those of twins. -/
theorem inside (h : Twin S T d d') (k : Nat) (m : Message) :
    Twin S T ⟨d.place ++ [k], m⟩ ⟨d'.place ++ [k], m⟩ := by
  obtain ⟨hi, hj⟩ := h
  exact .intro hi hj

theorem findIn (h : Twin S T d d') (name : String) (ms : List Message) (k : Nat) :
    Option.Rel (Twin S T) (Declaration.findIn d.place k name ms) (Declaration.findIn d'.place k name ms) := by
  induction ms generalizing k with
  | nil => exact .none
  | cons m ms ih =>
    rw [Declaration.findIn, Declaration.findIn]
    split
    · exact .some (h.inside k m)
    · exact ih (k + 1)

theorem nested? (h : Twin S T d d') (name : String) :
    Option.Rel (Twin S T) (d.nested? name) (d'.nested? name) := by
  unfold Declaration.nested?
  rw [h.message]
  exact h.findIn name _ 0

theorem eq_of_place_eq (hT : (T.map File.name).Nodup) (ha : Twin S T a a') (hb : Twin S T b b')
    (h : a.place = b.place) : a'.place = b'.place := by
  cases ha with
  | intro hi hj =>
    cases hb with
    | intro hk hl =>
      obtain ⟨rfl, rfl⟩ := List.cons.inj h
      obtain rfl := Option.some.inj (hi.symm.trans hk)
      rw [position_unique hT hj hl]

theorem place_iff (hS : (S.map File.name).Nodup) (hT : (T.map File.name).Nodup) (ha : Twin S T a a')
    (hb : Twin S T b b') : a'.place = b'.place ↔ a.place = b.place :=
  ⟨eq_of_place_eq hS ha.symm hb.symm, eq_of_place_eq hT ha hb⟩

end Twin

/-! ## Files that both sets have -/

/-- What a set declares is declared in every larger one, under the same names. -/
theorem exists_twin (hsub : S ⊆ T) : ∀ e ∈ definitionsOf S, ∃ e' ∈ definitionsOf T,
    e'.scope = e.scope ∧ e'.names = e.names ∧ Twin S T e.declaration e'.declaration := by
  apply definitions_induction
  · intro i f j m hf hm
    obtain ⟨k, hk⟩ := List.mem_iff_getElem?.1 (hsub (List.mem_of_getElem? hf))
    exact ⟨f.definition k j m, definition_mem hk hm, rfl, rfl, .intro hf hk⟩
  · rintro e - ⟨e', he', hscope, hnames, htwin⟩ k m hk
    have hk' : e'.message.nested[k]? = some m := by
      rw [Definition.message, htwin.message]
      exact hk
    exact ⟨e'.inside k m, inside_mem he' hk', hscope, by simp [Definition.inside, hnames], htwin.inside k m⟩

theorem contains_of_subset {s : Scope} (hsub : S ⊆ T) (h : (Catalog.ofFiles S).contains s = true) :
    (Catalog.ofFiles T).contains s = true := by
  rw [ofFiles_eq_ofFilings, Catalog.contains_ofFilings] at h ⊢
  refine h.imp_right ?_
  rintro ⟨⟨package, d⟩, hr, hp⟩
  obtain ⟨i, f, j, m, hf, hm, rfl, rfl⟩ := mem_filings.1 hr
  obtain ⟨k, hk⟩ := List.mem_iff_getElem?.1 (hsub (List.mem_of_getElem? hf))
  exact ⟨_, mem_filings.2 ⟨k, f, j, m, hk, hm, rfl, rfl⟩, hp⟩

/-! ## Top-level messages told apart by their keys -/

theorem keys_filings (files : List File) :
    (filings files).map (fun r => (Scope.ofPackage r.1, r.2.message.name)) = files.flatMap File.keys := by
  have hfile : ∀ (f : File) (i : Nat), ((f.declarations i).map (f.packageName, ·)).map
      (fun r => (Scope.ofPackage r.1, r.2.message.name)) = f.keys := by
    intro f i
    refine List.ext_getElem? fun j => ?_
    simp [File.declarations, File.keys, File.scope, Function.comp_def]
  rw [filings, List.map_flatMap]
  simp only [hfile]
  rw [← List.flatMap_map Prod.fst File.keys, List.zipIdx_map_fst]

/-- No other message is filed under the key of this one. -/
theorem type?_of_mem_filings (hk : (files.flatMap File.keys).Nodup) {package : String}
    (h : (package, d) ∈ filings files) :
    (Catalog.ofFiles files).type? (.ofPackage package) d.message.name = some d := by
  rw [ofFiles_eq_ofFilings, Catalog.type?_ofFilings]
  obtain ⟨r, hr⟩ : ∃ r, ((filings files).filter fun r =>
      Scope.ofPackage package = .ofPackage r.1 ∧ d.message.name = r.2.message.name).getLast? = some r := by
    refine Option.ne_none_iff_exists'.1 fun hnone => ?_
    have hempty := List.getLast?_eq_none_iff.1 hnone
    exact absurd (List.mem_filter.2 ⟨h, by simp⟩) (hempty ▸ List.not_mem_nil)
  obtain ⟨hmem, hkey⟩ := List.mem_filter.1 (List.mem_of_getLast? hr)
  rw [← keys_filings] at hk
  obtain rfl := List.inj_on_of_nodup_map hk h hmem (Prod.ext_iff.2 (of_decide_eq_true hkey))
  rw [hr]
  rfl

theorem exists_twin_type? (hsub : S ⊆ T) (hk : (T.flatMap File.keys).Nodup) {s : Scope}
    (h : (Catalog.ofFiles S).type? s name = some d) :
    ∃ d', (Catalog.ofFiles T).type? s name = some d' ∧ Twin S T d d' := by
  rw [ofFiles_eq_ofFilings] at h
  obtain ⟨package, hr, rfl, rfl⟩ := Catalog.type?_ofFilings_mem h
  obtain ⟨i, f, j, m, hf, hm, rfl, rfl⟩ := mem_filings.1 hr
  obtain ⟨k, hT⟩ := List.mem_iff_getElem?.1 (hsub (List.mem_of_getElem? hf))
  have hfiled : (f.packageName, (⟨[k, j], m⟩ : Declaration)) ∈ filings T :=
    mem_filings.2 ⟨k, f, j, m, hT, hm, rfl, rfl⟩
  have htype := type?_of_mem_filings hk hfiled
  exact ⟨_, htype, .intro hf hT⟩

/-- The order of files makes no difference to what a catalog answers, but for places. -/
theorem corresponds_of_perm (hp : S.Perm T) (hk : (S.flatMap File.keys).Nodup) :
    Corresponds (Twin S T) (.ofFiles S) (.ofFiles T) where
  known s := Bool.eq_iff_iff.2 ⟨contains_of_subset hp.symm.subset, contains_of_subset hp.subset⟩
  types s name := by
    have hk' : (T.flatMap File.keys).Nodup := (hp.flatMap_right File.keys).nodup_iff.1 hk
    cases hS : (Catalog.ofFiles S).type? s name with
    | some d =>
      obtain ⟨d', hd', htwin⟩ := exists_twin_type? hp.subset hk' hS
      rw [hd']
      exact .some htwin
    | none =>
      cases hT : (Catalog.ofFiles T).type? s name with
      | none => exact .none
      | some d' =>
        obtain ⟨d, hd, -⟩ := exists_twin_type? hp.symm.subset hk hT
        rw [hS] at hd
        cases hd
  nested _ _ h name := h.nested? name

end ProtoSchema
