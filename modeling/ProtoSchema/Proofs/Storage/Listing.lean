import Mathlib.Data.List.Nodup
import ProtoSchema.Proofs.Storage.Places
/-!
# Listing files

Where the names in every directory ascend, a listing of the files holds each file once,
at the position where it is found (`mem_files`, `nodup_files`). What is put into such a
tree leaves it so (`Tidy.put`).
-/

namespace ProtoSchema.Entry

mutual

/-- The names in every directory ascend, so that no two entries share one. -/
def Tidy : Entry → Prop
  | directory ⟨entries⟩ => (entries.Pairwise fun a b => a.1 < b.1) ∧ TidyIn entries
  | file _ => True

def TidyIn : List (String × Entry) → Prop
  | [] => True
  | (_, e) :: rest => e.Tidy ∧ TidyIn rest

end

theorem tidyIn_iff {entries : List (String × Entry)} : TidyIn entries ↔ ∀ x ∈ entries, x.2.Tidy := by
  induction entries with
  | nil => simp [TidyIn]
  | cons x rest ih => simp [TidyIn, ih]

theorem tidy_directory {entries : Dictionary Entry} :
    (directory entries).Tidy ↔ entries.Ascending ∧ ∀ x ∈ entries.entries, x.2.Tidy := by
  obtain ⟨entries⟩ := entries
  rw [Tidy, tidyIn_iff]
  rfl

theorem tidy_empty : (directory .empty).Tidy :=
  tidy_directory.2 ⟨Dictionary.ascending_empty, by simp [Dictionary.empty]⟩

theorem Tidy.put {e new : Entry} (he : e.Tidy) (hnew : new.Tidy) (p : Position) : (Entry.put new e p).Tidy := by
  induction p generalizing e with
  | nil => exact hnew
  | cons name p ih =>
    cases e with
    | file bytes => exact he
    | directory entries =>
      obtain ⟨hascending, hall⟩ := tidy_directory.1 he
      refine tidy_directory.2 ⟨hascending.insert name _, fun x hx => ?_⟩
      rcases Dictionary.mem_insertEntry hx with rfl | hx
      · refine ih ?_
        cases hget : entries.get? name with
        | none => exact tidy_empty
        | some inner => exact hall _ ((Dictionary.lookup_eq_some_iff hascending.nodup_keys).1 hget)
      · exact hall x hx

/-! ## Files and their positions -/

mutual

theorem mem_files : (e : Entry) → e.Tidy → ∀ {p r : Position} {bytes : Bytes},
    (r, bytes) ∈ e.files p ↔ ∃ s, r = p ++ s ∧ e.at? s = some (.file bytes)
  | file content, _, p, r, bytes => by
    constructor
    · intro h
      obtain ⟨rfl, rfl⟩ := Prod.mk.inj (List.mem_singleton.1 h)
      exact ⟨[], (List.append_nil r).symm, rfl⟩
    · rintro ⟨_ | ⟨name, s⟩, rfl, h⟩
      · cases h
        rw [List.append_nil]
        exact .head _
      · cases h
  | directory ⟨entries⟩, h, p, r, bytes => by
    rw [Tidy] at h
    rw [files, mem_filesIn entries h.1 h.2]
    constructor
    · rintro ⟨name, s, rfl, hs⟩
      exact ⟨name :: s, rfl, hs⟩
    · rintro ⟨_ | ⟨name, s⟩, rfl, hs⟩
      · cases hs
      · exact ⟨name, s, rfl, hs⟩

theorem mem_filesIn : (entries : List (String × Entry)) → entries.Pairwise (fun a b => a.1 < b.1) →
    TidyIn entries → ∀ {p r : Position} {bytes : Bytes}, (r, bytes) ∈ filesIn p entries ↔
      ∃ name s, r = p ++ name :: s ∧ (entries.lookup name).bind (·.at? s) = some (.file bytes)
  | [], _, _, p, r, bytes => by simp [filesIn]
  | (name, e) :: rest, hascending, h, p, r, bytes => by
    obtain ⟨hhead, hrest⟩ := List.pairwise_cons.1 hascending
    rw [TidyIn] at h
    have hnone : rest.lookup name = none := Dictionary.lookup_eq_none fun hmem => by
      obtain ⟨x, hx, heq⟩ := List.mem_map.1 hmem
      exact String.lt_irrefl _ (heq ▸ hhead x hx)
    rw [filesIn, List.mem_append, mem_files e h.1, mem_filesIn rest hrest h.2]
    constructor
    · rintro (⟨s, rfl, hs⟩ | ⟨name', s, rfl, hs⟩)
      · exact ⟨name, s, by simp, by rw [Dictionary.lookup_cons, if_pos rfl]; exact hs⟩
      · refine ⟨name', s, rfl, ?_⟩
        rw [Dictionary.lookup_cons, if_neg]
        · exact hs
        · rintro rfl
          rw [hnone] at hs
          cases hs
    · rintro ⟨name', s, rfl, hs⟩
      rw [Dictionary.lookup_cons] at hs
      split at hs
      · next heq =>
        subst heq
        exact .inl ⟨s, by simp, hs⟩
      · exact .inr ⟨name', s, rfl, hs⟩

end

mutual

/-- No position is listed twice. -/
theorem nodup_files : (e : Entry) → e.Tidy → ∀ {p : Position}, ((e.files p).map Prod.fst).Nodup
  | file content, _, p => List.nodup_singleton p
  | directory ⟨entries⟩, h, p => by
    rw [Tidy] at h
    rw [files]
    exact nodup_filesIn entries h.1 h.2

theorem nodup_filesIn : (entries : List (String × Entry)) → entries.Pairwise (fun a b => a.1 < b.1) →
    TidyIn entries → ∀ {p : Position}, ((filesIn p entries).map Prod.fst).Nodup
  | [], _, _, p => List.nodup_nil
  | (name, e) :: rest, hascending, h, p => by
    obtain ⟨hhead, hrest⟩ := List.pairwise_cons.1 hascending
    rw [TidyIn] at h
    rw [filesIn, List.map_append]
    refine List.Nodup.append (nodup_files e h.1) (nodup_filesIn rest hrest h.2) fun r hr hr' => ?_
    obtain ⟨⟨r, bytes⟩, hmem, rfl⟩ := List.mem_map.1 hr
    obtain ⟨⟨r', bytes'⟩, hmem', rfl⟩ := List.mem_map.1 hr'
    obtain ⟨s, rfl, -⟩ := (mem_files e h.1).1 hmem
    obtain ⟨name', s', heq, hs'⟩ := (mem_filesIn rest hrest h.2).1 hmem'
    -- The names of the entries differ, and so do the positions below them.
    have hname : name = name' := by
      rw [List.append_assoc] at heq
      exact (List.cons.inj (List.append_cancel_left heq)).1
    obtain ⟨x, hx, -⟩ := Option.bind_eq_some_iff.1 hs'
    have hnodup : (rest.map Prod.fst).Nodup :=
      Dictionary.Ascending.nodup_keys (d := ⟨rest⟩) hrest
    have hlt := hhead _ ((Dictionary.lookup_eq_some_iff hnodup).1 hx)
    rw [hname] at hlt
    exact String.lt_irrefl _ hlt

end

end ProtoSchema.Entry

/-! ## The files below a directory -/

namespace ProtoSchema.Disk

variable {d : Disk} {p r : Position} {path : String} {bytes : Bytes}

/-- In every directory at or below a position the names ascend. -/
def TidyAt (d : Disk) (p : Position) : Prop := ∀ e, d.at? p = some e → e.Tidy

theorem bytes?_eq_some_iff : d.bytes? p = some bytes ↔ d.at? p = some (.file bytes) := by
  unfold bytes?
  rcases d.at? p with _ | _ | _ <;> simp

theorem place_eq_ok_iff_follow : d.place path = .ok p ↔ ∃ way, d.follow path = .ok way ∧ way.position = p := map_eq_ok_iff

theorem filesBelow_eq_nil (h : ∀ p, d.place path = .ok p → ¬ d.IsDirectoryAt p) : d.filesBelow path = [] := by
  unfold filesBelow
  split
  · rfl
  next way hway =>
    split
    next entries hreached =>
      rw [(recorded_of_follow hway).reached_eq] at hreached
      exact absurd ⟨entries, hreached⟩ (h _ (place_eq_ok_iff_follow.2 ⟨way, hway, rfl⟩))
    · rfl

/-- The listing of a tidy directory counts each file at or below it once. -/
theorem exists_files (hp : d.place path = .ok p) (hd : d.IsDirectoryAt p) (ht : d.TidyAt p) :
    ∃ files : List (Position × Bytes), (d.filesBelow path).length = files.length ∧ (files.map Prod.fst).Nodup ∧
      ∀ r bytes, (r, bytes) ∈ files ↔ p <+: r ∧ d.bytes? r = some bytes := by
  obtain ⟨way, hway, rfl⟩ := place_eq_ok_iff_follow.1 hp
  obtain ⟨entries, hentries⟩ := hd
  have hreached : d.reached way = some (.directory entries) := (recorded_of_follow hway).reached_eq.trans hentries
  refine ⟨(Entry.directory entries).files way.position, ?_, Entry.nodup_files _ (ht _ hentries), fun r bytes => ?_⟩
  · unfold filesBelow
    rw [hway]
    simp only [hreached, List.length_mergeSort, List.length_map]
  · rw [Entry.mem_files _ (ht _ hentries)]
    constructor
    · rintro ⟨s, rfl, hs⟩
      exact ⟨⟨s, rfl⟩, bytes?_eq_some_iff.2 (by rw [at?_append, hentries, Option.bind_some, hs])⟩
    · rintro ⟨⟨s, rfl⟩, hs⟩
      rw [bytes?_eq_some_iff, at?_append, hentries, Option.bind_some] at hs
      exact ⟨s, rfl, hs⟩

end ProtoSchema.Disk
