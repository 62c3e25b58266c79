import ProtoSchema.Proofs.Storage.Listing
import ProtoSchema.Proofs.Storage.Passing
/-!
# How a disk changes

What is done to a disk adds to it: directories stay directories, and so each path that
leads somewhere leads there ever after (`Grows.place`). What is added is confined to
some positions (`Confined`): making directories leaves all files alone and makes those
on the way of a path (`makeAll_run`), and writing a file leaves all other files alone
(`write_grows`).
-/

namespace ProtoSchema.Disk

variable {d d' d'' : Disk} {p q r : Position} {e : Entry} {path : String} {bytes : Bytes}

/-! ## Growth -/

/-- What stays as it is when something is added. -/
structure Grows (d d' : Disk) : Prop where
  workingDirectory : d'.workingDirectory = d.workingDirectory
  directory : ∀ {p}, d.IsDirectoryAt p → d'.IsDirectoryAt p
  tidy : ∀ {p}, d.TidyAt p → d'.TidyAt p

namespace Grows

theorem refl (d : Disk) : Grows d d := ⟨rfl, id, id⟩

theorem trans (h : Grows d d') (h' : Grows d' d'') : Grows d d'' where
  workingDirectory := h'.workingDirectory.trans h.workingDirectory
  directory hp := h'.directory (h.directory hp)
  tidy hp := h'.tidy (h.tidy hp)

theorem put (hp : d.IsDirectoryAt p) {name : String} (hfree : ¬ d.IsDirectoryAt (p ++ [name])) (he : e.Tidy)
    (hleaf : ∀ s ≠ [], e.at? s = none) : Grows d (d.put (p ++ [name]) e) where
  workingDirectory := put_workingDirectory d _ e
  directory := by
    rintro r ⟨entries, hr⟩
    obtain ⟨s, rfl, -, hnone⟩ | ⟨s, entries', hs, -, hr', hput⟩ | ⟨-, -, hput⟩ := put_cases hp hfree e r
    · by_cases hs : s = []
      · subst hs
        rw [List.append_nil] at hr
        exact absurd ⟨entries, hr⟩ hfree
      · rw [hnone hs] at hr
        cases hr
    · obtain ⟨name', s, rfl⟩ := List.exists_cons_of_ne_nil hs
      exact ⟨_, hput⟩
    · exact ⟨entries, hput.trans hr⟩
  tidy := by
    intro r hr x hx
    obtain ⟨s, rfl, hput, -⟩ | ⟨s, entries', hs, -, hr', hput⟩ | ⟨-, -, hput⟩ := put_cases hp hfree e r
    · rw [hput] at hx
      by_cases hs : s = []
      · subst hs
        exact Option.some.inj hx ▸ he
      · rw [hleaf s hs] at hx
        cases hx
    · rw [hput] at hx
      exact Option.some.inj hx ▸ (hr _ hr').put he s
    · exact hr x (hput ▸ hx)

theorem walk {name : String} (h : Grows d d') (hp : d.walk p name = .ok q) : d'.walk p name = .ok q := by
  unfold Disk.walk at hp ⊢
  split at hp
  · cases hp
  · cases hp
  · next entries hentries =>
    obtain ⟨entries', hentries'⟩ := h.directory ⟨entries, hentries⟩
    rw [hentries']
    exact hp

theorem namesOf_eq (h : Grows d d') (path : String) : d'.namesOf path = d.namesOf path := by
  rw [namesOf, namesOf, h.workingDirectory]

theorem passedBy_eq (h : Grows d d') (path : String) : d'.PassedBy path = d.PassedBy path := by
  unfold PassedBy
  rw [h.namesOf_eq]

theorem spot_eq (h : Grows d d') (path : String) : d'.spot path = d.spot path := by
  rw [spot, spot, h.namesOf_eq]

/-- Where a path has led once, it leads for good. -/
theorem place (h : Grows d d') (hp : d.place path = .ok p) : d'.place path = .ok p := by
  obtain ⟨husable, hp⟩ := place_eq_ok_iff.1 hp
  refine place_eq_ok_iff.2 ⟨husable, ?_⟩
  rw [h.namesOf_eq]
  exact foldlM_of_steps h.walk hp

end Grows

/-! ## Operations -/

theorem find_eq_ok_iff : d.find path = .ok e ↔ ∃ p, d.place path = .ok p ∧ d.at? p = some e := by
  have hplace : d.place path = (d.follow path).map Way.position := rfl
  cases hfollow : d.follow path with
  | error cause =>
    have hfind : d.find path = .error cause := by
      rw [find, hfollow]
      rfl
    rw [hfind, hplace, hfollow]
    simp [Except.map]
  | ok way =>
    have hreached := (recorded_of_follow hfollow).reached_eq
    rw [hplace, hfollow]
    cases hat : d.at? way.position with
    | none =>
      have hfind : d.find path = .error .notFound := by
        rw [find, hfollow]
        simp only [bind, Except.bind, hreached, hat]
        rfl
      simp [hfind, Except.map, hat]
    | some e' =>
      have hfind : d.find path = .ok e' := by
        rw [find, hfollow]
        simp only [bind, Except.bind, hreached, hat]
        rfl
      simp [hfind, Except.map, hat]

theorem read_eq_ok_iff_find : d.read path = .ok bytes ↔ d.find path = .ok (.file bytes) := by
  constructor
  · intro h
    obtain ⟨e, hfind, h⟩ := bind_eq_ok_iff.1 h
    cases e with
    | directory entries => cases h
    | file bytes' =>
      obtain rfl := Except.ok.inj h
      exact hfind
  · intro h
    rw [read, h]
    rfl

theorem read_eq_ok_iff : d.read path = .ok bytes ↔ ∃ p, d.place path = .ok p ∧ d.bytes? p = some bytes := by
  simp only [read_eq_ok_iff_find, find_eq_ok_iff, bytes?_eq_some_iff]

/-- A way that ends at a position other than the root ends below a directory. -/
theorem Recorded.parent {way : Way} (h : d.Recorded way) (hne : way.position ≠ []) :
    ∃ p name, way.position = p ++ [name] ∧ d.IsDirectoryAt p := by
  cases h with
  | root => exact absurd rfl hne
  | step before here => exact ⟨_, _, position_cons _ _ _, _, before.reached_eq ▸ here⟩

theorem makeDirectory_eq_ok (h : d.makeDirectory path = .ok d') : ∃ p name, d.place path = .ok (p ++ [name]) ∧
    d.IsDirectoryAt p ∧ d.at? (p ++ [name]) = none ∧ d' = d.put (p ++ [name]) (.directory .empty) := by
  obtain ⟨way, hway, h⟩ := bind_eq_ok_iff.1 h
  have hrecorded := recorded_of_follow hway
  split at h
  · cases h
  next hreached =>
    rw [hrecorded.reached_eq] at hreached
    obtain ⟨p, name, hposition, hp⟩ := hrecorded.parent fun hnil => by
      rw [hnil] at hreached
      cases hreached
    have hplace : d.place path = .ok (p ++ [name]) := by rw [place, hway, ← hposition]; rfl
    rw [hposition] at hreached h
    exact ⟨p, name, hplace, hp, hreached, (Except.ok.inj h).symm⟩

theorem write_eq_ok (h : d.write path bytes = .ok d') : ∃ p name, d.place path = .ok (p ++ [name]) ∧
    d.IsDirectoryAt p ∧ ¬ d.IsDirectoryAt (p ++ [name]) ∧ d' = d.put (p ++ [name]) (.file bytes) := by
  obtain ⟨way, hway, h⟩ := bind_eq_ok_iff.1 h
  have hrecorded := recorded_of_follow hway
  split at h
  · cases h
  next hreached =>
    rw [hrecorded.reached_eq] at hreached
    obtain ⟨p, name, hposition, hp⟩ := hrecorded.parent fun hnil => hreached d.root (by rw [hnil]; rfl)
    have hplace : d.place path = .ok (p ++ [name]) := by rw [place, hway, ← hposition]; rfl
    rw [hposition] at hreached h
    have hfree : ¬ d.IsDirectoryAt (p ++ [name]) := by
      rintro ⟨entries, hentries⟩
      exact hreached entries hentries
    exact ⟨p, name, hplace, hp, hfree, (Except.ok.inj h).symm⟩

theorem bytes?_put (hp : d.IsDirectoryAt p) {name : String} (hfree : ¬ d.IsDirectoryAt (p ++ [name]))
    (hleaf : ∀ s ≠ [], e.at? s = none) (r : Position) : (d.put (p ++ [name]) e).bytes? r =
      if r = p ++ [name] then (match e with | .file bytes => some bytes | .directory _ => none) else d.bytes? r := by
  unfold bytes?
  obtain ⟨s, rfl, hput, hnone⟩ | ⟨s, entries', hs, heq, hr', hput⟩ | ⟨hinside, -, hput⟩ := put_cases hp hfree e r
  · by_cases hs : s = []
    · subst hs
      rw [hput, List.append_nil, if_pos rfl]
      cases e <;> rfl
    · rw [if_neg (by simpa using hs), hput, hleaf s hs, hnone hs]
  · obtain ⟨name', s, rfl⟩ := List.exists_cons_of_ne_nil hs
    rw [if_neg (fun h => by simp [← h] at heq), hput, hr']
    rfl
  · rw [if_neg (fun h => hinside ⟨[], by rw [h, List.append_nil]⟩), hput]

theorem at?_empty (hp : p ≠ []) : (Entry.directory .empty).at? p = none := by
  obtain ⟨name, p, rfl⟩ := List.exists_cons_of_ne_nil hp
  rfl

theorem at?_file (hp : p ≠ []) : (Entry.file bytes).at? p = none := by
  obtain ⟨name, p, rfl⟩ := List.exists_cons_of_ne_nil hp
  rfl

/-- What is put somewhere makes a directory there at most. -/
theorem isDirectoryAt_of_put (hp : d.IsDirectoryAt p) {name : String} (hfree : ¬ d.IsDirectoryAt (p ++ [name]))
    (hleaf : ∀ s ≠ [], e.at? s = none) (hr : (d.put (p ++ [name]) e).IsDirectoryAt r) :
    d.IsDirectoryAt r ∨ r = p ++ [name] ∧ ∃ entries, e = .directory entries := by
  obtain ⟨entries, hr⟩ := hr
  obtain ⟨s, rfl, hput, -⟩ | ⟨s, entries', -, -, hr', -⟩ | ⟨-, -, hput⟩ := put_cases hp hfree e r
  · rw [hput] at hr
    by_cases hs : s = []
    · subst hs
      exact .inr ⟨List.append_nil _, entries, Option.some.inj hr⟩
    · rw [hleaf s hs] at hr
      cases hr
  · exact .inl ⟨entries', hr'⟩
  · exact .inl ⟨entries, hput ▸ hr⟩

/-! ## Confinement -/

/-- Something has been added, but directories are new only at some positions, and files are different only at some. -/
structure Confined (made written : Position → Prop) (d d' : Disk) : Prop where
  grows : Grows d d'
  directories : ∀ {p}, d'.IsDirectoryAt p → d.IsDirectoryAt p ∨ made p
  files : ∀ {p}, ¬ written p → d'.bytes? p = d.bytes? p

namespace Confined

variable {made made' written written' : Position → Prop}

theorem refl (d : Disk) : Confined made written d d := ⟨.refl d, .inl, fun _ => rfl⟩

theorem trans (h : Confined made written d d') (h' : Confined made written d' d'') : Confined made written d d'' where
  grows := h.grows.trans h'.grows
  directories hp := (h'.directories hp).elim h.directories .inr
  files hp := (h'.files hp).trans (h.files hp)

theorem mono (h : Confined made written d d') (hmade : ∀ p, made p → made' p)
    (hwritten : ∀ p, written p → written' p) : Confined made' written' d d' where
  grows := h.grows
  directories hp := (h.directories hp).imp_right (hmade _)
  files hp := h.files fun hp' => hp (hwritten _ hp')

/-- Where nothing may be written, all files are the same. -/
theorem bytes?_eq (h : Confined made (fun _ => False) d d') : d'.bytes? = d.bytes? := funext fun _ => h.files id

theorem bind {α β : Type} {first : StateM Disk α} {next : α → StateM Disk β}
    (h : Confined made written d (first.run d).2)
    (h' : ∀ a d', Grows d d' → Confined made written d' ((next a).run d').2) :
    Confined made written d ((first >>= next).run d).2 :=
  h.trans (h' (first.run d).1 (first.run d).2 h.grows)

end Confined

/-- Making a directory makes it where its path leads and leaves all files alone. -/
theorem makeDirectory_confined (h : d.makeDirectory path = .ok d') :
    Confined (d.PassedBy path) (fun _ => False) d d' := by
  obtain ⟨p, name, hplace, hp, hnone, rfl⟩ := makeDirectory_eq_ok h
  have hfree : ¬ d.IsDirectoryAt (p ++ [name]) := fun ⟨entries, hentries⟩ => by
    rw [hnone] at hentries
    cases hentries
  refine ⟨.put hp hfree Entry.tidy_empty fun _ => at?_empty, fun hr => ?_, fun {r} _ => ?_⟩
  · rcases isDirectoryAt_of_put hp hfree (fun _ => at?_empty) hr with hr | ⟨rfl, -⟩
    · exact .inl hr
    · exact .inr (passedBy_of_place hplace)
  · rw [bytes?_put hp hfree fun _ => at?_empty]
    split
    · next heq =>
      rw [heq, bytes?, hnone]
    · rfl

/-- Writing a file puts its bytes where its path leads and leaves all other files alone. -/
theorem write_grows (h : d.write path bytes = .ok d') : ∃ p, d.place path = .ok p ∧ Grows d d' ∧
    ∀ r, d'.bytes? r = if r = p then some bytes else d.bytes? r := by
  obtain ⟨p, name, hplace, hp, hfree, rfl⟩ := write_eq_ok h
  have htidy : (Entry.file bytes).Tidy := by
    rw [Entry.Tidy]
    trivial
  exact ⟨p ++ [name], hplace, .put hp hfree htidy fun _ => at?_file, bytes?_put hp hfree fun _ => at?_file⟩

theorem write_confined {made : Position → Prop} (h : d.write path bytes = .ok d') :
    Confined made (· = d.spot path) d d' := by
  obtain ⟨p, hplace, hgrows, hbytes⟩ := write_grows h
  refine ⟨hgrows, fun hr => ?_, fun {r} hr => ?_⟩
  · obtain ⟨q, name, -, hq, hfree, rfl⟩ := write_eq_ok h
    rcases isDirectoryAt_of_put hq hfree (fun _ => at?_file) hr with hr | ⟨-, _, hfile⟩
    · exact .inl hr
    · cases hfile
  · rw [hbytes, if_neg fun heq => hr (heq.trans (spot_of_place hplace).symm)]

/-! ## Runs -/

theorem attempt_run_ok {change : Disk → Except SystemError Disk} (h : change d = .ok d') :
    (attempt change).run d = (.ok (), d') := by
  show attempt change d = _
  rw [attempt, h]

theorem attempt_run_error {change : Disk → Except SystemError Disk} {cause : SystemError}
    (h : change d = .error cause) : (attempt change).run d = (.error cause, d) := by
  show attempt change d = _
  rw [attempt, h]

theorem attempt_confined {made written : Position → Prop} {change : Disk → Except SystemError Disk}
    (h : ∀ d', change d = .ok d' → Confined made written d d') : Confined made written d ((attempt change).run d).2 := by
  cases hchange : change d with
  | ok d' =>
    rw [attempt_run_ok hchange]
    exact h d' hchange
  | error cause =>
    rw [attempt_run_error hchange]
    exact .refl d

theorem ensureDirectory_run (path : String) (d : Disk) :
    Confined (d.PassedBy path) (fun _ => False) d ((fileSystem.ensureDirectory path).run d).2 := by
  refine .bind (attempt_confined fun d' => makeDirectory_confined) fun result d' _ => ?_
  cases result with
  | ok => exact .refl d'
  | error e =>
    refine .bind (.refl d') fun there d'' _ => ?_
    cases there <;> exact .refl d''

/-- The directories that are made on the way to a path are on that way, and all files are left alone. -/
theorem makeAll_run (path : List Char) (d : Disk) :
    Confined (d.PassedBy (String.ofList path)) (fun _ => False) d ((fileSystem.makeAll path).run d).2 := by
  induction hn : path.length using Nat.strongRecOn generalizing path d with
  | ind n ih =>
    rw [FileSystem.makeAll]
    refine .bind (ensureDirectory_run (String.ofList path) d) fun result d' h' => ?_
    split
    · split
      · exact .refl d'
      next parent hparent =>
        -- The path has not changed, so the directories around it are on its way as well.
        have haround := ih parent.length (hn ▸ Path.parent?_shorter hparent) parent d' rfl
        refine .bind (haround.mono (fun p hp => ?_) fun _ => id) fun result d'' h'' => ?_
        · exact h'.passedBy_eq _ ▸ passedBy_parent hparent hp
        · cases result with
          | ok =>
            rw [← (h'.trans h'').passedBy_eq]
            exact ensureDirectory_run (String.ofList path) d''
          | error e => exact .refl d''
    · exact .refl d'

end ProtoSchema.Disk
