import Mathlib.Tactic.SplitIfs
import ProtoSchema.Proofs.Results
import ProtoSchema.Storage.Disk
/-!
# Places

A path leads to a position, if each of its steps starts at a directory (`place`). What
stands at a position after something has been put on the disk is what stood there
before, except at the place itself and on the way to it (`put_cases`).
-/

namespace ProtoSchema

namespace Entry

variable {e x : Entry} {p q r : Position}

theorem at?_append (e : Entry) (p q : Position) : e.at? (p ++ q) = (e.at? p).bind (·.at? q) := by
  induction p generalizing e with
  | nil => rfl
  | cons name p ih =>
    cases e with
    | file bytes => rfl
    | directory entries =>
      show (entries.get? name).bind (·.at? (p ++ q)) = ((entries.get? name).bind (·.at? p)).bind (·.at? q)
      cases entries.get? name with
      | none => rfl
      | some inner => exact ih inner

/-- Around a place, what is put there is put at the rest of the way. -/
theorem at?_put_around (h : e.at? p = some x) (new : Entry) (q : Position) :
    (put new e (p ++ q)).at? p = some (put new x q) := by
  induction p generalizing e with
  | nil => exact congrArg (fun e => some (put new e q)) (Option.some.inj h)
  | cons name p ih =>
    cases e with
    | file bytes => cases h
    | directory entries =>
      obtain ⟨inner, hinner, h⟩ := Option.bind_eq_some_iff.1 h
      show ((entries.insert name (put new ((entries.get? name).getD (directory .empty)) (p ++ q))).get? name).bind _ = _
      rw [Dictionary.get?_insert, if_pos rfl, hinner]
      exact ih h

/-- What is put at one place makes no difference at another that is neither around it nor inside. -/
theorem at?_put_apart (new : Entry) (h : ¬ p <+: r) (h' : ¬ r <+: p) : (put new e p).at? r = e.at? r := by
  induction p generalizing e r with
  | nil => exact absurd List.nil_prefix h
  | cons name p ih =>
    cases r with
    | nil => exact absurd List.nil_prefix h'
    | cons name' r =>
      cases e with
      | file bytes => rfl
      | directory entries =>
        show ((entries.insert name _).get? name').bind _ = (entries.get? name').bind _
        rw [Dictionary.get?_insert]
        split
        case isFalse => rfl
        case isTrue heq =>
          subst heq
          rw [List.cons_prefix_cons] at h h'
          have hinner := ih (e := (entries.get? name').getD (directory .empty)) (fun hp => h ⟨rfl, hp⟩) (fun hp => h' ⟨rfl, hp⟩)
          show (put new _ p).at? r = _
          rw [hinner]
          cases entries.get? name' with
          | some inner => rfl
          | none =>
            cases r with
            | nil => exact absurd ⟨rfl, List.nil_prefix⟩ h'
            | cons => rfl

end Entry

namespace Disk

variable {d d' : Disk} {p q r : Position} {e : Entry} {name path : String} {way : Way}

/-! ## What stands where -/

def IsDirectoryAt (d : Disk) (p : Position) : Prop := ∃ entries, d.at? p = some (.directory entries)

instance (d : Disk) (p : Position) : Decidable (d.IsDirectoryAt p) :=
  match h : d.at? p with
  | some (.directory entries) => .isTrue ⟨entries, h⟩
  | some (.file _) => .isFalse fun ⟨_, hp⟩ => by rw [h] at hp; cases hp
  | none => .isFalse fun ⟨_, hp⟩ => by rw [h] at hp; cases hp

/-- The contents of the file at a position. -/
def bytes? (d : Disk) (p : Position) : Option Bytes :=
  match d.at? p with
  | some (.file bytes) => some bytes
  | _ => none

theorem at?_append (d : Disk) (p q : Position) : d.at? (p ++ q) = (d.at? p).bind (·.at? q) :=
  Entry.at?_append _ p q

/-- What is around something is a directory. -/
theorem isDirectoryAt_of_at? (hq : q ≠ []) (h : d.at? (p ++ q) = some e) : d.IsDirectoryAt p := by
  obtain ⟨name, q, rfl⟩ := List.exists_cons_of_ne_nil hq
  rw [at?_append] at h
  obtain ⟨around, haround, h⟩ := Option.bind_eq_some_iff.1 h
  cases around with
  | directory entries => exact ⟨entries, haround⟩
  | file bytes => cases h

@[simp] theorem put_workingDirectory (d : Disk) (p : Position) (e : Entry) :
    (d.put p e).workingDirectory = d.workingDirectory := by
  unfold put
  split <;> rfl

theorem at?_put (hp : p ≠ []) : (d.put p e).at? r = (Entry.put e (.directory d.root) p).at? r := by
  obtain ⟨name, p, rfl⟩ := List.exists_cons_of_ne_nil hp
  rfl

/-- All that putting something at a new place, or in place of a file, does: it stands there, the directories
around it have it inside, and nothing else is different. -/
theorem put_cases (hq : d.IsDirectoryAt q) (hfree : ¬ d.IsDirectoryAt (q ++ [name])) (e : Entry) (r : Position) :
    (∃ s, r = q ++ [name] ++ s ∧ (d.put (q ++ [name]) e).at? r = e.at? s ∧ (s ≠ [] → d.at? r = none)) ∨
    (∃ s entries, s ≠ [] ∧ q ++ [name] = r ++ s ∧ d.at? r = some (.directory entries) ∧
      (d.put (q ++ [name]) e).at? r = some (Entry.put e (.directory entries) s)) ∨
    (¬ q ++ [name] <+: r ∧ ¬ r <+: q ++ [name] ∧ (d.put (q ++ [name]) e).at? r = d.at? r) := by
  have hne : q ++ [name] ≠ [] := by simp
  rw [at?_put hne]
  obtain ⟨entries, hentries⟩ := hq
  by_cases hinside : q ++ [name] <+: r
  · obtain ⟨s, rfl⟩ := hinside
    refine .inl ⟨s, rfl, ?_, fun hs => ?_⟩
    · rw [List.append_assoc, Entry.at?_append, Entry.at?_put_around hentries, Option.bind_some]
      show ((entries.insert name (Entry.put e _ [])).get? name).bind (·.at? s) = e.at? s
      rw [Dictionary.get?_insert, if_pos rfl]
      rfl
    · cases h : d.at? (q ++ [name] ++ s) with
      | none => rfl
      | some x => exact absurd (isDirectoryAt_of_at? hs h) hfree
  · by_cases haround : r <+: q ++ [name]
    · obtain ⟨s, hs⟩ := haround
      have hsne : s ≠ [] := by
        rintro rfl
        exact hinside ⟨[], by rw [← hs, List.append_nil, List.append_nil]⟩
      -- What is around the new place is around `q`, or `q` itself.
      obtain ⟨t, ht⟩ : r <+: q := by
        rcases List.prefix_concat_iff.1 ⟨s, hs⟩ with heq | hwithin
        · exact absurd (heq ▸ List.prefix_rfl) hinside
        · exact hwithin
      obtain ⟨entries', hentries'⟩ : d.IsDirectoryAt r := by
        by_cases htnil : t = []
        · exact ⟨entries, by rw [← hentries, ← ht, htnil, List.append_nil]⟩
        · exact isDirectoryAt_of_at? htnil (ht ▸ hentries)
      refine .inr (.inl ⟨s, entries', hsne, hs.symm, hentries', ?_⟩)
      rw [← hs]
      exact Entry.at?_put_around hentries' e s
    · exact .inr (.inr ⟨hinside, haround, Entry.at?_put_apart e hinside haround⟩)

/-! ## Following paths by positions -/

/-- One step from a position. -/
def walk (d : Disk) (p : Position) (name : String) : Except SystemError Position :=
  match d.at? p with
  | none => .error .notFound
  | some (.file _) => .error .notDirectory
  | some (.directory _) =>
    if name = "" ∨ name = "." then .ok p
    else if name = ".." then .ok p.dropLast
    else if name.utf8ByteSize > nameLimit then .error .nameTooLong
    else .ok (p ++ [name])

/-- The position to which a path leads, whether or not something stands there. -/
def place (d : Disk) (path : String) : Except SystemError Position := (d.follow path).map Way.position

/-- A way tells what stands where it passes. -/
inductive Recorded (d : Disk) : Way → Prop where
  | root : d.Recorded []
  | step {way : Way} {name : String} {entries : Dictionary Entry} (before : d.Recorded way)
      (here : d.reached way = some (.directory entries)) : d.Recorded ((name, entries.get? name) :: way)

theorem position_cons (name : String) (e : Option Entry) (way : Way) :
    Way.position ((name, e) :: way) = way.position ++ [name] := by
  simp [Way.position]

namespace Recorded

theorem reached_eq (h : d.Recorded way) : d.reached way = d.at? way.position := by
  induction h with
  | root => rfl
  | @step way name entries before here ih =>
    rw [position_cons, at?_append, ← ih, here, Option.bind_some]
    show entries.get? name = (entries.get? name).bind (·.at? [])
    cases entries.get? name <;> rfl

theorem tail (h : d.Recorded way) : d.Recorded way.tail := by
  cases h with
  | root => exact .root
  | step before here => exact before

theorem position_tail (way : Way) : Way.position way.tail = way.position.dropLast := by
  simp [Way.position, List.dropLast_reverse]

theorem step_of_ok {way' : Way} (h : d.Recorded way) (hstep : d.step way name = .ok way') : d.Recorded way' := by
  unfold Disk.step at hstep
  split at hstep
  · cases hstep
  · cases hstep
  next entries hreached =>
    split_ifs at hstep <;> cases hstep
    · exact h
    · exact h.tail
    · exact .step h hreached

/-- A step of a way is a step of positions. -/
theorem step_map (h : d.Recorded way) (name : String) :
    (d.step way name).map Way.position = d.walk way.position name := by
  unfold Disk.step walk
  rw [← h.reached_eq]
  cases d.reached way with
  | none => rfl
  | some e =>
    cases e with
    | file bytes => rfl
    | directory entries =>
      dsimp only
      split_ifs
      · rfl
      · exact congrArg Except.ok (position_tail way)
      · rfl
      · exact congrArg Except.ok (position_cons name _ way)

theorem foldlM_map (names : List String) : ∀ {way : Way}, d.Recorded way →
    (names.foldlM d.step way).map Way.position = names.foldlM d.walk way.position ∧
      ∀ way', names.foldlM d.step way = .ok way' → d.Recorded way' := by
  induction names with
  | nil =>
    intro way h
    exact ⟨rfl, fun way' hway => Except.ok.inj hway ▸ h⟩
  | cons name names ih =>
    intro way h
    rw [List.foldlM_cons, List.foldlM_cons, ← h.step_map]
    cases hstep : d.step way name with
    | error cause => exact ⟨rfl, fun way' hway => by cases hway⟩
    | ok next => exact ih (h.step_of_ok hstep)

end Recorded

/-- The names that a path is made of, from the root. -/
def namesOf (d : Disk) (path : String) : List String :=
  (if Path.isAbsolute path then [] else d.workingDirectory) ++ Path.steps path

/-- A path that the system takes at all. -/
structure Usable (path : String) : Prop where
  valid : '\x00' ∉ path.toList
  nonempty : path ≠ ""
  short : path.utf8ByteSize < pathLimit

theorem usable_of_follow (h : d.follow path = .ok way) : Usable path := by
  unfold follow at h
  split at h
  case isTrue => cases h
  case isFalse hvalid =>
    split at h
    case isTrue => cases h
    case isFalse hempty =>
      split at h
      case isTrue => cases h
      case isFalse hshort =>
        exact ⟨fun hmem => hvalid (List.contains_iff_mem.2 hmem), hempty, Nat.not_le.1 hshort⟩

theorem follow_eq_ok_iff : d.follow path = .ok way ↔ Usable path ∧ (d.namesOf path).foldlM d.step [] = .ok way := by
  have hfollow : Usable path → d.follow path = (d.namesOf path).foldlM d.step [] := fun h => by
    rw [follow, if_neg fun hmem => h.valid (List.contains_iff_mem.1 hmem), if_neg h.nonempty,
      if_neg (Nat.not_le.2 h.short)]
    rfl
  exact ⟨fun h => ⟨usable_of_follow h, hfollow (usable_of_follow h) ▸ h⟩, fun h => (hfollow h.1).trans h.2⟩

theorem recorded_of_follow (h : d.follow path = .ok way) : d.Recorded way :=
  (Recorded.root.foldlM_map _).2 way (follow_eq_ok_iff.1 h).2

theorem place_eq_ok_iff : d.place path = .ok p ↔ Usable path ∧ (d.namesOf path).foldlM d.walk [] = .ok p := by
  have hwalk : (d.namesOf path).foldlM d.walk [] = ((d.namesOf path).foldlM d.step []).map Way.position :=
    (Recorded.root.foldlM_map _).1.symm
  rw [hwalk, map_eq_ok_iff, place, map_eq_ok_iff]
  constructor
  · rintro ⟨way, hway, rfl⟩
    exact ⟨(follow_eq_ok_iff.1 hway).1, way, (follow_eq_ok_iff.1 hway).2, rfl⟩
  · rintro ⟨husable, way, hway, rfl⟩
    exact ⟨way, follow_eq_ok_iff.2 ⟨husable, hway⟩, rfl⟩

end Disk
end ProtoSchema
