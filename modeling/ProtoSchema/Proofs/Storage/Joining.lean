import ProtoSchema.Proofs.Storage.Passing
/-!
# Paths inside a directory

A name made of plain steps leads to the position that these steps have below the
directory (`place_join`). With other steps as well it leads there or further inside as
long as it does not go outwards more often than inwards before
(`spot_prefix_of_inward`), and on its way it passes by nothing else outside than the
path of the directory does (`passedBy_of_inward`).
-/

namespace ProtoSchema

namespace Path

/-- A step that names something. -/
def Plain (step : String) : Prop := step ≠ "" ∧ step ≠ "." ∧ step ≠ ".."

instance : DecidablePred Plain := fun _ => inferInstanceAs (Decidable (_ ∧ _ ∧ _))

/-- A path inside a directory that never goes further outwards than it has come inwards. -/
structure Inward (name : String) : Prop where
  relative : name.toList.head? ≠ some '/'
  inside : ∀ front, front <+: steps name → front.count ".." ≤ front.countP Plain

instance (name : String) : Decidable (Inward name) :=
  decidable_of_iff (name.toList.head? ≠ some '/' ∧
      ∀ front ∈ (steps name).inits, front.count ".." ≤ front.countP Plain)
    ⟨fun ⟨h, h'⟩ => ⟨h, fun front hfront => h' front ((List.mem_inits _ _).2 hfront)⟩,
      fun ⟨h, h'⟩ => ⟨h, fun front hfront => h' front ((List.mem_inits _ _).1 hfront)⟩⟩

variable {directory name : String}

theorem not_absolute_of_plain (h : ∀ step ∈ steps name, Plain step) : name.toList.head? ≠ some '/' := by
  intro hhead
  obtain ⟨rest, hrest⟩ := List.head?_eq_some_iff.1 hhead
  have hfirst : "" ∈ steps name := by
    rw [steps, hrest, show '/' :: rest = [] ++ '/' :: rest from rfl, List.splitOn_append_cons_self]
    exact List.mem_map_of_mem (List.mem_append_left _ (.head _))
  exact (h "" hfirst).1 rfl

/-- What is joined to a directory stands after one slash, whether or not the directory ends with that. -/
theorem exists_toList_join (directory : String) (hname : name.toList.head? ≠ some '/') : ∃ front,
    (directory.toList = front ∨ directory.toList = front ++ ['/']) ∧
      (join directory name).toList = front ++ '/' :: name.toList := by
  rw [join, if_neg hname]
  split
  case isTrue hlast =>
    obtain ⟨front, hfront⟩ := List.getLast?_eq_some_iff.1 hlast
    exact ⟨front, .inr hfront, by simp [hfront]⟩
  case isFalse => exact ⟨directory.toList, .inl rfl, by simp⟩

theorem utf8ByteSize_le_join (hname : name.toList.head? ≠ some '/') :
    directory.utf8ByteSize ≤ (join directory name).utf8ByteSize := by
  rw [join, if_neg hname]
  split <;> simp only [String.utf8ByteSize_append] <;> omega

/-- Steps of which no beginning goes further outwards than inwards end as far inside as both together say. -/
theorem exists_foldl_move {names : List String} (p : Position)
    (h : ∀ front, front <+: names → front.count ".." ≤ front.countP Plain) :
    ∃ s, names.foldl move p = p ++ s ∧ s.length + names.count ".." = names.countP Plain := by
  induction names using List.reverseRecOn with
  | nil => exact ⟨[], by simp, rfl⟩
  | append_singleton names step ih =>
    obtain ⟨s, hs, hlength⟩ := ih fun front hfront => h front (hfront.trans (List.prefix_append _ _))
    have hwhole := h _ List.prefix_rfl
    simp only [List.foldl_concat, hs, List.count_append, List.countP_append, List.count_singleton,
      List.countP_singleton] at hwhole ⊢
    by_cases hstays : step = "" ∨ step = "."
    · have hnone : ¬ Plain step ∧ step ≠ ".." := by rcases hstays with rfl | rfl <;> decide
      exact ⟨s, by rw [move, if_pos hstays], by simpa [hnone.1, hnone.2] using hlength⟩
    · by_cases hout : step = ".."
      · subst hout
        have hnone : ¬ Plain ".." := by decide
        simp only [hnone, beq_self_eq_true, decide_false, if_true, Bool.false_eq_true, if_false] at hwhole ⊢
        -- What goes outwards here has come inwards before.
        have hne : s ≠ [] := by
          rintro rfl
          rw [List.length_nil] at hlength
          omega
        have hpos := List.length_pos_iff.2 hne
        refine ⟨s.dropLast, by rw [move, if_neg hstays, if_pos rfl, List.dropLast_append_of_ne_nil hne], ?_⟩
        rw [List.length_dropLast]
        omega
      · have hplain : Plain step := ⟨fun h => hstays (.inl h), fun h => hstays (.inr h), hout⟩
        refine ⟨s ++ [step], by rw [move, if_neg hstays, if_neg hout, List.append_assoc], ?_⟩
        simp only [List.length_append, List.length_singleton, hplain, decide_true, if_true, beq_iff_eq, hout, if_false]
        omega

end Path

namespace Disk

variable {d : Disk} {p q : Position} {directory name : String}

/-- Plain steps lead inwards, one name each. -/
theorem foldlM_walk_plain {names : List String} (hne : names ≠ []) (hplain : ∀ name ∈ names, Path.Plain name)
    (h : names.foldlM d.walk p = .ok q) : d.IsDirectoryAt p ∧ q = p ++ names := by
  induction names generalizing p with
  | nil => exact absurd rfl hne
  | cons name names ih =>
    obtain ⟨hname, hnames⟩ := List.forall_mem_cons.1 hplain
    rw [List.foldlM_cons] at h
    obtain ⟨next, hnext, h⟩ := bind_eq_ok_iff.1 h
    have hstep : d.IsDirectoryAt p ∧ next = p ++ [name] := by
      unfold walk at hnext
      split at hnext
      · cases hnext
      · cases hnext
      next entries hentries =>
        rw [if_neg (fun h => h.elim hname.1 hname.2.1), if_neg hname.2.2] at hnext
        split at hnext
        · cases hnext
        · exact ⟨⟨entries, hentries⟩, (Except.ok.inj hnext).symm⟩
    obtain ⟨hp, rfl⟩ := hstep
    refine ⟨hp, ?_⟩
    by_cases hnil : names = []
    · subst hnil
      exact (Except.ok.inj h).symm
    · rw [(ih hnil hnames h).2, List.append_assoc]
      rfl

theorem walk_empty (h : d.IsDirectoryAt p) : d.walk p "" = .ok p := by
  obtain ⟨entries, hentries⟩ := h
  rw [walk, hentries]
  rfl

theorem Usable.of_join (hd : directory ≠ "") (hname : name.toList.head? ≠ some '/')
    (h : Usable (Path.join directory name)) : Usable directory := by
  obtain ⟨front, hfront, hjoin⟩ := Path.exists_toList_join directory hname
  refine ⟨fun hmem => h.valid ?_, hd, Nat.lt_of_le_of_lt (Path.utf8ByteSize_le_join hname) h.short⟩
  rw [hjoin]
  rcases hfront with hfront | hfront <;> rw [hfront] at hmem <;> simp_all

/-- The names of what is joined to a directory come after those of the directory, whether or not that ends with a
slash. -/
theorem exists_namesOf_join (d : Disk) (hd : directory ≠ "") (hname : name.toList.head? ≠ some '/') : ∃ front,
    (d.namesOf directory = front ∨ d.namesOf directory = front ++ [""]) ∧
      d.namesOf (Path.join directory name) = front ++ Path.steps name := by
  obtain ⟨front, hfront, hjoin⟩ := Path.exists_toList_join directory hname
  have hsteps : Path.steps (Path.join directory name) = (front.splitOn '/').map String.ofList ++ Path.steps name := by
    rw [Path.steps, hjoin, List.splitOn_append_cons_self, List.map_append]
    rfl
  have habsolute : Path.isAbsolute (Path.join directory name) = Path.isAbsolute directory := by
    have hne : directory.toList ≠ [] := fun hnil => hd (String.toList_eq_nil_iff.1 hnil)
    rw [Path.isAbsolute, Path.isAbsolute, hjoin]
    rcases hfront with hfront | hfront <;> rw [hfront] at hne ⊢ <;> cases front <;> simp_all
  refine ⟨(if Path.isAbsolute directory then [] else d.workingDirectory) ++ (front.splitOn '/').map String.ofList,
    ?_, by rw [namesOf, hsteps, habsolute, List.append_assoc]⟩
  rw [namesOf, Path.steps]
  rcases hfront with hfront | hfront
  · exact .inl (by rw [hfront])
  · refine .inr ?_
    rw [hfront, List.splitOn_append_cons_self, List.map_append, ← List.append_assoc]
    rfl

theorem spot_of_namesOf {front : List String} (h : d.namesOf directory = front ∨ d.namesOf directory = front ++ [""]) :
    d.spot directory = front.foldl Path.move [] := by
  rcases h with h | h
  · rw [spot, h]
  · rw [spot, h, List.foldl_concat, Path.move, if_pos (.inl rfl)]

theorem spot_prefix_of_inward (hd : directory ≠ "") (h : Path.Inward name) :
    d.spot directory <+: d.spot (Path.join directory name) := by
  obtain ⟨front, hfront, hjoin⟩ := exists_namesOf_join d hd h.relative
  obtain ⟨s, hs, -⟩ := Path.exists_foldl_move (d.spot directory) h.inside
  rw [spot_of_namesOf hfront] at hs ⊢
  exact ⟨s, by rw [spot, hjoin, List.foldl_append, hs]⟩

theorem passedBy_of_inward (hd : directory ≠ "") (h : Path.Inward name) (hp : d.PassedBy (Path.join directory name) p) :
    d.PassedBy directory p ∨ d.spot directory <+: p := by
  obtain ⟨-, passed, hpassed, rfl⟩ := hp
  obtain ⟨front, hfront, hjoin⟩ := exists_namesOf_join d hd h.relative
  rw [hjoin] at hpassed
  rcases List.prefix_or_prefix_of_prefix hpassed (List.prefix_append front _) with hbefore | ⟨after, rfl⟩
  · refine .inl ⟨hd, passed, ?_, rfl⟩
    rcases hfront with hfront | hfront <;> rw [hfront]
    · exact hbefore
    · exact hbefore.trans (List.prefix_append _ _)
  · have hafter : after <+: Path.steps name := (List.prefix_append_right_inj _).1 hpassed
    obtain ⟨s, hs, -⟩ := Path.exists_foldl_move (d.spot directory) fun front' h' => h.inside front' (h'.trans hafter)
    rw [spot_of_namesOf hfront] at hs ⊢
    exact .inr ⟨s, by rw [List.foldl_append, hs]⟩

/-- A plain name inside a directory leads to its steps below the place of that directory. -/
theorem place_join (hd : directory ≠ "") (hplain : ∀ step ∈ Path.steps name, Path.Plain step)
    (h : d.place (Path.join directory name) = .ok p) :
    ∃ q, d.place directory = .ok q ∧ d.IsDirectoryAt q ∧ p = q ++ Path.steps name := by
  have hname := Path.not_absolute_of_plain hplain
  obtain ⟨husable, hwalk⟩ := place_eq_ok_iff.1 h
  obtain ⟨front, hfront, hjoin⟩ := exists_namesOf_join d hd hname
  rw [hjoin, List.foldlM_append] at hwalk
  obtain ⟨q, hq, hrest⟩ := bind_eq_ok_iff.1 hwalk
  have hne : Path.steps name ≠ [] := by simp [Path.steps, List.splitOn_ne_nil]
  obtain ⟨hdirectory, rfl⟩ := foldlM_walk_plain hne hplain hrest
  refine ⟨q, place_eq_ok_iff.2 ⟨husable.of_join hd hname, ?_⟩, hdirectory, rfl⟩
  rcases hfront with hfront | hfront
  · rw [hfront]
    exact hq
  · rw [hfront, List.foldlM_append, hq]
    exact congrArg (· >>= pure) (walk_empty hdirectory)

end Disk
end ProtoSchema
