import Mathlib.Logic.Function.Iterate
import ProtoSchema.Proofs.Catalog.Numbering
import ProtoSchema.Proofs.Catalog.Scoping
/-!
# The hierarchy of namespaces

After any filings the namespaces are a tree (`hierarchy_ofFilings`): every number but
that of the outermost scope has a parent before it, parents and children tell of each
other, and no number leads out of the table, whether it stands in the table or a
look-up answers it. Going outwards leads to smaller numbers (`Inward`), which is why
looking for a type name comes to an end, at the outermost scope if not before; and the
look-ups by number answer what the catalog answers by scope (`Tabulates.lookup`).
-/

namespace ProtoSchema.Namespaces

/-! ## Look-ups by number -/

/-- The number that a package name leads to from number `i`. -/
def enter (t : Namespaces) (i : Nat) (package : String) : Option Nat := t.walk? i (.ofPackage package)

/-- What the parts of a name stand for in number `i`, and the number of the namespace in which that is
declared. -/
def resolve (t : Namespaces) (i : Nat) : List String → Option (Declaration × Nat)
  | [] => none
  | [name] => if name = "" then none else (t.type? i name).map (·, i)
  | name :: rest =>
    match t.child? i name with
    | some c => t.resolve c rest
    | none => ((t.type? i name).bind (·.descend rest)).map (·, i)

/-- Going outwards leads to smaller numbers, and so comes to an end. -/
def Inward (t : Namespaces) : Prop := ∀ i p, t.parent? i = some p → p < i

/-- What the parts of a name stand for in the first namespace that knows them, from number `i` outwards. -/
def resolveOutward (t : Namespaces) (ht : t.Inward) (parts : List String) (i : Nat) :
    Option (Declaration × Nat) :=
  match t.resolve i parts with
  | some found => some found
  | none =>
    match hp : t.parent? i with
    | some p =>
      have := ht i p hp
      t.resolveOutward ht parts p
    | none => none
termination_by i

/-- The message that a type name refers to in number `current`, and the number of the namespace in which
it is declared. -/
def lookup (t : Namespaces) (ht : t.Inward) (current : Nat) (typeName : String) :
    Option (Declaration × Nat) :=
  match typeName.toList with
  | '.' :: absolute => t.resolve 0 (segments (String.ofList absolute))
  | _ => t.resolveOutward ht (segments typeName) current

theorem resolveOutward_eq_or (t : Namespaces) (ht : t.Inward) (parts : List String) (i : Nat) :
    t.resolveOutward ht parts i = (t.resolve i parts).or ((t.parent? i).bind (t.resolveOutward ht parts)) := by
  rw [resolveOutward]
  cases t.resolve i parts with
  | some found => rfl
  | none =>
    dsimp only
    split <;> simp_all

theorem lookup_relative {t : Namespaces} (ht : t.Inward) {current : Nat} {typeName : String}
    (h : ∀ absolute, typeName.toList ≠ '.' :: absolute) :
    t.lookup ht current typeName = t.resolveOutward ht (segments typeName) current := by
  rw [lookup]
  split
  · exact absurd ‹_› (h _)
  · rfl

/-- The same declaration, in the namespace whose number stands for the scope. -/
def SameAnswer (scopes : List Scope) (a : Option (Declaration × Nat)) (b : Option (Declaration × Scope)) : Prop :=
  a.map (fun x => (x.1, scopes[x.2]?)) = b.map fun x => (x.1, some x.2)

namespace SameAnswer
variable {scopes : List Scope}

theorem orElse {a a' : Option (Declaration × Nat)} {b b' : Option (Declaration × Scope)}
    (h : SameAnswer scopes a b) (h' : SameAnswer scopes a' b') : SameAnswer scopes (a.or a') (b.or b') := by
  unfold SameAnswer at *
  rw [Option.map_or, Option.map_or, h, h']

theorem declared {i : Nat} {s : Scope} (hi : scopes[i]? = some s) (d : Option Declaration) :
    SameAnswer scopes (d.map (·, i)) (d.map (·, s)) := by
  simp [SameAnswer, hi, Function.comp_def]

theorem isSome_eq {a : Option (Declaration × Nat)} {b : Option (Declaration × Scope)} (h : SameAnswer scopes a b) :
    a.isSome = b.isSome := by
  have hsome := congrArg Option.isSome h
  rwa [Option.isSome_map, Option.isSome_map] at hsome

theorem exists_scope {d : Declaration} {j : Nat} {b : Option (Declaration × Scope)}
    (h : SameAnswer scopes (some (d, j)) b) : ∃ s, b = some (d, s) ∧ scopes[j]? = some s := by
  cases b with
  | none => cases h
  | some x =>
    obtain ⟨rfl, hj⟩ := Prod.mk.inj (Option.some.inj h)
    exact ⟨x.2, rfl, hj⟩

theorem eq_some {t : Namespaces} {a : Option (Declaration × Nat)} {d : Declaration} {j : Nat} {s : Scope}
    (hn : Numbers t scopes) (h : SameAnswer scopes a (some (d, s))) (hj : scopes[j]? = some s) : a = some (d, j) := by
  cases a with
  | none => cases h
  | some x =>
    obtain ⟨rfl, hx⟩ := Prod.mk.inj (Option.some.inj h)
    rw [hn.unique hj hx]

theorem lt {d : Declaration} {j : Nat} {b : Option (Declaration × Scope)}
    (h : SameAnswer scopes (some (d, j)) b) : j < scopes.length := by
  obtain ⟨s, -, hj⟩ := h.exists_scope
  exact (List.getElem?_eq_some_iff.1 hj).1

end SameAnswer

namespace Tabulates
variable {t : Namespaces} {scopes : List Scope} {c : Catalog} {i : Nat} {s : Scope}

theorem contains (h : Tabulates t scopes c) (hi : scopes[i]? = some s) : c.contains s = true :=
  (h.known s).1 (List.mem_of_getElem? hi)

/-- A name leads to a namespace exactly if the catalog knows the scope inside. -/
theorem contains_child (h : Tabulates t scopes c) (hi : scopes[i]? = some s) (name : String) :
    (∃ k, t.child? i name = some k) ↔ c.contains (s ++ [name]) = true := by
  rw [← h.known, List.mem_iff_getElem?]
  exact exists_congr fun k => h.child hi name k

theorem resolve (h : Tabulates t scopes c) (hi : scopes[i]? = some s) (parts : List String) :
    SameAnswer scopes (t.resolve i parts) (c.resolveAt s parts) := by
  fun_induction Namespaces.resolve t i parts generalizing s with
  | case1 i =>
    rw [Catalog.resolveAt_nil]
    exact .declared hi none
  | case2 i =>
    rw [Catalog.resolveAt_singleton (h.contains hi), if_pos rfl]
    exact .declared hi none
  | case3 i name hname =>
    rw [Catalog.resolveAt_singleton (h.contains hi), if_neg hname, h.type hi]
    exact .declared hi _
  | case4 i name rest hrest k hk ih =>
    rw [Catalog.resolveAt_scope ((h.contains_child hi name).1 ⟨k, hk⟩) hrest]
    exact ih ((h.child hi name k).1 hk)
  | case5 i name rest hrest hk =>
    have hinner : c.contains (s ++ [name]) = false := by
      rw [Bool.eq_false_iff, Ne, ← h.contains_child hi, hk]
      simp
    rw [Catalog.resolveAt_message (h.contains hi) hinner hrest, h.type hi]
    exact .declared hi _

theorem resolveOutward (h : Tabulates t scopes c) (ht : t.Inward) (hi : scopes[i]? = some s)
    (parts : List String) : SameAnswer scopes (t.resolveOutward ht parts i) (c.resolveOutward parts s) := by
  -- From the last name, because a namespace knows what is directly around it.
  induction s using List.reverseRecOn generalizing i with
  | nil =>
    have hroot : t.parent? i = none := by rw [h.unique hi h.root, h.parent_root]
    have hhere := h.resolve hi parts
    rw [Namespaces.resolveOutward_eq_or, hroot, Catalog.resolveOutward_eq_findSome?]
    simpa using hhere
  | append_singleton s n ih =>
    obtain ⟨p, -, hp, hparent⟩ := h.parent hi
    rw [Namespaces.resolveOutward_eq_or, hparent, Catalog.resolveOutward_concat]
    exact (h.resolve hi parts).orElse (ih hp)

/-- Looking up a type name by number answers what the catalog answers. -/
theorem lookup (h : Tabulates t scopes c) (ht : t.Inward) (hi : scopes[i]? = some s) (typeName : String) :
    SameAnswer scopes (t.lookup ht i typeName) (c.lookup s typeName) := by
  by_cases hdot : ∃ absolute, typeName.toList = '.' :: absolute
  · obtain ⟨absolute, habsolute⟩ := hdot
    have hroot := h.resolve h.root (segments (String.ofList absolute))
    rw [Catalog.resolveAt_root] at hroot
    rw [Namespaces.lookup, Catalog.lookup, habsolute]
    exact hroot
  · rw [not_exists] at hdot
    rw [Namespaces.lookup_relative ht hdot, Catalog.lookup_relative hdot]
    exact h.resolveOutward ht hi _

/-- A package name leads to the number of the scope that it leads to in the catalog. -/
theorem enter (h : Tabulates t scopes c) (hi : scopes[i]? = some s) (package : String) (j : Nat) :
    t.enter i package = some j ↔ ∃ u, c.enter s package = some u ∧ scopes[j]? = some u := by
  rw [Namespaces.enter, h.walk?_iff hi]
  constructor
  · intro hj
    exact ⟨_, Catalog.enter_eq_some.2 ⟨h.contains hj, rfl⟩, hj⟩
  · rintro ⟨u, hu, hj⟩
    rwa [← (Catalog.enter_eq_some.1 hu).2]

end Tabulates

/-! ## The tree -/

/-- The namespaces are a tree that is told by the parents as well as by the children, and by the
absolute names. -/
structure Hierarchy (t : Namespaces) : Prop where
  root_name : t.name? 0 = some ""
  root_parent : t.parent? 0 = none
  parent_lt : ∀ i, 0 < i → i < t.nodes.length → ∃ p < i, t.parent? i = some p
  child_iff : ∀ p n c, t.child? p n = some c ↔ t.parent? c = some p ∧
    ∃ name, t.name? p = some name ∧ t.name? c = some (name ++ "." ++ n)
  segment : ∀ p n c, t.child? p n = some c → n ≠ "" ∧ '.' ∉ n.toList
  existsUnique_child : ∀ c, 0 < c → c < t.nodes.length → ∃! e : Nat × String, t.child? e.1 e.2 = some c
  name_inj : ∀ i j, i < t.nodes.length → t.name? i = t.name? j → i = j
  child_lt : ∀ p n c, t.child? p n = some c → c < t.nodes.length
  outward : ∀ i < t.nodes.length, ∃ k ≤ i, (fun j : Option Nat => j.bind t.parent?)^[k] (some i) = some 0

namespace Numbers
variable {t : Namespaces} {scopes : List Scope} {i j : Nat} {s : Scope}

theorem exists_scope (h : Numbers t scopes) (hi : i < t.nodes.length) : ∃ s, scopes[i]? = some s := by
  rw [h.length] at hi
  exact ⟨_, List.getElem?_eq_getElem hi⟩

theorem exists_scope_of_name? {name : String} (h : Numbers t scopes) (hi : t.name? i = some name) :
    ∃ s, scopes[i]? = some s ∧ name = s.fullName := by
  obtain ⟨a, ha, -⟩ := Option.map_eq_some_iff.1 hi
  obtain ⟨s, hs⟩ := h.exists_scope (List.getElem?_eq_some_iff.1 ha).1
  exact ⟨s, hs, Option.some.inj (hi.symm.trans (h.name hs))⟩

theorem exists_scope_of_child? {n : String} (h : Numbers t scopes) (hc : t.child? i n = some j) :
    ∃ s, scopes[i]? = some s ∧ scopes[j]? = some (s ++ [n]) := by
  obtain ⟨a, ha, -⟩ := Option.bind_eq_some_iff.1 hc
  obtain ⟨s, hs⟩ := h.exists_scope (List.getElem?_eq_some_iff.1 ha).1
  exact ⟨s, hs, (h.child hs n j).1 hc⟩

/-- Only the outermost scope has no last name. -/
theorem exists_concat (h : Numbers t scopes) (hi : scopes[i]? = some s) (hpos : 0 < i) :
    ∃ u n, s = u ++ [n] := by
  rcases List.eq_nil_or_concat s with rfl | ⟨u, n, rfl⟩
  · exact absurd (h.unique hi h.root) (Nat.ne_of_gt hpos)
  · exact ⟨u, n, List.concat_eq_append⟩

theorem inward (h : Numbers t scopes) : t.Inward := by
  intro i p hparent
  obtain ⟨a, ha, -⟩ := Option.bind_eq_some_iff.1 hparent
  obtain ⟨s, hs⟩ := h.exists_scope (List.getElem?_eq_some_iff.1 ha).1
  have hpos : 0 < i := by
    rcases Nat.eq_zero_or_pos i with rfl | hpos
    · rw [h.parent_root] at hparent
      cases hparent
    · exact hpos
  obtain ⟨u, n, rfl⟩ := h.exists_concat hs hpos
  obtain ⟨q, hlt, -, hq⟩ := h.parent hs
  rwa [Option.some.inj (hparent.symm.trans hq)]

theorem child_iff (h : Numbers t scopes) (p : Nat) (n : String) (c : Nat) :
    t.child? p n = some c ↔ t.parent? c = some p ∧
      ∃ name, t.name? p = some name ∧ t.name? c = some (name ++ "." ++ n) := by
  constructor
  · intro hc
    obtain ⟨s, hp, hc⟩ := h.exists_scope_of_child? hc
    obtain ⟨q, -, hq, hparent⟩ := h.parent hc
    exact ⟨h.unique hp hq ▸ hparent, s.fullName, h.name hp, by rw [h.name hc, Scope.fullName_concat]⟩
  · rintro ⟨hparent, name, hp, hc⟩
    obtain ⟨s, hs, rfl⟩ := h.exists_scope_of_name? hp
    obtain ⟨u, hu, hname⟩ := h.exists_scope_of_name? hc
    obtain ⟨v, m, rfl⟩ := h.exists_concat hu (Nat.zero_lt_of_lt (h.inward c p hparent))
    obtain ⟨q, -, hq, hparent'⟩ := h.parent hu
    obtain rfl := Option.some.inj (hparent'.symm.trans hparent)
    obtain rfl := Option.some.inj (hs.symm.trans hq)
    rw [Scope.fullName_concat, String.append_right_inj] at hname
    rw [h.child hs, hname, hu]

theorem name_inj (h : Numbers t scopes) (hi : i < t.nodes.length) (hij : t.name? i = t.name? j) : i = j := by
  obtain ⟨s, hs⟩ := h.exists_scope hi
  obtain ⟨u, hu, hname⟩ := h.exists_scope_of_name? (hij ▸ h.name hs)
  have hsu : s = u :=
    Scope.fullName_inj (h.plain s (List.mem_of_getElem? hs)) (h.plain u (List.mem_of_getElem? hu)) hname
  exact h.unique hs (hsu ▸ hu)

theorem existsUnique_child (h : Numbers t scopes) (hpos : 0 < i) (hi : i < t.nodes.length) :
    ∃! e : Nat × String, t.child? e.1 e.2 = some i := by
  obtain ⟨s, hs⟩ := h.exists_scope hi
  obtain ⟨u, n, rfl⟩ := h.exists_concat hs hpos
  obtain ⟨p, -, hp, -⟩ := h.parent hs
  refine ⟨(p, n), (h.child hp n i).2 hs, ?_⟩
  rintro ⟨q, m⟩ hq
  obtain ⟨v, hv, hvm⟩ := h.exists_scope_of_child? hq
  obtain ⟨rfl, hnm⟩ := List.append_inj' (Option.some.inj (hs.symm.trans hvm)) rfl
  exact Prod.ext (h.unique hv hp) (List.singleton_inj.1 hnm).symm

theorem outward (h : Numbers t scopes) (hi : scopes[i]? = some s) :
    ∃ k ≤ i, (fun j : Option Nat => j.bind t.parent?)^[k] (some i) = some 0 := by
  induction s using List.reverseRecOn generalizing i with
  | nil => exact ⟨0, Nat.zero_le _, congrArg some (h.unique hi h.root)⟩
  | append_singleton s n ih =>
    obtain ⟨p, hlt, hp, hparent⟩ := h.parent hi
    obtain ⟨k, hk, hroot⟩ := ih hp
    refine ⟨k + 1, Nat.le_trans (Nat.succ_le_succ hk) hlt, ?_⟩
    rw [Function.iterate_succ_apply, Option.bind_some, hparent, hroot]

theorem hierarchy (h : Numbers t scopes) : t.Hierarchy where
  root_name := h.name h.root
  root_parent := h.parent_root
  parent_lt i hpos hi := by
    obtain ⟨s, hs⟩ := h.exists_scope hi
    obtain ⟨u, n, rfl⟩ := h.exists_concat hs hpos
    obtain ⟨p, hlt, -, hparent⟩ := h.parent hs
    exact ⟨p, hlt, hparent⟩
  child_iff := h.child_iff
  segment p n c hc := by
    obtain ⟨s, -, hs⟩ := h.exists_scope_of_child? hc
    exact h.plain _ (List.mem_of_getElem? hs) n (by simp)
  existsUnique_child c := h.existsUnique_child
  name_inj i j := h.name_inj
  child_lt p n c hc := by
    obtain ⟨s, -, hs⟩ := h.exists_scope_of_child? hc
    exact h.lt hs
  outward i hi := by
    obtain ⟨s, hs⟩ := h.exists_scope hi
    exact h.outward hs

end Numbers

theorem inward_ofFilings (l : List (String × Declaration)) : (ofFilings l).Inward := by
  obtain ⟨scopes, h⟩ := exists_tabulates l
  exact h.inward

/-- After any filings the namespaces are a tree, and every number that a filing or a look-up answers is
that of a namespace. They number the scopes of the catalog of the same filings, with the same messages
in them, and a look-up by number answers what the catalog answers by scope. -/
theorem hierarchy_ofFilings (l : List (String × Declaration)) :
    (ofFilings l).Hierarchy ∧
    (∀ before r after, l = before ++ r :: after →
      ((ofFilings before).register r.1 r.2).2 < (ofFilings l).nodes.length) ∧
    (∀ i < (ofFilings l).nodes.length, ∀ name d j,
      ((ofFilings l).enter i name = some j ∨ (ofFilings l).lookup (inward_ofFilings l) i name = some (d, j)) →
        j < (ofFilings l).nodes.length) ∧
    ∃ scopes, (ofFilings l).Tabulates scopes (.ofFilings l) ∧ ∀ i s, scopes[i]? = some s → ∀ name,
      SameAnswer scopes ((ofFilings l).lookup (inward_ofFilings l) i name)
        ((Catalog.ofFilings l).lookup s name) := by
  obtain ⟨scopes, h⟩ := exists_tabulates l
  refine ⟨h.hierarchy, ?_, ?_, scopes, h, fun i s hi => h.lookup _ hi⟩
  · intro before r after hl
    obtain ⟨scopes', h', hr⟩ := exists_tabulates_registered hl
    exact h'.lt hr
  · intro i hi name d j hj
    obtain ⟨s, hs⟩ := h.exists_scope hi
    rcases hj with hj | hj
    · obtain ⟨u, -, hu⟩ := (h.enter hs name j).1 hj
      exact h.lt hu
    · have hfound := h.lookup (inward_ofFilings l) hs name
      rw [hj] at hfound
      rw [h.length]
      exact hfound.lt

end ProtoSchema.Namespaces
