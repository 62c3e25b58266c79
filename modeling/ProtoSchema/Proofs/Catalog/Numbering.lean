import Mathlib.Data.List.Induction
import Mathlib.Data.List.Nodup
import ProtoSchema.Proofs.Catalog.DottedNames
import ProtoSchema.Proofs.Catalog.Filing
import ProtoSchema.Proofs.Catalog.Namespaces
/-!
# The scopes that numbers stand for

`Numbers` says which scope each number stands for: making a namespace gives one more
scope a number (`Numbers.addChild`), and one filing keeps the numbers there are and
adds those of the scopes on the way to its package (`Tabulates.register`). So after
any filings the table says of each scope what the catalog says (`exists_tabulates`).
-/

namespace ProtoSchema.Namespaces

theorem getElem?_concat {α : Type} {l : List α} {a b : α} {j : Nat} :
    (l ++ [a])[j]? = some b ↔ l[j]? = some b ∨ j = l.length ∧ a = b := by
  rcases Nat.lt_trichotomy j l.length with h | rfl | h
  · simp [List.getElem?_append_left h, Nat.ne_of_lt h]
  · simp
  · rw [List.getElem?_eq_none (by rw [List.length_append]; exact h), List.getElem?_eq_none (Nat.le_of_lt h)]
    simp [Nat.ne_of_gt h]

/-- What a list has at a position, it still has with more after it. -/
theorem getElem?_append_of_some {α : Type} {l m : List α} {i : Nat} {a : α} (h : l[i]? = some a) :
    (l ++ m)[i]? = some a := by
  rw [List.getElem?_append_left (List.getElem?_eq_some_iff.1 h).1, h]

theorem getElem?_outermost {i : Nat} {s : Scope} : ([[]] : List Scope)[i]? = some s ↔ i = 0 ∧ s = [] := by
  simp [List.getElem?_singleton, eq_comm]

/-- Number `i` stands for the scope at position `i` of a list without repetitions. -/
structure Numbers (t : Namespaces) (scopes : List Scope) : Prop where
  length : t.nodes.length = scopes.length
  nodup : scopes.Nodup
  plain : ∀ s ∈ scopes, s.Plain
  root : scopes[0]? = some []
  parent_root : t.parent? 0 = none
  name : ∀ {i s}, scopes[i]? = some s → t.name? i = some s.fullName
  parent : ∀ {i s n}, scopes[i]? = some (s ++ [n]) → ∃ p < i, scopes[p]? = some s ∧ t.parent? i = some p
  child : ∀ {i s}, scopes[i]? = some s → ∀ n c, t.child? i n = some c ↔ scopes[c]? = some (s ++ [n])

namespace Numbers
variable {t : Namespaces} {scopes : List Scope} {i j : Nat} {s u : Scope} {n : String} {d : Declaration}

theorem unique (h : Numbers t scopes) (hi : scopes[i]? = some s) (hj : scopes[j]? = some s) : i = j := by
  obtain ⟨hlt, -⟩ := List.getElem?_eq_some_iff.1 hi
  exact (List.getElem?_inj hlt h.nodup).1 (hi.trans hj.symm)

theorem lt (h : Numbers t scopes) (hi : scopes[i]? = some s) : i < t.nodes.length := by
  rw [h.length]
  exact (List.getElem?_eq_some_iff.1 hi).1

theorem empty : Numbers empty [[]] where
  length := rfl
  nodup := List.nodup_singleton _
  plain := by simp [Scope.Plain]
  root := rfl
  parent_root := rfl
  name := by
    intro i s hi
    obtain ⟨rfl, rfl⟩ := getElem?_outermost.1 hi
    rfl
  parent := by
    intro i s n hi
    simp [getElem?_outermost] at hi
  child := by
    intro i s hi n c
    obtain ⟨rfl, rfl⟩ := getElem?_outermost.1 hi
    simp [getElem?_outermost, child?, Namespaces.empty]

theorem mem_of_mem_concat (h : Numbers t scopes) (hs : s ++ [n] ∈ scopes) : s ∈ scopes := by
  obtain ⟨i, hi⟩ := List.mem_iff_getElem?.1 hs
  obtain ⟨p, -, hp, -⟩ := h.parent hi
  exact List.mem_of_getElem? hp

theorem child_addChild {c : Nat} {m : String} (h : Numbers t scopes) (hi : scopes[i]? = some s)
    (hnew : s ++ [n] ∉ scopes) (hj : (scopes ++ [s ++ [n]])[j]? = some u) :
    (t.addChild i n).child? j m = some c ↔ (scopes ++ [s ++ [n]])[c]? = some (u ++ [m]) := by
  rw [child?_addChild _ _ _ _ (h.lt hi), getElem?_concat, h.length]
  rcases getElem?_concat.1 hj with ho | ⟨rfl, rfl⟩
  · by_cases hjm : j = i ∧ m = n
    · -- The child that is made here.
      obtain ⟨rfl, rfl⟩ := hjm
      obtain rfl := Option.some.inj (hi.symm.trans ho)
      have hold : scopes[c]? ≠ some (s ++ [m]) := fun hc => hnew (List.mem_of_getElem? hc)
      simp [hold, eq_comm]
    · have hother : s ++ [n] ≠ u ++ [m] := by
        intro heq
        obtain ⟨rfl, hnm⟩ := List.append_inj' heq rfl
        exact hjm ⟨h.unique ho hi, by simpa using hnm.symm⟩
      simp only [if_neg hjm, hother, and_false, or_false, h.child ho]
  · -- Nothing is inside a namespace that was not there before.
    have hi' : scopes.length ≠ i := Nat.ne_of_gt (h.length ▸ h.lt hi)
    have hnone : t.child? scopes.length m = none := by
      rw [child?, List.getElem?_eq_none (Nat.le_of_eq h.length)]
      rfl
    have hold : scopes[c]? ≠ some (s ++ [n] ++ [m]) := fun hc =>
      hnew (h.mem_of_mem_concat (List.mem_of_getElem? hc))
    simpa [hi', hnone] using hold

theorem addChild (h : Numbers t scopes) (hi : scopes[i]? = some s) (hn : n ≠ "" ∧ '.' ∉ n.toList)
    (hnew : s ++ [n] ∉ scopes) : Numbers (t.addChild i n) (scopes ++ [s ++ [n]]) where
  length := by simp [Namespaces.addChild, h.length]
  nodup := h.nodup.append (List.nodup_singleton _) (by simpa using hnew)
  plain := by
    intro u hu
    rcases List.mem_append.1 hu with hu | hu
    · exact h.plain u hu
    · rw [List.mem_singleton.1 hu]
      exact (h.plain s (List.mem_of_getElem? hi)).concat hn
  root := getElem?_concat.2 (.inl h.root)
  parent_root := by
    rw [parent?_addChild, if_neg (Nat.ne_of_lt (h.lt h.root)), h.parent_root]
  name := by
    intro j u hj
    rw [name?_addChild]
    rcases getElem?_concat.1 hj with ho | ⟨rfl, rfl⟩
    · rw [if_neg (Nat.ne_of_lt (h.lt ho)), h.name ho]
    · rw [if_pos h.length.symm, h.name hi, Scope.fullName_concat]
      rfl
  parent := by
    intro j u m hj
    rw [parent?_addChild]
    rcases getElem?_concat.1 hj with ho | ⟨rfl, heq⟩
    · obtain ⟨p, hlt, hp, hparent⟩ := h.parent ho
      exact ⟨p, hlt, getElem?_concat.2 (.inl hp), by rw [if_neg (Nat.ne_of_lt (h.lt ho)), hparent]⟩
    · obtain ⟨rfl, -⟩ := List.append_inj' heq rfl
      exact ⟨i, h.length ▸ h.lt hi, getElem?_concat.2 (.inl hi), if_pos h.length.symm⟩
  child hj m c := h.child_addChild hi hnew hj

theorem declare (h : Numbers t scopes) (i : Nat) (d : Declaration) : Numbers (t.declare i d) scopes where
  length := by simp [Namespaces.declare, h.length]
  nodup := h.nodup
  plain := h.plain
  root := h.root
  parent_root := by rw [parent?_declare, h.parent_root]
  name hj := by rw [name?_declare, h.name hj]
  parent hj := by simpa only [parent?_declare] using h.parent hj
  child hj := by simpa only [child?_declare] using h.child hj

theorem mem_of_prefix (h : Numbers t scopes) (hs : s ∈ scopes) (hu : u <+: s) : u ∈ scopes := by
  obtain ⟨rest, rfl⟩ := hu
  induction rest using List.reverseRecOn with
  | nil => simpa using hs
  | append_singleton rest n ih =>
    rw [← List.append_assoc] at hs
    exact ih (h.mem_of_mem_concat hs)

/-- What is reached is the scope of the names, and only scopes on the way get numbers. -/
theorem reach {rest : Scope} (h : Numbers t scopes) (hi : scopes[i]? = some s) (hrest : rest.Plain) :
    ∃ more, Numbers (t.reach i rest).1 (scopes ++ more) ∧
      (scopes ++ more)[(t.reach i rest).2]? = some (s ++ rest) ∧ ∀ u ∈ more, u <+: s ++ rest := by
  induction rest generalizing t scopes i s with
  | nil => exact ⟨[], by simpa [Namespaces.reach] using h, by simpa [Namespaces.reach] using hi, by simp⟩
  | cons n rest ih =>
    have hplain : Scope.Plain rest := fun m hm => hrest m (.tail _ hm)
    rw [Namespaces.reach, List.append_cons]
    cases hc : t.child? i n with
    | some c => exact ih h ((h.child hi n c).1 hc) hplain
    | none =>
      have hnew : s ++ [n] ∉ scopes := by
        intro hs
        obtain ⟨c, hc'⟩ := List.mem_iff_getElem?.1 hs
        rw [(h.child hi n c).2 hc'] at hc
        cases hc
      have hmade : (scopes ++ [s ++ [n]])[t.nodes.length]? = some (s ++ [n]) :=
        getElem?_concat.2 (.inr ⟨h.length, rfl⟩)
      obtain ⟨more, hnumbers, hreached, hway⟩ := ih (h.addChild hi (hrest n (.head _)) hnew) hmade hplain
      refine ⟨(s ++ [n]) :: more, ?_, ?_, ?_⟩
      · rwa [List.append_cons]
      · rwa [List.append_cons]
      · intro u hu
        rcases List.mem_cons.1 hu with rfl | hu
        · exact List.prefix_append _ _
        · exact hway u hu

/-- Names lead from a namespace to the one whose scope they make. -/
theorem walk?_iff (h : Numbers t scopes) (hi : scopes[i]? = some s) :
    t.walk? i u = some j ↔ scopes[j]? = some (s ++ u) := by
  -- From the last name, because a namespace knows what is directly inside it.
  induction u using List.reverseRecOn generalizing j with
  | nil =>
    rw [List.append_nil]
    refine ⟨fun hw => ?_, fun hj => ?_⟩
    · obtain rfl := Option.some.inj hw
      exact hi
    · rw [h.unique hi hj]
      rfl
  | append_singleton u n ih =>
    have hlast : t.walk? i (u ++ [n]) = (t.walk? i u).bind (t.child? · n) := by
      simp [walk?, List.foldlM_append]
    rw [hlast, Option.bind_eq_some_iff, ← List.append_assoc]
    constructor
    · rintro ⟨k, hk, hj⟩
      exact (h.child (ih.1 hk) n j).1 hj
    · intro hj
      obtain ⟨p, -, hp, -⟩ := h.parent hj
      exact ⟨p, ih.2 hp, (h.child hp n j).2 hj⟩

end Numbers

/-! ## The table of a catalog -/

/-- The table numbers the scopes that the catalog knows, and has the same messages in them. -/
structure Tabulates (t : Namespaces) (scopes : List Scope) (c : Catalog) : Prop extends Numbers t scopes where
  known : ∀ s, s ∈ scopes ↔ c.contains s = true
  type : ∀ {i s}, scopes[i]? = some s → ∀ name, t.type? i name = c.type? s name

namespace Tabulates
variable {t : Namespaces} {scopes : List Scope} {c : Catalog}

theorem empty : Tabulates empty [[]] .empty where
  toNumbers := .empty
  known s := by rw [List.mem_singleton, Catalog.contains_empty]
  type := by
    intro i s hi name
    obtain ⟨rfl, rfl⟩ := getElem?_outermost.1 hi
    rfl

/-- Nothing stands in a scope that has no number yet. -/
theorem type_append {more : List Scope} {j : Nat} {s : Scope} (h : Tabulates t scopes c)
    (hnodup : (scopes ++ more).Nodup) (hj : (scopes ++ more)[j]? = some s) (name : String) :
    t.type? j name = c.type? s name := by
  rcases Nat.lt_or_ge j scopes.length with hlt | hle
  · rw [List.getElem?_append_left hlt] at hj
    exact h.type hj name
  · rw [List.getElem?_append_right hle] at hj
    have hs : s ∉ scopes := fun hm => (List.nodup_append'.1 hnodup).2.2 hm (List.mem_of_getElem? hj)
    rw [h.known, Bool.not_eq_true] at hs
    rw [Namespaces.type?, List.getElem?_eq_none (by rwa [h.length]), Catalog.type?_of_not_contains hs]
    rfl

/-- One filing keeps the numbers given before, and answers that of its package. -/
theorem register (h : Tabulates t scopes c) (package : String) (d : Declaration) :
    ∃ more, Tabulates (t.register package d).1 (scopes ++ more) (c.insert package d) ∧
      (scopes ++ more)[(t.register package d).2]? = some (.ofPackage package) := by
  obtain ⟨more, hnumbers, hreached, hway⟩ := h.reach h.root (Scope.plain_ofPackage package)
  rw [List.nil_append] at hreached hway
  refine ⟨more, ⟨hnumbers.declare _ d, fun s => ?_, fun {j s} hj name => ?_⟩, hreached⟩
  · rw [Catalog.contains_insert, List.mem_append, h.known]
    refine or_congr_right' fun hs => ⟨hway s, fun hp => ?_⟩
    have hm := hnumbers.mem_of_prefix (List.mem_of_getElem? hreached) hp
    exact (List.mem_append.1 hm).resolve_left fun hm => hs ((h.known s).1 hm)
  · have hhere : j = (t.reach 0 (.ofPackage package)).2 ↔ s = .ofPackage package := by
      constructor
      · rintro rfl
        exact Option.some.inj (hj.symm.trans hreached)
      · rintro rfl
        exact hnumbers.unique hj hreached
    show ((t.reach 0 (.ofPackage package)).1.declare _ d).type? j name = _
    rw [type?_declare _ _ _ _ (hnumbers.lt hreached), Catalog.type?_insert, type?_reach,
      h.type_append hnumbers.nodup hj]
    simp only [hhere]

/-- Any number of filings keep the numbers given before. -/
theorem registerAll (h : Tabulates t scopes c) (l : List (String × Declaration)) :
    ∃ more, Tabulates (l.foldl (fun t r => (t.register r.1 r.2).1) t) (scopes ++ more)
      (l.foldl (fun c r => c.insert r.1 r.2) c) := by
  induction l generalizing t scopes c with
  | nil => exact ⟨[], by simpa using h⟩
  | cons r l ih =>
    obtain ⟨first, hfirst, -⟩ := h.register r.1 r.2
    obtain ⟨more, hmore⟩ := ih hfirst
    exact ⟨first ++ more, by simpa using hmore⟩

end Tabulates

theorem exists_tabulates (l : List (String × Declaration)) :
    ∃ scopes, Tabulates (ofFilings l) scopes (.ofFilings l) := by
  obtain ⟨more, h⟩ := Tabulates.empty.registerAll l
  exact ⟨_, h⟩

/-- The number that a filing answers stands for its package, also after more filings. -/
theorem exists_tabulates_registered {l before after : List (String × Declaration)}
    {r : String × Declaration} (hl : l = before ++ r :: after) :
    ∃ scopes, Tabulates (ofFilings l) scopes (.ofFilings l) ∧
      scopes[((ofFilings before).register r.1 r.2).2]? = some (.ofPackage r.1) := by
  subst hl
  obtain ⟨scopes, h⟩ := exists_tabulates before
  obtain ⟨more, hr, hnumber⟩ := h.register r.1 r.2
  obtain ⟨rest, hafter⟩ := hr.registerAll after
  refine ⟨scopes ++ more ++ rest, ?_, ?_⟩
  · simpa [ofFilings, Catalog.ofFilings] using hafter
  · exact getElem?_append_of_some hnumber

end ProtoSchema.Namespaces
