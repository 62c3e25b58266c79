import Mathlib.Data.List.Infix
import Mathlib.Data.List.Nodup
import ProtoSchema.Proofs.Catalog.Hierarchy
/-!
# What filings leave as it was

A filing only adds to the namespaces (`register_only_extends`): those there are keep their numbers, names and
parents, and their children, to which at most one is added. A namespace is made for each part of the package
that led nowhere before, and no message is touched but the one that had the name of the message filed. So a
number, once given, stands for the same namespace whatever is filed later (`Extends`).
-/

namespace ProtoSchema.Namespaces

/-- Every namespace there was is still there, with its number. -/
structure Extends (t t' : Namespaces) : Prop where
  length_le : t.nodes.length ≤ t'.nodes.length
  name : ∀ i < t.nodes.length, t'.name? i = t.name? i
  parent : ∀ i < t.nodes.length, t'.parent? i = t.parent? i
  child : ∀ i n c, t.child? i n = some c → t'.child? i n = some c

/-- How many parts of a package name lead nowhere from the outermost namespace. -/
def missing (t : Namespaces) (package : String) : Nat :=
  (Scope.ofPackage package).inits.countP fun s => (t.walk? 0 s).isNone

/-- What filing a message under a package, in number `i`, makes of the namespaces. -/
structure Filed (t : Namespaces) (package : String) (d : Declaration) (t' : Namespaces) (i : Nat) : Prop where
  extension : t.Extends t'
  length : t'.nodes.length = t.nodes.length + t.missing package
  gains : ∀ j n n', t.child? j n = none → (t'.child? j n).isSome = true →
    t.child? j n' = none → (t'.child? j n').isSome = true → n = n'
  type : ∀ j n, t'.type? j n = if j = i ∧ n = d.message.name then some d else t.type? j n

theorem Extends.walk {t t' : Namespaces} (h : t.Extends t') {i j : Nat} {s : Scope} (hw : t.walk? i s = some j) :
    t'.walk? i s = some j := by
  induction s generalizing i with
  | nil => exact hw
  | cons n s ih =>
    rw [walk?, List.foldlM_cons, Option.bind_eq_bind, Option.bind_eq_some_iff] at hw ⊢
    obtain ⟨c, hc, hw⟩ := hw
    exact ⟨c, h.child i n c hc, ih hw⟩

variable {t t' : Namespaces} {scopes more : List Scope} {c : Catalog} {i : Nat} {s : Scope} {n : String}
  {package : String} {d : Declaration}

theorem length_declare : (t.declare i d).nodes.length = t.nodes.length := List.length_modify _ _ _

namespace Numbers

/-- More scopes with numbers leave those that there were as they are. -/
theorem extension (h : Numbers t scopes) (h' : Numbers t' (scopes ++ more)) : t.Extends t' where
  length_le := by
    rw [h.length, h'.length, List.length_append]
    exact Nat.le_add_right _ _
  name i hi := by
    obtain ⟨s, hs⟩ := h.exists_scope hi
    rw [h.name hs, h'.name (getElem?_append_of_some hs)]
  parent i hi := by
    obtain ⟨s, hs⟩ := h.exists_scope hi
    rcases Nat.eq_zero_or_pos i with rfl | hpos
    · rw [h.parent_root, h'.parent_root]
    · obtain ⟨u, n, rfl⟩ := h.exists_concat hs hpos
      obtain ⟨p, -, hp, hparent⟩ := h.parent hs
      obtain ⟨p', -, hp', hparent'⟩ := h'.parent (getElem?_append_of_some hs)
      rw [hparent, hparent', h'.unique hp' (getElem?_append_of_some hp)]
  child i n c hc := by
    obtain ⟨s, hi, hs⟩ := h.exists_scope_of_child? hc
    exact (h'.child (getElem?_append_of_some hi) n c).2 (getElem?_append_of_some hs)

theorem walk?_isNone (h : Numbers t scopes) : (t.walk? 0 s).isNone = true ↔ s ∉ scopes := by
  rw [← Option.not_isSome, Bool.not_eq_true', ← Bool.not_eq_true, not_iff_not, Option.isSome_iff_exists,
    List.mem_iff_getElem?]
  exact exists_congr fun j => h.walk?_iff h.root

/-- A child that is new stands for a scope that had no number. -/
theorem not_mem_of_new (h : Numbers t scopes) (h' : Numbers t' (scopes ++ more)) (hi : (scopes ++ more)[i]? = some s)
    (hnew : t.child? i n = none) : s ++ [n] ∉ scopes := by
  intro hs
  obtain ⟨j, hj⟩ := List.mem_iff_getElem?.1 hs
  obtain ⟨p, -, hp, -⟩ := h.parent hj
  have hchild := (h.child hp n j).2 hj
  rw [h'.unique (getElem?_append_of_some hp) hi, hnew] at hchild
  cases hchild

end Numbers

theorem nodup_inits {α : Type} (l : List α) : l.inits.Nodup := by
  induction l with
  | nil => exact List.nodup_singleton _
  | cons a l ih =>
    rw [List.inits_cons, List.nodup_cons]
    exact ⟨by simp, ih.map (List.cons_injective)⟩

namespace Tabulates

/-- One filing gives numbers to the scopes on the way to the package that had none. -/
theorem mem_more (h : Tabulates t scopes c) (h' : Tabulates t' (scopes ++ more) (c.insert package d)) :
    s ∈ more ↔ s <+: Scope.ofPackage package ∧ s ∉ scopes := by
  have hknown := h'.known s
  rw [Catalog.contains_insert, List.mem_append, ← h.known] at hknown
  have hdisjoint : s ∈ more → s ∉ scopes := fun hm hs => (List.nodup_append'.1 h'.nodup).2.2 hs hm
  grind

theorem length_more (h : Tabulates t scopes c) (h' : Tabulates t' (scopes ++ more) (c.insert package d)) :
    more.length = t.missing package := by
  rw [missing, List.countP_eq_length_filter]
  refine List.Perm.length_eq ((List.perm_ext_iff_of_nodup (List.nodup_append'.1 h'.nodup).2.1
    ((nodup_inits _).filter _)).2 fun s => ?_)
  rw [h.mem_more h', List.mem_filter, List.mem_inits, h.walk?_isNone]

/-- A child that is new is on the way to the package. -/
theorem prefix_of_new (h : Tabulates t scopes c) (h' : Tabulates t' (scopes ++ more) (c.insert package d))
    (hi : (scopes ++ more)[i]? = some s) (hn : t.child? i n = none) (hn' : (t'.child? i n).isSome = true) :
    s ++ [n] <+: Scope.ofPackage package := by
  obtain ⟨k, hk⟩ := Option.isSome_iff_exists.1 hn'
  have hmem := List.mem_of_getElem? ((h'.child hi n k).1 hk)
  have hnew := h.not_mem_of_new h'.toNumbers hi hn
  exact ((h.mem_more h').1 ((List.mem_append.1 hmem).resolve_left hnew)).1

theorem filed (h : Tabulates t scopes c) (package : String) (d : Declaration) :
    ∃ more, Tabulates (t.register package d).1 (scopes ++ more) (c.insert package d) ∧
      t.Filed package d (t.register package d).1 (t.register package d).2 := by
  obtain ⟨more, h', hnumber⟩ := h.register package d
  refine ⟨more, h', h.extension h'.toNumbers, ?_, fun j n n' hn hn' hm hm' => ?_, fun j n => ?_⟩
  · rw [h.length, h'.length, List.length_append, h.length_more h']
  · obtain ⟨k, hk⟩ := Option.isSome_iff_exists.1 hn'
    obtain ⟨s, hs, -⟩ := h'.exists_scope_of_child? hk
    have hprefix := h.prefix_of_new h' hs hn hn'
    have hprefix' := h.prefix_of_new h' hs hm hm'
    -- Of one length there is one prefix.
    have heq := (List.prefix_of_prefix_length_le hprefix hprefix' (by simp)).eq_of_length (by simp)
    exact List.singleton_inj.1 (List.append_cancel_left heq)
  · have hlt : (t.reach 0 (.ofPackage package)).2 < (t.reach 0 (.ofPackage package)).1.nodes.length := by
      have hlt' := h'.lt hnumber
      rwa [Namespaces.register, length_declare] at hlt'
    show ((t.reach 0 (.ofPackage package)).1.declare _ d).type? j n = _
    rw [type?_declare _ _ _ _ hlt, type?_reach]
    rfl

end Tabulates

/-- A filing only extends the namespaces. Each keeps its number, its name, its parent and its children, and gains
at most one child; there are as many new ones as parts of the package led nowhere; and the only message that
changes is the one under the name of the message filed, in the namespace that the filing answers. So numbers
given early stand for the same namespaces after all later filings, and package names that led to them still do. -/
theorem register_only_extends (l : List (String × Declaration)) (package : String) (d : Declaration) :
    (ofFilings l).Filed package d ((ofFilings l).register package d).1 ((ofFilings l).register package d).2 ∧
    (∀ more, (ofFilings l).Extends (ofFilings (l ++ more)) ∧ ∀ i package j,
      (ofFilings l).enter i package = some j → (ofFilings (l ++ more)).enter i package = some j) ∧
    ∃ scopes more, Tabulates (ofFilings l) scopes (.ofFilings l) ∧
      Tabulates ((ofFilings l).register package d).1 (scopes ++ more) ((Catalog.ofFilings l).insert package d) := by
  obtain ⟨scopes, h⟩ := exists_tabulates l
  obtain ⟨more, h', hfiled⟩ := h.filed package d
  refine ⟨hfiled, fun later => ?_, scopes, more, h, h'⟩
  obtain ⟨rest, hlater⟩ := h.registerAll later
  have hextends : (ofFilings l).Extends (ofFilings (l ++ later)) := by
    rw [ofFilings, ofFilings, List.foldl_append]
    exact h.extension hlater.toNumbers
  exact ⟨hextends, fun _ _ _ => hextends.walk⟩

end ProtoSchema.Namespaces
