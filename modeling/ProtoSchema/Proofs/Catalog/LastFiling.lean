import ProtoSchema.Proofs.Catalog.FileSet
import ProtoSchema.Proofs.Catalog.Hierarchy
/-!
# The last filing counts

A catalog is a map whose keys are the names in a package together with the name of a
message, and the last message filed under a key is what stands there
(`last_filing_counts`). The packages that lead somewhere are those of the filings and
those around them, and packages that differ in empty parts only lead to one namespace.
-/

namespace ProtoSchema

/-- The last message filed under a name in a scope. -/
def lastFiled (l : List (String × Declaration)) (s : Scope) (name : String) : Option Declaration :=
  ((l.filter fun r => Scope.ofPackage r.1 = s ∧ r.2.message.name = name).getLast?).map (·.2)

theorem Catalog.type?_eq_lastFiled (l : List (String × Declaration)) (s : Scope) (name : String) :
    (Catalog.ofFilings l).type? s name = lastFiled l s name := by
  rw [type?_ofFilings, lastFiled]
  simp only [eq_comm]

theorem Catalog.isSome_enter (c : Catalog) (package : String) :
    (c.enter [] package).isSome = c.contains (.ofPackage package) := by
  simp only [enter, List.nil_append]
  split <;> simp_all

theorem enter_of_messages {files : List File} {f : File} (hf : f ∈ files) (hm : f.messages ≠ []) :
    (Catalog.ofFiles files).enter [] f.packageName = some f.scope := by
  obtain ⟨i, hi⟩ := List.mem_iff_getElem?.1 hf
  obtain ⟨m, rest, hcons⟩ := List.exists_cons_of_ne_nil hm
  exact enter_ofFiles hi (show f.messages[0]? = some m by rw [hcons]; rfl)

namespace Namespaces

variable {t : Namespaces} {scopes : List Scope} {c : Catalog} {package : String} {i : Nat}

theorem Tabulates.enter_iff (h : Tabulates t scopes c) :
    t.enter 0 package = some i ↔ scopes[i]? = some (.ofPackage package) :=
  h.walk?_iff h.root

theorem Tabulates.isSome_enter (h : Tabulates t scopes c) :
    (t.enter 0 package).isSome = c.contains (.ofPackage package) := by
  rw [Bool.eq_iff_iff, Option.isSome_iff_exists, ← h.known, List.mem_iff_getElem?]
  exact exists_congr fun i => h.enter_iff

/-- Messages filed one after the other make a map. A package leads to a namespace if its names are those
of a filing's package or of one around it; packages lead to the same namespace if they have the same
names; and in that namespace stands, under each name, the last message filed there. Each filing has
answered the namespace that its package leads to in the end, so a file with messages is always
converted in the scope of its package. -/
theorem last_filing_counts (l : List (String × Declaration)) (package : String) :
    (((ofFilings l).enter 0 package).isSome = true ↔
      Scope.ofPackage package = [] ∨ ∃ r ∈ l, Scope.ofPackage package <+: Scope.ofPackage r.1) ∧
    ((Catalog.ofFilings l).enter [] package).isSome = ((ofFilings l).enter 0 package).isSome ∧
    (∀ i, (ofFilings l).enter 0 package = some i →
      (∀ other, (ofFilings l).enter 0 other = some i ↔ Scope.ofPackage other = Scope.ofPackage package) ∧
      (∀ name, (ofFilings l).type? i name = lastFiled l (.ofPackage package) name) ∧
      (Catalog.ofFilings l).enter [] package = some (.ofPackage package) ∧
      ∀ name, (Catalog.ofFilings l).type? (.ofPackage package) name = lastFiled l (.ofPackage package) name) ∧
    (∀ before r after, l = before ++ r :: after →
      (ofFilings l).enter 0 r.1 = some ((ofFilings before).register r.1 r.2).2) ∧
    ∀ files : List File, ∀ f ∈ files, f.messages ≠ [] →
      (Catalog.ofFiles files).enter [] f.packageName = some f.scope := by
  obtain ⟨scopes, h⟩ := exists_tabulates l
  refine ⟨?_, ?_, fun i hi => ?_, ?_, fun files f hf hm => enter_of_messages hf hm⟩
  · rw [h.isSome_enter, Catalog.contains_ofFilings]
  · rw [h.isSome_enter, Catalog.isSome_enter]
  · rw [h.enter_iff] at hi
    refine ⟨fun other => ?_, fun name => ?_, ?_, Catalog.type?_eq_lastFiled l _⟩
    · rw [h.enter_iff, hi, Option.some.injEq, eq_comm]
    · rw [h.type hi, Catalog.type?_eq_lastFiled]
    · exact Catalog.enter_eq_some.2 ⟨h.contains hi, rfl⟩
  · intro before r after hl
    obtain ⟨scopes', h', hr⟩ := exists_tabulates_registered hl
    exact h'.enter_iff.2 hr

end Namespaces
end ProtoSchema
