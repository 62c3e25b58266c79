import ProtoSchema.Generation
import ProtoSchema.Proofs.Catalog.Filing
/-!
# The messages of a file set

`definitionsOf` lists every message that the files of a set declare, nested ones
at any depth included, with the scope of its file's package and the names that
lead to it; `definitions_induction` proves something about all of them. A place
belongs to one definition only (`eq_of_place_eq`), and whatever a look-up finds
in the catalog of the set is declared in it, in the scope that the look-up
answers (`declared_of_lookup`).
-/

namespace ProtoSchema

/-- A declared message: the scope of its file's package, the names of the messages around it with
its own at the end, and the declaration itself. -/
structure Definition where
  scope : Scope
  names : List String
  declaration : Declaration

namespace Definition

def place (e : Definition) : Place := e.declaration.place

def message (e : Definition) : Message := e.declaration.message

/-- The parts of the absolute name. -/
def parts (e : Definition) : List String := e.scope ++ e.names

/-- The definition of a message nested at position `k`. -/
def inside (e : Definition) (k : Nat) (m : Message) : Definition :=
  ⟨e.scope, e.names ++ [m.name], ⟨e.place ++ [k], m⟩⟩

end Definition

mutual

/-- A message inside the messages named `outer`, and all that are nested in it. -/
def Message.definitions (scope : Scope) (outer : List String) (place : Place) : Message → List Definition
  | m@⟨name, _, nested, _, _, _⟩ =>
    ⟨scope, outer ++ [name], ⟨place, m⟩⟩ :: Message.definitionsFrom scope (outer ++ [name]) place 0 nested

def Message.definitionsFrom (scope : Scope) (outer : List String) (place : Place) (i : Nat) :
    List Message → List Definition
  | [] => []
  | m :: rest =>
    m.definitions scope outer (place ++ [i]) ++ Message.definitionsFrom scope outer place (i + 1) rest

end

/-- The scope that the messages of a file are declared in. -/
def File.scope (f : File) : Scope := .ofPackage f.packageName

def File.definitions (f : File) (i : Nat) : List Definition :=
  Message.definitionsFrom f.scope [] [i] 0 f.messages

def definitionsOf (files : List File) : List Definition := files.zipIdx.flatMap fun e => e.1.definitions e.2

/-- The definition of the top-level message at position `j` of the file at position `i`. -/
def File.definition (f : File) (i j : Nat) (m : Message) : Definition := ⟨f.scope, [m.name], ⟨[i, j], m⟩⟩

/-- The definitions of the messages nested in one. -/
def Definition.within (e : Definition) : List Definition :=
  Message.definitionsFrom e.scope e.names e.place 0 e.message.nested

/-! ## Induction over the definitions -/

theorem Message.definitions_eq (scope : Scope) (outer : List String) (place : Place) (m : Message) :
    m.definitions scope outer place =
      ⟨scope, outer ++ [m.name], ⟨place, m⟩⟩ ::
        (⟨scope, outer ++ [m.name], ⟨place, m⟩⟩ : Definition).within := by
  obtain ⟨_, _, _, _, _, _⟩ := m
  simp [definitions, Definition.within, Definition.place, Definition.message]

theorem Message.mem_definitionsFrom {scope : Scope} {outer : List String} {place : Place} {e : Definition}
    {ms : List Message} {i : Nat} : e ∈ Message.definitionsFrom scope outer place i ms ↔
      ∃ (k : Nat) (m : Message), ms[k]? = some m ∧ e ∈ m.definitions scope outer (place ++ [i + k]) := by
  induction ms generalizing i with
  | nil => simp [definitionsFrom]
  | cons m ms ih =>
    rw [definitionsFrom, List.mem_append, ih]
    constructor
    · rintro (h | ⟨k, m', hk, h⟩)
      · exact ⟨0, m, rfl, h⟩
      · exact ⟨k + 1, m', hk, by rwa [← Nat.add_assoc, Nat.add_right_comm]⟩
    · rintro ⟨k, m', hk, h⟩
      cases k with
      | zero =>
        obtain rfl := Option.some.inj hk
        exact .inl h
      | succ k => exact .inr ⟨k, m', hk, by rwa [Nat.add_right_comm, Nat.add_assoc]⟩

theorem Message.definitions_induction {P : Definition → Prop}
    (inside : ∀ e, P e → ∀ k m, e.message.nested[k]? = some m → P (e.inside k m))
    (scope : Scope) (outer : List String) (place : Place) (m : Message)
    (h : P ⟨scope, outer ++ [m.name], ⟨place, m⟩⟩) : ∀ e ∈ m.definitions scope outer place, P e := by
  intro e he
  rw [definitions_eq, List.mem_cons] at he
  rcases he with rfl | he
  · exact h
  · obtain ⟨k, n, hk, he⟩ := mem_definitionsFrom.1 he
    -- The nested message is smaller, and its definition is the one inside.
    have hn : sizeOf n < sizeOf m := by
      have := List.sizeOf_lt_of_mem (List.mem_of_getElem? hk)
      obtain ⟨_, _, _, _, _, _⟩ := m
      simp only [Definition.message, Message.mk.sizeOf_spec] at *
      omega
    refine definitions_induction inside scope (outer ++ [m.name]) (place ++ [0 + k]) n ?_ e he
    rw [Nat.zero_add]
    exact inside _ h k n hk
termination_by sizeOf m

theorem Message.within_subset {scope : Scope} {outer : List String} {place : Place} {m : Message} :
    ∀ e ∈ m.definitions scope outer place, e.within ⊆ m.definitions scope outer place := by
  apply definitions_induction
  · intro e ih k n hk x hx
    refine ih (mem_definitionsFrom.2 ⟨k, n, hk, ?_⟩)
    rw [Nat.zero_add, definitions_eq]
    exact .tail _ hx
  · rw [definitions_eq]
    exact List.subset_cons_self _ _

theorem Definition.inside_mem_within {e : Definition} {k : Nat} {m : Message}
    (h : e.message.nested[k]? = some m) : e.inside k m ∈ e.within := by
  refine Message.mem_definitionsFrom.2 ⟨k, m, h, ?_⟩
  rw [Nat.zero_add, Message.definitions_eq]
  exact .head _

variable {files : List File}

theorem mem_definitionsOf {e : Definition} : e ∈ definitionsOf files ↔
    ∃ (i : Nat) (f : File) (j : Nat) (m : Message),
      files[i]? = some f ∧ f.messages[j]? = some m ∧ e ∈ m.definitions f.scope [] [i, j] := by
  simp only [definitionsOf, List.mem_flatMap, File.definitions, Message.mem_definitionsFrom, Prod.exists,
    List.mem_zipIdx_iff_getElem?, Nat.zero_add, List.cons_append, List.nil_append]
  constructor
  · rintro ⟨f, i, hf, j, m, hm, he⟩
    exact ⟨i, f, j, m, hf, hm, he⟩
  · rintro ⟨i, f, j, m, hf, hm, he⟩
    exact ⟨f, i, hf, j, m, hm, he⟩

theorem definition_mem {f : File} {i j : Nat} {m : Message} (hf : files[i]? = some f)
    (hm : f.messages[j]? = some m) : f.definition i j m ∈ definitionsOf files := by
  refine mem_definitionsOf.2 ⟨i, f, j, m, hf, hm, ?_⟩
  rw [Message.definitions_eq]
  exact .head _

theorem inside_mem {e : Definition} {k : Nat} {m : Message} (he : e ∈ definitionsOf files)
    (h : e.message.nested[k]? = some m) : e.inside k m ∈ definitionsOf files := by
  obtain ⟨i, f, j, n, hf, hn, he⟩ := mem_definitionsOf.1 he
  exact mem_definitionsOf.2 ⟨i, f, j, n, hf, hn, Message.within_subset e he (Definition.inside_mem_within h)⟩

/-- What holds of the top-level messages and, with a message, of those directly inside it, holds of
all messages of the set. -/
theorem definitions_induction {P : Definition → Prop}
    (top : ∀ i (f : File) j m, files[i]? = some f → f.messages[j]? = some m → P (f.definition i j m))
    (inside : ∀ e ∈ definitionsOf files, P e → ∀ k m, e.message.nested[k]? = some m → P (e.inside k m)) :
    ∀ e ∈ definitionsOf files, P e := by
  intro e he
  obtain ⟨i, f, j, m, hf, hm, he⟩ := mem_definitionsOf.1 he
  refine (Message.definitions_induction (P := fun e => e ∈ definitionsOf files ∧ P e) ?_ _ _ _ m ?_ e he).2
  · intro e h k n hk
    exact ⟨inside_mem h.1 hk, inside e h.1 h.2 k n hk⟩
  · exact ⟨definition_mem hf hm, top i f j m hf hm⟩

theorem definitions_cases {e : Definition} (he : e ∈ definitionsOf files) :
    (∃ (i : Nat) (f : File) (j : Nat) (m : Message),
      files[i]? = some f ∧ f.messages[j]? = some m ∧ e = f.definition i j m) ∨
    ∃ o ∈ definitionsOf files, ∃ (k : Nat) (m : Message),
      o.message.nested[k]? = some m ∧ e = o.inside k m := by
  revert e
  apply definitions_induction
  · exact fun i f j m hf hm => .inl ⟨i, f, j, m, hf, hm, rfl⟩
  · exact fun o ho _ k m hk => .inr ⟨o, ho, k, m, hk, rfl⟩

/-! ## Places -/

theorem two_le_length_place : ∀ e ∈ definitionsOf files, 2 ≤ e.place.length := by
  apply definitions_induction
  · exact fun i f j m _ _ => Nat.le_refl 2
  · intro e _ ih k m _
    simp only [Definition.inside, Definition.place, List.length_append, List.length_singleton] at ih ⊢
    omega

theorem definition_ne_inside {f : File} {i j k : Nat} {m n : Message} {e : Definition}
    (he : e ∈ definitionsOf files) : (f.definition i j m).place ≠ (e.inside k n).place := by
  intro h
  have := two_le_length_place e he
  have hl := congrArg List.length h
  simp only [File.definition, Definition.inside, Definition.place, List.length_append, List.length_cons,
    List.length_nil] at this hl
  omega

/-- A place identifies a message of the set. -/
theorem eq_of_place_eq : ∀ a ∈ definitionsOf files, ∀ b ∈ definitionsOf files, a.place = b.place → a = b := by
  apply definitions_induction
  · intro i f j m hf hm b hb h
    rcases definitions_cases hb with ⟨i', f', j', m', hf', hm', rfl⟩ | ⟨o, ho, k, n, hn, rfl⟩
    · simp only [File.definition, Definition.place, List.cons.injEq, and_true] at h
      obtain ⟨rfl, rfl⟩ := h
      obtain rfl := Option.some.inj (hf.symm.trans hf')
      obtain rfl := Option.some.inj (hm.symm.trans hm')
      rfl
    · exact absurd h (definition_ne_inside ho)
  · intro a ha ih k m hm b hb h
    rcases definitions_cases hb with ⟨i', f', j', m', hf', hm', rfl⟩ | ⟨o, ho, l, n, hn, rfl⟩
    · exact absurd h.symm (definition_ne_inside ha)
    · -- Equal places agree on the message around, and on the position in it.
      obtain ⟨hp, hk⟩ := List.append_inj' (show a.place ++ [k] = o.place ++ [l] from h) rfl
      obtain rfl := ih o ho hp
      obtain rfl : k = l := by simpa using hk
      obtain rfl := Option.some.inj (hm.symm.trans hn)
      rfl

theorem scope_of_mem_definitionsOf : ∀ e ∈ definitionsOf files, ∃ f ∈ files, e.scope = f.scope := by
  apply definitions_induction
  · exact fun i f j m hf _ => ⟨f, List.mem_of_getElem? hf, rfl⟩
  · exact fun e _ ih k m _ => ih

/-- The scope of the package of the file that a declaration stands in. -/
def homeScope (files : List File) (d : Declaration) : Scope :=
  match d.place with
  | i :: _ => files[i]?.elim [] File.scope
  | [] => []

theorem scope_eq_homeScope : ∀ e ∈ definitionsOf files, e.scope = homeScope files e.declaration := by
  apply definitions_induction
  · intro i f j m hf _
    simp [File.definition, homeScope, hf]
  · intro e he ih k m _
    have := two_le_length_place e he
    rw [show (e.inside k m).scope = e.scope from rfl, ih]
    unfold homeScope Definition.inside Definition.place at *
    cases hp : e.declaration.place with
    | nil => simp [hp] at this
    | cons i rest => simp

/-- The message is declared in a file of the set, at its own place. -/
def Declared (files : List File) (d : Declaration) : Prop := ∃ e ∈ definitionsOf files, e.declaration = d

theorem Declared.eq_of_place_eq {a b : Declaration} (ha : Declared files a) (hb : Declared files b)
    (h : a.place = b.place) : a = b := by
  obtain ⟨x, hx, rfl⟩ := ha
  obtain ⟨y, hy, rfl⟩ := hb
  rw [ProtoSchema.eq_of_place_eq x hx y hy h]

/-! ## Nested messages by their names -/

theorem findIn_eq_some {place : Place} {name : String} {d : Declaration} {ms : List Message} {i : Nat}
    (h : Declaration.findIn place i name ms = some d) :
    ∃ (k : Nat) (m : Message), ms[k]? = some m ∧ m.name = name ∧ d = ⟨place ++ [i + k], m⟩ := by
  induction ms generalizing i with
  | nil => cases h
  | cons m ms ih =>
    rw [Declaration.findIn] at h
    split at h
    · exact ⟨0, m, rfl, ‹_›, (Option.some.inj h).symm⟩
    · obtain ⟨k, n, hk, hn, rfl⟩ := ih h
      exact ⟨k + 1, n, hk, hn, by rw [Nat.add_right_comm, Nat.add_assoc]⟩

theorem findIn_isSome {place : Place} {name : String} {ms : List Message} {i k : Nat} {m : Message}
    (hk : ms[k]? = some m) (hm : m.name = name) : ∃ d, Declaration.findIn place i name ms = some d := by
  induction ms generalizing i k with
  | nil => cases hk
  | cons n ms ih =>
    rw [Declaration.findIn]
    split
    · exact ⟨_, rfl⟩
    · rename_i hn
      cases k with
      | zero => exact absurd (Option.some.inj hk ▸ hm) hn
      | succ k => exact ih hk

theorem nested?_eq_some {e : Definition} {name : String} {d : Declaration}
    (h : e.declaration.nested? name = some d) : ∃ (k : Nat) (m : Message),
      e.message.nested[k]? = some m ∧ m.name = name ∧ d = (e.inside k m).declaration := by
  obtain ⟨k, m, hk, hm, rfl⟩ := findIn_eq_some h
  exact ⟨k, m, hk, hm, by rw [Nat.zero_add]; rfl⟩

theorem descend_append (d : Declaration) (names : List String) (name : String) :
    d.descend (names ++ [name]) = (d.descend names).bind (·.nested? name) := by
  simp [Declaration.descend, List.foldlM_append]

theorem descend_mem {names : List String} {d : Declaration} : ∀ e ∈ definitionsOf files,
    e.declaration.descend names = some d →
      ∃ x ∈ definitionsOf files, x.scope = e.scope ∧ x.names = e.names ++ names ∧ x.declaration = d := by
  -- From the last name, because `inside` adds a name at the end.
  induction names using List.reverseRecOn generalizing d with
  | nil =>
    intro e he h
    exact ⟨e, he, rfl, by simp, Option.some.inj h⟩
  | append_singleton names name ih =>
    intro e he h
    rw [descend_append, Option.bind_eq_some_iff] at h
    obtain ⟨o, ho, h⟩ := h
    obtain ⟨x, hx, hs, hn, rfl⟩ := ih e he ho
    obtain ⟨k, m, hk, rfl, rfl⟩ := nested?_eq_some h
    exact ⟨x.inside k m, inside_mem hx hk, hs, by simp [Definition.inside, hn], rfl⟩

/-! ## The catalog of a file set -/

/-- What a file set files, in order: each top-level message under the package of its file. -/
def filings (files : List File) : List (String × Declaration) :=
  files.zipIdx.flatMap fun e => (e.1.declarations e.2).map (e.1.packageName, ·)

theorem ofFiles_eq_ofFilings (files : List File) : Catalog.ofFiles files = .ofFilings (filings files) := by
  simp only [Catalog.ofFiles, Catalog.ofFilings, filings, List.foldl_flatMap, List.foldl_map, Catalog.addFile]

theorem mem_declarations {f : File} {i : Nat} {d : Declaration} : d ∈ f.declarations i ↔
    ∃ (j : Nat) (m : Message), f.messages[j]? = some m ∧ d = ⟨[i, j], m⟩ := by
  simp only [File.declarations, List.mem_iff_getElem?, List.getElem?_mapIdx, Option.map_eq_some_iff]
  constructor
  · rintro ⟨j, m, hm, rfl⟩
    exact ⟨j, m, hm, rfl⟩
  · rintro ⟨j, m, hm, rfl⟩
    exact ⟨j, m, hm, rfl⟩

theorem mem_filings {package : String} {d : Declaration} : (package, d) ∈ filings files ↔
    ∃ (i : Nat) (f : File) (j : Nat) (m : Message), files[i]? = some f ∧ f.messages[j]? = some m ∧
      package = f.packageName ∧ d = ⟨[i, j], m⟩ := by
  simp only [filings, List.mem_flatMap, Prod.exists, List.mem_zipIdx_iff_getElem?, List.mem_map,
    mem_declarations, Prod.mk.injEq]
  constructor
  · rintro ⟨f, i, hf, d, ⟨j, m, hm, rfl⟩, rfl, rfl⟩
    exact ⟨i, f, j, m, hf, hm, rfl, rfl⟩
  · rintro ⟨i, f, j, m, hf, hm, rfl, rfl⟩
    exact ⟨f, i, hf, _, ⟨j, m, hm, rfl⟩, rfl, rfl⟩

theorem type?_ofFiles {s : Scope} {name : String} {d : Declaration}
    (h : (Catalog.ofFiles files).type? s name = some d) :
    ∃ e ∈ definitionsOf files, e.scope = s ∧ e.names = [name] ∧ e.declaration = d := by
  rw [ofFiles_eq_ofFilings] at h
  obtain ⟨package, hd, rfl, rfl⟩ := Catalog.type?_ofFilings_mem h
  obtain ⟨i, f, j, m, hf, hm, rfl, rfl⟩ := mem_filings.1 hd
  exact ⟨f.definition i j m, definition_mem hf hm, rfl, rfl, rfl⟩

theorem contains_ofFiles {f : File} {i j : Nat} {m : Message} (hf : files[i]? = some f)
    (hm : f.messages[j]? = some m) : (Catalog.ofFiles files).contains f.scope = true := by
  rw [ofFiles_eq_ofFilings, Catalog.contains_ofFilings]
  exact .inr ⟨_, mem_filings.2 ⟨i, f, j, m, hf, hm, rfl, rfl⟩, List.prefix_refl _⟩

/-- A file with messages is converted in the scope of its package. -/
theorem enter_ofFiles {f : File} {i j : Nat} {m : Message} (hf : files[i]? = some f)
    (hm : f.messages[j]? = some m) : (Catalog.ofFiles files).enter [] f.packageName = some f.scope := by
  simp only [Catalog.enter, List.nil_append]
  exact if_pos (contains_ofFiles hf hm)

theorem prefix_of_contains_ofFiles {s : Scope} (h : (Catalog.ofFiles files).contains s = true)
    (hs : s ≠ []) : ∃ f ∈ files, s <+: f.scope := by
  rw [ofFiles_eq_ofFilings, Catalog.contains_ofFilings] at h
  obtain ⟨⟨package, d⟩, hr, hp⟩ := h.resolve_left hs
  obtain ⟨i, f, j, m, hf, -, rfl, -⟩ := mem_filings.1 hr
  exact ⟨f, List.mem_of_getElem? hf, hp⟩

/-- A type name refers to a declared message and is found in that message's own scope. -/
theorem declared_of_lookup {current s : Scope} {typeName : String} {d : Declaration}
    (h : (Catalog.ofFiles files).lookup current typeName = some (d, s)) :
    Declared files d ∧ s = homeScope files d := by
  obtain ⟨name, rest, top, htop, hd⟩ := Catalog.lookup_eq_some h
  obtain ⟨e, he, rfl, -, rfl⟩ := type?_ofFiles htop
  obtain ⟨x, hx, hs, -, rfl⟩ := descend_mem e he hd
  exact ⟨⟨x, hx, rfl⟩, by rw [← hs, scope_eq_homeScope x hx]⟩

end ProtoSchema
