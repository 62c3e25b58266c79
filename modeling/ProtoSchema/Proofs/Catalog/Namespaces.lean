import ProtoSchema.Catalog.Basic
/-!
# Namespaces by number

The catalog as a flat table. A scope is a namespace with a number, the next one when
it first becomes known, and the namespaces around and inside it are told by their
numbers. What the table says of a number is read through `name?`, `parent?`, `child?`
and `type?`, and for each of these there is a lemma on what making a namespace and
declaring a message leave of it.
-/

namespace ProtoSchema

/-- A scope with its absolute name, the number of the scope around it, the numbers of those directly
inside it, and the messages declared in it. -/
structure Namespace where
  name : String
  parent : Option Nat
  children : Dictionary Nat
  types : Dictionary Declaration

/-- Namespaces, each at the position that is its number. -/
structure Namespaces where
  nodes : List Namespace

namespace Namespaces

/-- The outermost scope alone. -/
def empty : Namespaces := ⟨[⟨"", none, .empty, .empty⟩]⟩

def name? (t : Namespaces) (i : Nat) : Option String := t.nodes[i]?.map Namespace.name

def parent? (t : Namespaces) (i : Nat) : Option Nat := t.nodes[i]?.bind Namespace.parent

def child? (t : Namespaces) (i : Nat) (name : String) : Option Nat := t.nodes[i]?.bind (·.children.get? name)

def type? (t : Namespaces) (i : Nat) (name : String) : Option Declaration := t.nodes[i]?.bind (·.types.get? name)

/-- Makes a namespace inside number `i`, which gets the next number. -/
def addChild (t : Namespaces) (i : Nat) (name : String) : Namespaces where
  nodes := (t.nodes.modify i fun n => { n with children := n.children.insert name t.nodes.length }) ++
    [⟨(t.name? i).getD "" ++ "." ++ name, some i, .empty, .empty⟩]

/-- Goes from number `i` to where some names lead, and makes the namespaces missing on the way. -/
def reach (t : Namespaces) (i : Nat) : Scope → Namespaces × Nat
  | [] => (t, i)
  | name :: rest =>
    match t.child? i name with
    | some c => t.reach c rest
    | none => (t.addChild i name).reach t.nodes.length rest

/-- Declares a message in number `i`, in place of another of its name. -/
def declare (t : Namespaces) (i : Nat) (d : Declaration) : Namespaces where
  nodes := t.nodes.modify i fun n => { n with types := n.types.insert d.message.name d }

/-- Files a message under a package and answers the number of its namespace. -/
def register (t : Namespaces) (package : String) (d : Declaration) : Namespaces × Nat :=
  let (t', i) := t.reach 0 (.ofPackage package)
  (t'.declare i d, i)

/-- The namespaces of messages filed in turn, each under a package. -/
def ofFilings (filings : List (String × Declaration)) : Namespaces :=
  filings.foldl (fun t r => (t.register r.1 r.2).1) empty

/-- The number of the namespace that some names lead to from number `i`. -/
def walk? (t : Namespaces) (i : Nat) (s : Scope) : Option Nat := s.foldlM t.child? i

/-! ## What one change leaves -/

/-- What is read of a namespace stays when another changes, or this one in what is not read. -/
theorem read_changed {β : Type} (read : Option Namespace → β) (change : Namespace → Namespace)
    (h : ∀ a, read (some (change a)) = read (some a)) (a? : Option Namespace) (i j : Nat) :
    read (a?.map fun a => if i = j then change a else a) = read a? := by
  cases a? with
  | none => rfl
  | some a => by_cases hij : i = j <;> simp [hij, h]

section Changes
variable (t : Namespaces) (i j : Nat) (name n : String) (d : Declaration)

theorem nodes_addChild : (t.addChild i name).nodes[j]? =
    if j = t.nodes.length then some ⟨(t.name? i).getD "" ++ "." ++ name, some i, .empty, .empty⟩
    else (t.nodes[j]?).map fun a =>
      if i = j then { a with children := a.children.insert name t.nodes.length } else a := by
  simp only [addChild, List.getElem?_append, List.length_modify, List.getElem?_modify]
  rcases Nat.lt_trichotomy j t.nodes.length with h | rfl | h
  · rw [if_pos h, if_neg (Nat.ne_of_lt h)]
    rfl
  · simp
  · rw [if_neg (Nat.not_lt_of_gt h), if_neg (Nat.ne_of_gt h), List.getElem?_eq_none (Nat.le_of_lt h),
      List.getElem?_eq_none]
    · rfl
    · simp only [List.length_singleton]
      omega

theorem name?_addChild : (t.addChild i name).name? j =
    if j = t.nodes.length then some ((t.name? i).getD "" ++ "." ++ name) else t.name? j := by
  rw [name?, nodes_addChild]
  split
  · rfl
  · apply read_changed (·.map Namespace.name)
    exact fun _ => rfl

theorem parent?_addChild : (t.addChild i name).parent? j =
    if j = t.nodes.length then some i else t.parent? j := by
  rw [parent?, nodes_addChild]
  split
  · rfl
  · apply read_changed (·.bind Namespace.parent)
    exact fun _ => rfl

theorem child?_addChild {i : Nat} (hi : i < t.nodes.length) : (t.addChild i name).child? j n =
    if j = i ∧ n = name then some t.nodes.length else t.child? j n := by
  rw [child?, nodes_addChild, child?]
  by_cases hj : j = t.nodes.length
  · subst hj
    simp [Nat.ne_of_gt hi]
  · rw [if_neg hj]
    by_cases h : j = i
    · subst h
      simp [List.getElem?_eq_getElem hi, Dictionary.get?_insert]
    · cases t.nodes[j]? <;> simp [h, Ne.symm h]

theorem type?_addChild : (t.addChild i name).type? j n = t.type? j n := by
  rw [type?, nodes_addChild, type?]
  split
  · rename_i hj
    simp [hj]
  · apply read_changed (·.bind (·.types.get? n))
    exact fun _ => rfl

theorem nodes_declare : (t.declare i d).nodes[j]? = (t.nodes[j]?).map fun a =>
    if i = j then { a with types := a.types.insert d.message.name d } else a :=
  List.getElem?_modify _ _ _ _

theorem name?_declare : (t.declare i d).name? j = t.name? j := by
  rw [name?, nodes_declare]
  apply read_changed (·.map Namespace.name)
  exact fun _ => rfl

theorem parent?_declare : (t.declare i d).parent? j = t.parent? j := by
  rw [parent?, nodes_declare]
  apply read_changed (·.bind Namespace.parent)
  exact fun _ => rfl

theorem child?_declare : (t.declare i d).child? j n = t.child? j n := by
  rw [child?, nodes_declare]
  apply read_changed (·.bind (·.children.get? n))
  exact fun _ => rfl

theorem type?_declare {i : Nat} (hi : i < t.nodes.length) : (t.declare i d).type? j n =
    if j = i ∧ n = d.message.name then some d else t.type? j n := by
  rw [type?, nodes_declare, type?]
  by_cases h : j = i
  · subst h
    simp [List.getElem?_eq_getElem hi, Dictionary.get?_insert]
  · cases t.nodes[j]? <;> simp [h, Ne.symm h]

end Changes

theorem type?_reach (t : Namespaces) (i : Nat) (rest : Scope) (j : Nat) (name : String) :
    (t.reach i rest).1.type? j name = t.type? j name := by
  induction rest generalizing t i with
  | nil => rfl
  | cons n rest ih =>
    rw [reach]
    cases t.child? i n with
    | some c => exact ih t c
    | none => rw [ih, type?_addChild]

end Namespaces
end ProtoSchema
