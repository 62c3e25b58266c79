/-!
# Dictionaries

A dictionary maps texts to values and lists its entries in ascending order of
their keys, by code point. A second value for a key replaces the first.
`get?_insert` and `get?_ofList` say what stands under a key.
-/

namespace ProtoSchema

universe u v

structure Dictionary (α : Type u) where
  entries : List (String × α)
deriving Repr

namespace Dictionary

variable {α : Type u}

/-- Puts an entry at its place among ascending entries. -/
def insertEntry (key : String) (value : α) : List (String × α) → List (String × α)
  | [] => [(key, value)]
  | (k, v) :: rest =>
    if key < k then (key, value) :: (k, v) :: rest
    else if key = k then (key, value) :: rest
    else (k, v) :: insertEntry key value rest

def empty : Dictionary α := ⟨[]⟩

instance : Inhabited (Dictionary α) := ⟨empty⟩

def insert (d : Dictionary α) (key : String) (value : α) : Dictionary α :=
  ⟨insertEntry key value d.entries⟩

def get? (d : Dictionary α) (key : String) : Option α := d.entries.lookup key

def contains (d : Dictionary α) (key : String) : Bool := (d.get? key).isSome

def keys (d : Dictionary α) : List String := d.entries.map Prod.fst

def values (d : Dictionary α) : List α := d.entries.map Prod.snd

def size (d : Dictionary α) : Nat := d.entries.length

def isEmpty (d : Dictionary α) : Bool := d.entries.isEmpty

/-- The entries of a list, a later one replacing an earlier one with the same key. -/
def ofList (entries : List (String × α)) : Dictionary α :=
  entries.foldl (fun d e => d.insert e.1 e.2) empty

/-- Changes every value and no key. -/
def map {β : Type v} (g : α → β) (d : Dictionary α) : Dictionary β := ⟨d.entries.map fun e => (e.1, g e.2)⟩

/-- The keys ascend, so that no two entries share one. -/
def Ascending (d : Dictionary α) : Prop := d.entries.Pairwise fun a b => a.1 < b.1

@[simp] theorem get?_empty (key : String) : (empty : Dictionary α).get? key = none := rfl

theorem lookup_cons (key k : String) (v : α) (l : List (String × α)) :
    ((k, v) :: l).lookup key = if key = k then some v else l.lookup key := by
  by_cases h : key = k
  · subst h; simp
  · have hb : (key == k) = false := by simpa using h
    simp [List.lookup_cons, hb, h]

theorem lookup_insertEntry (key : String) (value : α) (key' : String) (l : List (String × α)) :
    (insertEntry key value l).lookup key' = if key' = key then some value else l.lookup key' := by
  induction l with
  | nil => simp [insertEntry, lookup_cons]
  | cons e rest ih =>
    obtain ⟨k, v⟩ := e
    simp only [insertEntry]
    split
    · rw [lookup_cons]
    · split
      · rename_i h
        subst h
        simp only [lookup_cons]
        split <;> rfl
      · rename_i h
        simp only [lookup_cons, ih]
        by_cases hk : key' = k
        · simp [hk, Ne.symm h]
        · simp [hk]

/-- An insertion changes what stands under its own key and nothing else. -/
theorem get?_insert (d : Dictionary α) (key : String) (value : α) (key' : String) :
    (d.insert key value).get? key' = if key' = key then some value else d.get? key' :=
  lookup_insertEntry key value key' d.entries

/-! ## Entries with different keys -/

theorem lookup_eq_some_iff {key : String} {value : α} {l : List (String × α)} (h : (l.map Prod.fst).Nodup) :
    l.lookup key = some value ↔ (key, value) ∈ l := by
  induction l with
  | nil => simp
  | cons e rest ih =>
    obtain ⟨k, v⟩ := e
    obtain ⟨hk, hrest⟩ := List.nodup_cons.1 h
    rw [lookup_cons, List.mem_cons, Prod.mk.injEq]
    by_cases heq : key = k
    · subst heq
      have hno : (key, value) ∉ rest := fun hm => hk (List.mem_map.2 ⟨_, hm, rfl⟩)
      simp [hno, eq_comm]
    · simp [heq, ih hrest]

theorem lookup_eq_none {key : String} {l : List (String × α)} (h : key ∉ l.map Prod.fst) : l.lookup key = none := by
  refine List.lookup_eq_none_iff.2 fun e he => ?_
  exact bne_iff_ne.2 fun heq => h (List.mem_map.2 ⟨e, he, heq.symm⟩)

/-- The order of such entries makes no difference to what stands under a key. -/
theorem lookup_perm {l l' : List (String × α)} (hp : l.Perm l') (h : (l.map Prod.fst).Nodup) (key : String) :
    l.lookup key = l'.lookup key := by
  have h' : (l'.map Prod.fst).Nodup := (hp.map Prod.fst).nodup_iff.1 h
  ext value
  rw [lookup_eq_some_iff h, lookup_eq_some_iff h', hp.mem_iff]

theorem Ascending.nodup_keys {d : Dictionary α} (h : d.Ascending) : d.keys.Nodup := by
  refine List.pairwise_map.2 (List.Pairwise.imp ?_ h)
  intro a b hlt heq
  rw [heq] at hlt
  exact String.lt_irrefl _ hlt

/-- Each value stands under a key. -/
theorem Ascending.exists_get? {d : Dictionary α} (h : d.Ascending) {value : α} (hv : value ∈ d.values) :
    ∃ key, d.get? key = some value := by
  obtain ⟨⟨key, value⟩, he, rfl⟩ := List.mem_map.1 hv
  exact ⟨key, (lookup_eq_some_iff h.nodup_keys).2 he⟩

theorem lookup_map_values {β : Type v} (g : α → β) (l : List (String × α)) (key : String) :
    (l.map fun e => (e.1, g e.2)).lookup key = (l.lookup key).map g := by
  induction l with
  | nil => rfl
  | cons e rest ih =>
    obtain ⟨k, v⟩ := e
    rw [List.map_cons, lookup_cons, lookup_cons, ih]
    by_cases h : key = k <;> simp [h]

theorem ascending_empty : (empty : Dictionary α).Ascending := List.Pairwise.nil

/-! ## Dictionaries from lists -/

theorem mem_insertEntry {key : String} {value : α} {l : List (String × α)} {e : String × α}
    (h : e ∈ insertEntry key value l) : e = (key, value) ∨ e ∈ l := by
  induction l with
  | nil => exact .inl (List.mem_singleton.1 h)
  | cons e' rest ih =>
    obtain ⟨k, v⟩ := e'
    simp only [insertEntry] at h
    split at h
    · exact List.mem_cons.1 h
    · split at h
      · exact (List.mem_cons.1 h).imp id (.tail _)
      · rcases List.mem_cons.1 h with rfl | h
        · exact .inr (.head _)
        · exact (ih h).imp id (.tail _)

theorem Ascending.insert {d : Dictionary α} (h : d.Ascending) (key : String) (value : α) :
    (d.insert key value).Ascending := by
  obtain ⟨l⟩ := d
  unfold Ascending Dictionary.insert at *
  dsimp only at *
  induction l with
  | nil => exact List.pairwise_singleton _ _
  | cons e rest ih =>
    obtain ⟨k, v⟩ := e
    obtain ⟨hhead, hrest⟩ := List.pairwise_cons.1 h
    simp only [insertEntry]
    split
    · rename_i hk
      refine List.pairwise_cons.2 ⟨fun e he => ?_, h⟩
      rcases List.mem_cons.1 he with rfl | he
      · exact hk
      · exact String.lt_trans hk (hhead e he)
    · split
      · rename_i hk
        subst hk
        exact List.pairwise_cons.2 ⟨hhead, hrest⟩
      · rename_i hle hne
        refine List.pairwise_cons.2 ⟨fun e he => ?_, ih hrest⟩
        rcases mem_insertEntry he with rfl | he
        · exact Std.lt_of_le_of_ne (String.not_lt.1 hle) (Ne.symm hne)
        · exact hhead e he

theorem ascending_ofList (l : List (String × α)) : (ofList l).Ascending := by
  suffices h : ∀ d : Dictionary α, d.Ascending → (l.foldl (fun d e => d.insert e.1 e.2) d).Ascending from
    h empty List.Pairwise.nil
  induction l with
  | nil => exact fun d h => h
  | cons e l ih => exact fun d h => ih _ (h.insert e.1 e.2)

theorem mem_of_mem_ofList {l : List (String × α)} {e : String × α} (h : e ∈ (ofList l).entries) : e ∈ l := by
  suffices hd : ∀ d : Dictionary α, e ∈ (l.foldl (fun d e => d.insert e.1 e.2) d).entries →
      e ∈ d.entries ∨ e ∈ l from (hd empty h).resolve_left List.not_mem_nil
  clear h
  induction l with
  | nil => exact fun d h => .inl h
  | cons x l ih =>
    intro d h
    rcases ih _ h with h | h
    · rcases mem_insertEntry h with rfl | h
      · exact .inr (.head _)
      · exact .inl h
    · exact .inr (.tail _ h)

/-- The last entry of a key counts. -/
theorem get?_ofList (l : List (String × α)) (key : String) : (ofList l).get? key = l.reverse.lookup key := by
  suffices h : ∀ d : Dictionary α, (l.foldl (fun d e => d.insert e.1 e.2) d).get? key =
      (l.reverse.lookup key).or (d.get? key) by
    simpa [ofList] using h empty
  induction l with
  | nil => exact fun d => rfl
  | cons e l ih =>
    intro d
    obtain ⟨k, v⟩ := e
    rw [List.foldl_cons, ih, get?_insert, List.reverse_cons, List.lookup_append, lookup_cons, Option.or_assoc]
    by_cases hk : key = k <;> simp [hk]

theorem lookup_map_const (keys : List String) (value : α) (key : String) :
    (keys.map (·, value)).lookup key = if keys.contains key then some value else none := by
  induction keys with
  | nil => rfl
  | cons k keys ih =>
    rw [List.map_cons, lookup_cons, ih]
    by_cases h : key = k <;> simp [h]

/-- Where each of some things stands under several keys, the last one to claim a key has it. -/
theorem get?_ofList_flatMap {β : Type} (l : List β) (keys : β → List String) (value : β → α) (key : String) :
    (ofList (l.flatMap fun b => (keys b).map (·, value b))).get? key =
      (l.reverse.find? fun b => (keys b).contains key).map value := by
  rw [get?_ofList, List.reverse_flatMap]
  induction l.reverse with
  | nil => rfl
  | cons b l ih =>
    rw [List.flatMap_cons, List.lookup_append, ih, Function.comp_apply, ← List.map_reverse,
      lookup_map_const, List.find?_cons]
    by_cases h : (keys b).contains key = true <;> simp_all

theorem mem_keys_iff {d : Dictionary α} {key : String} : key ∈ d.keys ↔ (d.get? key).isSome = true := by
  rw [keys, get?]
  induction d.entries with
  | nil => simp
  | cons e rest ih =>
    rw [List.map_cons, List.mem_cons, lookup_cons, ih]
    by_cases h : key = e.1 <;> simp [h]

/-- The keys are those of the list. -/
theorem mem_keys_ofList {l : List (String × α)} {key : String} : key ∈ (ofList l).keys ↔ key ∈ l.map Prod.fst := by
  have hreverse : (l.reverse.lookup key).isSome = true ↔ key ∈ l.reverse.map Prod.fst :=
    (mem_keys_iff (d := ⟨l.reverse⟩)).symm
  rw [mem_keys_iff, get?_ofList, hreverse, List.map_reverse, List.mem_reverse]

/-! ## Dictionaries with equal answers -/

theorem Ascending.nodup {d : Dictionary α} (h : d.Ascending) : d.entries.Nodup :=
  List.Pairwise.of_map Prod.fst (fun _ _ hne heq => hne (congrArg Prod.fst heq)) h.nodup_keys

/-- Where keys ascend, what stands under them is all that there is to a dictionary. -/
theorem Ascending.ext {d d' : Dictionary α} (h : d.Ascending) (h' : d'.Ascending)
    (hget : ∀ key, d.get? key = d'.get? key) : d = d' := by
  have hperm : d.entries.Perm d'.entries := by
    refine (List.perm_ext_iff_of_nodup h.nodup h'.nodup).2 fun ⟨key, value⟩ => ?_
    rw [← lookup_eq_some_iff h.nodup_keys, ← lookup_eq_some_iff h'.nodup_keys]
    exact iff_of_eq (congrArg (· = some value) (hget key))
  refine congrArg Dictionary.mk (hperm.eq_of_pairwise (fun a b _ _ hab hba => ?_) h h')
  exact absurd (String.lt_trans hab hba) (String.lt_irrefl _)

/-- The entries of a dictionary make it again, in whatever order they come. -/
theorem Ascending.ofList_eq {d : Dictionary α} (h : d.Ascending) {l : List (String × α)} (hp : l.Perm d.entries) :
    ofList l = d := by
  have hnodup : (l.map Prod.fst).Nodup := (hp.map Prod.fst).nodup_iff.2 h.nodup_keys
  refine (ascending_ofList l).ext h fun key => ?_
  rw [get?_ofList, get?, ← lookup_perm l.reverse_perm.symm hnodup, lookup_perm hp hnodup]

/-! ## Changed values -/

section Map
variable {β : Type v} (g : α → β)

theorem get?_map (d : Dictionary α) (key : String) : (d.map g).get? key = (d.get? key).map g :=
  lookup_map_values g d.entries key

theorem Ascending.map {d : Dictionary α} (h : d.Ascending) : (d.map g).Ascending := List.pairwise_map.2 h

theorem map_eq_self {g : α → α} {d : Dictionary α} (h : ∀ value ∈ d.values, g value = value) : d.map g = d := by
  have hentries : d.entries.map (fun e => (e.1, g e.2)) = d.entries.map id :=
    List.map_congr_left fun e he => congrArg (Prod.mk e.1) (h e.2 (List.mem_map_of_mem he))
  exact congrArg Dictionary.mk (hentries.trans (List.map_id _))

theorem insert_map (d : Dictionary α) (key : String) (value : α) :
    (d.insert key value).map g = (d.map g).insert key (g value) := by
  obtain ⟨l⟩ := d
  refine congrArg Dictionary.mk ?_
  show (insertEntry key value l).map _ = insertEntry key (g value) (l.map _)
  induction l with
  | nil => rfl
  | cons e l ih =>
    simp only [insertEntry, List.map_cons]
    split
    · rfl
    · split
      · rfl
      · rw [List.map_cons, ih]

theorem ofList_map (l : List (String × α)) : (ofList l).map g = ofList (l.map fun e => (e.1, g e.2)) := by
  rw [ofList, ofList, List.foldl_map]
  exact (List.foldl_hom (map g) fun d e => (insert_map g d e.1 e.2).symm).symm

end Map

end Dictionary
end ProtoSchema
