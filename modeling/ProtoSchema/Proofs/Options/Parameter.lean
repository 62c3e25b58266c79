import ProtoSchema.Options
import ProtoSchema.Proofs.Text.Trimming
/-!
# What a parameter turns on

A switch is on if some entry between the commas of a parameter is its name, apart from blanks around it
(`get_ofParameter`). So a parameter put together from two turns on what either of them does, and two parameters
give the same options exactly if their lists of entries are alike: one can be made from the other by changing the
order, repeating an entry, putting blanks around it, and adding and dropping entries that are empty or no names
(`ofParameter_union`).
-/

namespace ProtoSchema

open Text

/-! ## Switches -/

namespace Switch

theorem mem_all (s : Switch) : s ∈ all := by
  cases s <;> decide

theorem name_injective : Function.Injective name := by
  intro s t h
  cases s <;> cases t <;> first | rfl | simp [name] at h

theorem name_ne_empty (s : Switch) : s.name ≠ "" := by
  cases s <;> simp [name]

theorem name_of_ofName? {text : String} {s : Switch} (h : ofName? text = some s) : s.name = text := by
  have hname : (s.name == text) = true := List.find?_some (p := fun t : Switch => t.name == text) h
  exact eq_of_beq hname

theorem ofName?_eq_some_iff {text : String} {s : Switch} : ofName? text = some s ↔ s.name = text := by
  refine ⟨name_of_ofName?, ?_⟩
  rintro rfl
  cases h : ofName? s.name with
  | none => simpa using List.find?_eq_none.1 h s (mem_all s)
  | some t => rw [name_injective (name_of_ofName? h)]

end Switch

namespace Options

variable {o o' : Options} {s : Switch} {switches : List Switch}

theorem ext_get (h : ∀ s, o.get s = o'.get s) : o = o' :=
  (Options.mk.injEq ..).mpr ⟨h .allowNullValues, h .debug, h .disallowAdditionalProperties,
    h .prefixSchemaFilesWithPackage, h .protoAndJsonFieldnames⟩

theorem get_set (o : Options) (s t : Switch) (on : Bool) : (o.set s on).get t = if s = t then on else o.get t := by
  cases s <;> cases t <;> rfl

theorem get_foldl_set :
    (switches.foldl (fun o s => o.set s true) o).get s = true ↔ o.get s = true ∨ s ∈ switches := by
  induction switches generalizing o with
  | nil => simp
  | cons t switches ih =>
    rw [List.foldl_cons, ih, get_set, List.mem_cons]
    by_cases h : t = s
    · simp [h]
    · simp [h, Ne.symm h]

theorem get_ofSwitches : (ofSwitches switches).get s = true ↔ s ∈ switches := by
  have hoff : get {} s = false := by cases s <;> rfl
  rw [ofSwitches, get_foldl_set, hoff]
  simp

/-! ## Entries -/

/-- What stands between the commas of a parameter. -/
def entries (parameter : String) : List (List Char) := parameter.toList.splitOn ','

theorem entries_append (p q : String) : entries (p ++ "," ++ q) = entries p ++ entries q := by
  have hcomma : ",".toList = [','] := rfl
  rw [entries, String.toList_append, String.toList_append, hcomma, List.append_assoc, List.singleton_append,
    List.splitOn_append_cons_self]
  rfl

/-- Some entry is the name of the switch, apart from blanks around it. -/
def Lists (es : List (List Char)) (s : Switch) : Prop := ∃ entry ∈ es, trim entry = s.name.toList

theorem get_ofParameter {parameter : String} : (ofParameter parameter).get s = true ↔ Lists (entries parameter) s := by
  rw [ofParameter, get_ofSwitches, named, List.mem_filterMap]
  refine exists_congr fun entry => and_congr_right fun _ => ?_
  rw [Switch.ofName?_eq_some_iff, ← String.toList_inj, String.toList_ofList]
  exact eq_comm

/-! ## Entries that make no difference -/

/-- Lists of entries of which one can be made from the other by changes that make no difference. -/
inductive Alike : List (List Char) → List (List Char) → Prop where
  | reordered {es others : List (List Char)} (h : es.Perm others) : Alike es others
  | repeated (entry : List Char) (es : List (List Char)) : Alike (entry :: entry :: es) (entry :: es)
  | padded {before after : List Char} (hb : Blank before) (ha : Blank after) (entry : List Char)
    (es : List (List Char)) : Alike ((before ++ entry ++ after) :: es) (entry :: es)
  | empty (es : List (List Char)) : Alike ([] :: es) es
  | unknown {entry : List Char} (h : ∀ s : Switch, trim entry ≠ s.name.toList) (es : List (List Char)) :
    Alike (entry :: es) es
  | symm {es others : List (List Char)} (h : Alike es others) : Alike others es
  | trans {es middle others : List (List Char)} (h : Alike es middle) (h' : Alike middle others) : Alike es others

variable {es others more : List (List Char)} {entry : List Char}

theorem lists_cons : Lists (entry :: es) s ↔ trim entry = s.name.toList ∨ Lists es s := List.exists_mem_cons_iff ..

theorem lists_append : Lists (es ++ others) s ↔ Lists es s ∨ Lists others s := by
  simp only [Lists, List.mem_append, or_and_right, exists_or]

/-- No change adds or drops the name of a switch. -/
theorem Alike.lists_iff (h : Alike es others) (s : Switch) : Lists es s ↔ Lists others s := by
  induction h with
  | reordered h => exact exists_congr fun entry => and_congr_left fun _ => h.mem_iff
  | repeated entry es => rw [lists_cons, lists_cons, ← or_assoc, or_self]
  | padded hb ha entry es => rw [lists_cons, lists_cons, trim_append_blank hb ha]
  | empty es =>
    have hnil : trim [] ≠ s.name.toList := fun h => s.name_ne_empty (String.toList_eq_nil_iff.1 h.symm)
    rw [lists_cons, or_iff_right hnil]
  | unknown h es => rw [lists_cons, or_iff_right (h s)]
  | symm _ ih => exact ih.symm
  | trans _ _ ih ih' => exact ih.trans ih'

theorem Alike.of_trim {entry' : List Char} (h : trim entry = trim entry') (es : List (List Char)) :
    Alike (entry :: es) (entry' :: es) := by
  have htrim : ∀ entry, Alike (entry :: es) (trim entry :: es) := fun entry => by
    obtain ⟨before, after, hb, ha, hentry⟩ := exists_trim entry
    have hpadded := Alike.padded hb ha (trim entry) es
    rwa [← hentry] at hpadded
  exact (htrim entry).trans (h ▸ (htrim entry').symm)

/-- An entry that names what another entry names can be dropped. -/
theorem Alike.of_mem {entry' : List Char} (h : trim entry = trim entry') (hmem : entry' ∈ es) :
    Alike (entry :: es) es := by
  have hperm : es.Perm (entry' :: es.erase entry') := List.perm_cons_erase hmem
  have hrepeated : Alike (entry' :: es) es :=
    (Alike.reordered (hperm.cons entry')).trans ((Alike.repeated entry' _).trans (.reordered hperm.symm))
  exact (Alike.of_trim h es).trans hrepeated

theorem Alike.append_left (h : ∀ s, Lists more s → Lists es s) : Alike (more ++ es) es := by
  induction more with
  | nil => exact .reordered (.refl es)
  | cons entry more ih =>
    have hrest : Alike (more ++ es) es := ih fun s hs => h s (lists_cons.2 (.inr hs))
    -- An entry that names a switch is dropped because `es` has its name too, any other because it is no name.
    by_cases hname : ∃ s : Switch, trim entry = s.name.toList
    · obtain ⟨s, hs⟩ := hname
      obtain ⟨entry', hmem, hs'⟩ := h s (lists_cons.2 (.inl hs))
      exact (Alike.of_mem (hs.trans hs'.symm) (List.mem_append_right more hmem)).trans hrest
    · exact (Alike.unknown (not_exists.1 hname) _).trans hrest

/-- Lists of entries that name the same switches are alike: each is as good as the two together. -/
theorem alike_iff : Alike es others ↔ ∀ s, Lists es s ↔ Lists others s := by
  refine ⟨Alike.lists_iff, fun h => ?_⟩
  have hleft : Alike (others ++ es) es := Alike.append_left fun s => (h s).2
  have hright : Alike (es ++ others) others := Alike.append_left fun s => (h s).1
  exact hleft.symm.trans ((Alike.reordered List.perm_append_comm).trans hright)

/-- Parameters put together turn on what any of them does, a switch is on if and only if some entry is its name apart
from blanks around it, and parameters give the same options if and only if their entries are alike. -/
theorem ofParameter_union :
    (∀ (p q : String) (s : Switch),
      (ofParameter (p ++ "," ++ q)).get s = ((ofParameter p).get s || (ofParameter q).get s)) ∧
    (∀ (p : String) (s : Switch),
      (ofParameter p).get s = true ↔ ∃ entry ∈ entries p, trim entry = s.name.toList) ∧
    ∀ p q : String, ofParameter p = ofParameter q ↔ Alike (entries p) (entries q) := by
  refine ⟨fun p q s => ?_, fun p s => get_ofParameter, fun p q => ?_⟩
  · rw [Bool.eq_iff_iff, Bool.or_eq_true, get_ofParameter, get_ofParameter, get_ofParameter, entries_append,
      lists_append]
  · rw [alike_iff]
    constructor
    · intro h s
      rw [← get_ofParameter, h, get_ofParameter]
    · intro h
      refine ext_get fun s => ?_
      rw [Bool.eq_iff_iff, get_ofParameter, get_ofParameter]
      exact h s

/-- A name that is cut by the comma, one in capitals and one with a blank in it turn on nothing. -/
example :
    ofParameter "de,bug,Debug, proto_and_json_ fieldnames" = {} ∧
    ofParameter "\u3000debug\t,,bogus,allow_null_values ,debug" = ofParameter "allow_null_values,debug" := by
  decide +kernel

end Options
end ProtoSchema
