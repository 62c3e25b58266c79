import ProtoSchema.Schema.Node
/-!
# What directives do to a node

Directives change the annotations of a node and nothing else, and of these only the ones that a key stands for: a text
is replaced where one of its keys is there, the long one before the short one, a flag is only ever set, bounds of
values are for integers and bounds of lengths for all others (`Node.Directed`). To apply the same directives once more
changes nothing, and directives with other keys do not count (`directed_confined`).
-/

namespace ProtoSchema

namespace Directives

variable {d d' : Directives} {long short key : String} {before : Option String}

/-- The keys that stand for something. -/
def recognized : List String :=
  ["title", "name", "description", "desc", "format", "fmt", "pattern", "min", "max", "required", "id",
   "autoincrement", "index", "query"]

/-- A text is the value of the long key, else that of the short one, else what it was. -/
structure Overrides (d : Directives) (long short : String) (before after : Option String) : Prop where
  of_long : ∀ text, d.get? long = some text → after = some text
  of_short : ∀ text, d.get? long = none → d.get? short = some text → after = some text
  of_none : d.get? long = none → d.get? short = none → after = before

theorem value?_eq_get? (h : key ∈ recognized) : d.value? key = d.get? key := by
  have hsmall : recognized.all (fun key => Text.lowercase key = key) = true := by decide +kernel
  rw [get?, of_decide_eq_true (List.all_eq_true.1 hsmall key h)]

theorem first?_eq (hlong : long ∈ recognized) (hshort : short ∈ recognized) :
    d.first? [long, short] = (d.get? long).or (d.get? short) := by
  rw [← value?_eq_get? hlong, ← value?_eq_get? hshort, first?, List.findSome?_cons, List.findSome?_singleton]
  cases d.value? long <;> rfl

theorem overrides_first? (hlong : long ∈ recognized) (hshort : short ∈ recognized) :
    d.Overrides long short before (d.first? [long, short] <|> before) where
  of_long text h := by
    rw [first?_eq hlong hshort, h]
    rfl
  of_short text h h' := by
    rw [first?_eq hlong hshort, h, h']
    rfl
  of_none h h' := by
    rw [first?_eq hlong hshort, h, h']
    rfl

theorem mentions_eq_true_iff {keys : List String} (h : keys ⊆ recognized) :
    d.mentions keys = true ↔ ∃ key ∈ keys, d.contains key = true := by
  rw [mentions, first?, List.findSome?_isSome_iff]
  refine exists_congr fun key => and_congr_right fun hkey => ?_
  rw [value?_eq_get? (h hkey), contains]

/-- Directives that say the same under the keys that stand for something. -/
def Agree (d d' : Directives) : Prop := ∀ key ∈ recognized, d.get? key = d'.get? key

theorem agree_insert (h : Text.lowercase key ∉ recognized) (value : String) : Agree (d.insert key value) d := by
  intro other hother
  have hne : other ≠ Text.lowercase key := fun heq => h (heq ▸ hother)
  rw [← value?_eq_get? hother, ← value?_eq_get? hother, value?, value?, insert, Dictionary.get?_insert, if_neg hne]

theorem Agree.value?_eq (h : Agree d d') (hkey : key ∈ recognized) : d.value? key = d'.value? key := by
  rw [value?_eq_get? hkey, value?_eq_get? hkey, h key hkey]

theorem Agree.first?_eq {keys : List String} (h : Agree d d') (hkeys : keys ⊆ recognized) :
    d.first? keys = d'.first? keys := by
  induction keys with
  | nil => rfl
  | cons key keys ih =>
    obtain ⟨hkey, hrest⟩ := List.cons_subset.1 hkeys
    have hsame := ih hrest
    unfold first? at hsame ⊢
    rw [List.findSome?_cons, List.findSome?_cons, h.value?_eq hkey, hsame]

end Directives

namespace Schema

open Directives (recognized)

/-! ## Annotations -/

namespace Annotations

variable {d d' : Directives} {a : Annotations} {identifier : String} {α : Type}

theorem or_again (x y : Option α) : (x <|> (x <|> y)) = (x <|> y) := by
  cases x <;> rfl

theorem bound_again (read : List Char → Option α) (key : String) (before : Option α) :
    bound read d key (bound read d key before) = bound read d key before :=
  or_again _ before

theorem flag_eq_true_iff {flag : Bool} {keys : List String} (h : keys ⊆ recognized) :
    (flag || d.mentions keys) = true ↔ flag = true ∨ ∃ key ∈ keys, d.contains key = true := by
  rw [Bool.or_eq_true, Directives.mentions_eq_true_iff h]

theorem titled_of_ne_empty {title : String} (h : title ≠ "") : titled identifier (some title) = title := by
  rw [titled, if_neg fun hempty => h (String.isEmpty_iff.1 hempty)]

theorem titled_of_empty {given : Option String} (h : ∀ title, given = some title → title = "") :
    titled identifier given = Identifier.splitCase identifier := by
  cases given with
  | none => rfl
  | some title =>
    rw [h title rfl]
    rfl

theorem titled_titled (title : Option String) :
    titled identifier (some (titled identifier title)) = titled identifier title := by
  cases title with
  | none =>
    rw [titled, titled]
    split <;> rfl
  | some text => by_cases h : text.isEmpty <;> simp [titled, h]

/-- The title that was given, or the one in its place, takes the place of itself. -/
theorem titled_again (given title : Option String) :
    titled identifier (given <|> some (titled identifier (given <|> title))) = titled identifier (given <|> title) := by
  cases given with
  | some text => rfl
  | none => exact titled_titled title

theorem annotate_annotate (integer : Bool) :
    (a.annotate d integer identifier).annotate d integer identifier = a.annotate d integer identifier := by
  have hflag : ∀ flag mentioned : Bool, (flag || mentioned || mentioned) = (flag || mentioned) := by decide
  unfold annotate
  simp only [titled_again, or_again, hflag]
  cases integer <;> simp only [bound_again, if_true, Bool.false_eq_true, if_false]

theorem annotate_congr (h : Directives.Agree d d') (integer : Bool) :
    a.annotate d integer identifier = a.annotate d' integer identifier := by
  have hfirst : ∀ keys, keys ⊆ recognized → d.first? keys = d'.first? keys := fun keys => h.first?_eq
  have hmentions : ∀ keys, keys ⊆ recognized → d.mentions keys = d'.mentions keys := fun keys hkeys => by
    rw [Directives.mentions, Directives.mentions, h.first?_eq hkeys]
  have hbound : ∀ {α : Type} (read : List Char → Option α) (key : String) (before : Option α), key ∈ recognized →
      bound read d key before = bound read d' key before := fun read key before hkey => by
    rw [bound, bound, h.value?_eq hkey]
  unfold annotate
  rw [hfirst ["title", "name"] (by decide), hfirst ["description", "desc"] (by decide),
    hfirst ["format", "fmt"] (by decide), h.value?_eq (by decide : "pattern" ∈ recognized),
    hmentions ["required", "index"] (by decide), hmentions ["id", "autoincrement"] (by decide),
    hmentions ["autoincrement"] (by decide), hmentions ["index"] (by decide), hmentions ["query"] (by decide),
    hbound _ "min" a.minimum (by decide), hbound _ "max" a.maximum (by decide),
    hbound _ "min" a.minLength (by decide), hbound _ "max" a.maxLength (by decide)]

end Annotations

/-! ## Nodes -/

namespace Node

variable {n : Node} {d d' : Directives} {identifier : String}

/-- A node with some directives, wherever they come from. -/
def directed (n : Node) (d : Directives) (identifier : String) : Node :=
  { n with annotations := n.annotations.annotate d (n.is .integer) identifier }

theorem annotate_eq_directed (n : Node) (comments : Option Comments) (identifier : String) :
    n.annotate comments identifier = n.directed (.ofComments comments) identifier := rfl

/-- All that may be different in a node after directives, and how. -/
structure Directed (n : Node) (d : Directives) (identifier : String) (after : Node) : Prop where
  type : after.type = n.type
  properties : after.properties = n.properties
  items : after.items = n.items
  additionalProperties : after.additionalProperties = n.additionalProperties
  enumValues : after.enumValues = n.enumValues
  optionLabels : after.optionLabels = n.optionLabels
  order : after.order = n.order
  /-- The title may be given, kept, or made from the name of the declaration if it would be empty or missing. -/
  title : ∃ given, d.Overrides "title" "name" n.annotations.title given ∧
    (∀ title, given = some title → title ≠ "" → after.annotations.title = some title) ∧
    ((∀ title, given = some title → title = "") →
      after.annotations.title = some (Identifier.splitCase identifier))
  description : d.Overrides "description" "desc" n.annotations.description after.annotations.description
  format : d.Overrides "format" "fmt" n.annotations.format after.annotations.format
  pattern : d.Overrides "pattern" "pattern" n.annotations.pattern after.annotations.pattern
  values : n.type ≠ .single .integer →
    after.annotations.minimum = n.annotations.minimum ∧ after.annotations.maximum = n.annotations.maximum
  lengths : n.type = .single .integer →
    after.annotations.minLength = n.annotations.minLength ∧ after.annotations.maxLength = n.annotations.maxLength
  required : after.annotations.required = true ↔
    n.annotations.required = true ∨ d.contains "required" = true ∨ d.contains "index" = true
  primaryKey : after.annotations.primaryKey = true ↔
    n.annotations.primaryKey = true ∨ d.contains "id" = true ∨ d.contains "autoincrement" = true
  autoIncrement : after.annotations.autoIncrement = true ↔
    n.annotations.autoIncrement = true ∨ d.contains "autoincrement" = true
  index : after.annotations.index = true ↔ n.annotations.index = true ∨ d.contains "index" = true
  query : after.annotations.query = true ↔ n.annotations.query = true ∨ d.contains "query" = true

theorem directed_directed : (n.directed d identifier).directed d identifier = n.directed d identifier :=
  congrArg (fun a => { n with annotations := a }) (Annotations.annotate_annotate (n.is .integer))

theorem directed_congr (h : Directives.Agree d d') : n.directed d identifier = n.directed d' identifier :=
  congrArg (fun a => { n with annotations := a }) (Annotations.annotate_congr h (n.is .integer))

theorem directed_spec (n : Node) (d : Directives) (identifier : String) :
    n.Directed d identifier (n.directed d identifier) where
  type := rfl
  properties := rfl
  items := rfl
  additionalProperties := rfl
  enumValues := rfl
  optionLabels := rfl
  order := rfl
  title := by
    refine ⟨_, Directives.overrides_first? (by decide) (by decide), fun title h hne => ?_, fun h => ?_⟩
    · show some (Annotations.titled identifier _) = some title
      rw [h, Annotations.titled_of_ne_empty hne]
    · exact congrArg some (Annotations.titled_of_empty h)
  description := Directives.overrides_first? (by decide) (by decide)
  format := Directives.overrides_first? (by decide) (by decide)
  pattern := by
    have hpattern : d.first? ["pattern", "pattern"] = d.value? "pattern" := by
      rw [Directives.first?_eq (by decide) (by decide), ← Directives.value?_eq_get? (by decide), Option.or_self]
    show d.Overrides "pattern" "pattern" _ (d.value? "pattern" <|> n.annotations.pattern)
    rw [← hpattern]
    exact Directives.overrides_first? (by decide) (by decide)
  values h := by
    have hinteger : n.is .integer = false := by simpa [Node.is] using h
    simp [directed, Annotations.annotate, hinteger]
  lengths h := by
    have hinteger : n.is .integer = true := by simp [Node.is, h]
    simp [directed, Annotations.annotate, hinteger]
  required := (Annotations.flag_eq_true_iff (by decide)).trans (by simp)
  primaryKey := (Annotations.flag_eq_true_iff (by decide)).trans (by simp)
  autoIncrement := (Annotations.flag_eq_true_iff (by decide)).trans (by simp)
  index := (Annotations.flag_eq_true_iff (by decide)).trans (by simp)
  query := (Annotations.flag_eq_true_iff (by decide)).trans (by simp)

/-- Directives that are applied once more change nothing. The first time they change the annotations that their keys
stand for, as far as the type of the node has them; one with another key makes no difference, and neither do several.
This is how the comments of a declaration are applied. -/
theorem directed_confined (n : Node) (d : Directives) (identifier : String) :
    (n.directed d identifier).directed d identifier = n.directed d identifier ∧
    n.Directed d identifier (n.directed d identifier) ∧
    (∀ key value, Text.lowercase key ∉ recognized →
      n.directed (d.insert key value) identifier = n.directed d identifier) ∧
    (∀ d', Directives.Agree d d' → n.directed d identifier = n.directed d' identifier) ∧
    ∀ comments, n.annotate comments identifier = n.directed (.ofComments comments) identifier :=
  ⟨directed_directed, directed_spec n d identifier, fun _ value h => directed_congr (Directives.agree_insert h value),
    fun _ h => directed_congr h, fun comments => annotate_eq_directed n comments identifier⟩

/-- A number with a title and with bounds of both kinds. -/
def hits : Node := { plain .integer with annotations := { title := some "Hits", minimum := some 1, maxLength := some 9 } }

def hitsDirectives : Directives := .ofComments (some ⟨some "@autoincrement @min=few @fmt=a @FORMAT=b", none, []⟩)

theorem directed_confined_hits :
    let after := hits.directed hitsDirectives "hit_count"
    after.annotations.title = some "Hits" ∧ after.annotations.format = some "b" ∧
    after.annotations.maxLength = some 9 ∧ after.annotations.primaryKey = true ∧
    after.directed hitsDirectives "hit_count" = after ∧
    hits.directed (hitsDirectives.insert "Unit" "clicks") "hit_count" = after := by
  obtain ⟨hagain, hdirected, hother, -⟩ := directed_confined hits hitsDirectives "hit_count"
  obtain ⟨given, hgiven, hkept, -⟩ := hdirected.title
  have hnone : hitsDirectives.get? "title" = none ∧ hitsDirectives.get? "name" = none := by decide +kernel
  have htitle : given = some "Hits" := hgiven.of_none hnone.1 hnone.2
  exact ⟨hkept "Hits" htitle (by decide), hdirected.format.of_long "b" (by decide +kernel), (hdirected.lengths rfl).2,
    hdirected.primaryKey.2 (.inr (.inr (by decide +kernel))), hagain, hother "Unit" "clicks" (by decide +kernel)⟩

end Node
end Schema
end ProtoSchema
