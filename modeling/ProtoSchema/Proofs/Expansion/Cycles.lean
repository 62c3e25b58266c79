import Mathlib.Logic.Relation
import ProtoSchema.Proofs.Catalog.FileSet
import ProtoSchema.Proofs.Expansion.FirstFault
/-!
# References of a file set

The references between the messages of a file set form a graph. A walk through
the fields of a message sees one path of it at a time, and yet a message has a
schema exactly when all that it reaches is in order and nothing among it reaches
itself (`schemaIn_isOk_iff`). Several paths to one message are no cycle.
-/

namespace ProtoSchema

open Relation

variable {files : List File} {a b d : Declaration} {path : List Place}

/-- A field of `a` refers to `b`, as read in the scope of the package of `a`. -/
def Refers (files : List File) (a b : Declaration) : Prop :=
  ∃ f ∈ a.message.fields, (f.kind = .message ∨ f.kind = .group) ∧
    ∃ s, (Catalog.ofFiles files).lookup (homeScope files a) f.typeName = some (b, s)

/-- The fields of `a` have known kinds, and those that refer to a message refer to one that exists. -/
structure InOrder (files : List File) (a : Declaration) : Prop where
  known : ∀ f ∈ a.message.fields, ∀ n, f.kind ≠ .unknown n
  resolved : ∀ f ∈ a.message.fields, f.kind = .message ∨ f.kind = .group →
    ∃ found, (Catalog.ofFiles files).lookup (homeScope files a) f.typeName = some found

/-- The message `a` entered from the messages at the places of `path`. -/
def visitOf (files : List File) (path : List Place) (a : Declaration) : Visit :=
  ⟨a.place :: path, homeScope files a, a.message⟩

theorem refers_of_lookup {f : Field} {s : Scope} (hf : f ∈ a.message.fields)
    (hk : f.kind = .message ∨ f.kind = .group)
    (hl : (Catalog.ofFiles files).lookup (homeScope files a) f.typeName = some (b, s)) :
    Refers files a b ∧ Declared files b ∧ s = homeScope files b :=
  ⟨⟨f, hf, hk, s, hl⟩, declared_of_lookup hl⟩

/-! ## From a fault to the graph -/

/-- A fault lies in something reached that is not in order, or that reaches itself. The latter is so
wherever a reference is found to be cyclic. -/
theorem LeadsTo.exists_reached {v : Visit} {p : List Nat} {e : ConversionError}
    (h : LeadsTo (.ofFiles files) v p e) (hv : v = visitOf files path a)
    (hpath : ∀ x ∈ v.path, ∃ b, Declared files b ∧ b.place = x ∧ ReflTransGen (Refers files) b a) :
    ∃ r, ReflTransGen (Refers files) a r ∧
      (TransGen (Refers files) r r ∨ ¬ InOrder files r ∧ ∀ t g m, e ≠ .cyclicReference t g m) := by
  induction h generalizing path a with
  | here hf h =>
    subst hv
    have hm := List.mem_of_getElem? hf
    refine ⟨a, .refl, ?_⟩
    cases h with
    | kind hk => exact .inr ⟨fun h => h.known _ hm _ hk, by simp⟩
    | reference hk hl =>
      refine .inr ⟨fun h => ?_, by simp⟩
      obtain ⟨found, hfound⟩ := h.resolved _ hm hk
      exact absurd (hl.symm.trans hfound) (by simp)
    | cycle hk hl hp =>
      obtain ⟨hr, hd, -⟩ := refers_of_lookup hm hk hl
      -- The message referred to is on the path, and all messages on the path lead here.
      obtain ⟨b, hb, hbp, hba⟩ := hpath _ hp
      obtain rfl := hb.eq_of_place_eq hd hbp
      exact .inl (.head' hr hba)
  | through hf hw h ih =>
    subst hv
    obtain ⟨hk, hl, hp⟩ := hw
    obtain ⟨hr, hd, rfl⟩ := refers_of_lookup (List.mem_of_getElem? hf) hk hl
    obtain ⟨r, hbr, hr'⟩ := ih rfl fun x hx => by
      rcases List.mem_cons.1 hx with rfl | hx
      · exact ⟨_, hd, rfl, .refl⟩
      · obtain ⟨b, hb, hbp, hba⟩ := hpath x hx
        exact ⟨b, hb, hbp, hba.tail hr⟩
    exact ⟨r, .head hr hbr, hr'⟩

/-! ## From the graph to a fault -/

/-- No fault on any walk from `a`, which is entered from the messages of `path`. -/
def Faultless (files : List File) (path : List Place) (a : Declaration) : Prop :=
  ∀ p e, ¬ LeadsTo (.ofFiles files) (visitOf files path a) p e

theorem Faultless.refers (h : Faultless files path a) (hr : Refers files a b) :
    b.place ∉ a.place :: path ∧ Faultless files (a.place :: path) b := by
  obtain ⟨f, hf, hk, s, hl⟩ := hr
  obtain ⟨i, hi⟩ := List.mem_iff_getElem?.1 hf
  have hb : b.place ∉ a.place :: path := fun hp => h _ _ (.here hi (.cycle hk hl hp))
  refine ⟨hb, fun p e hp => h (i :: p) e (.through hi (.intro hk hl hb) ?_)⟩
  rw [(declared_of_lookup hl).2]
  exact hp

theorem Faultless.reaches (h : Faultless files path a) (hr : ReflTransGen (Refers files) a b) :
    ∃ path', a.place :: path ⊆ b.place :: path' ∧ Faultless files path' b := by
  induction hr with
  | refl => exact ⟨path, List.Subset.refl _, h⟩
  | tail _ hr ih =>
    obtain ⟨path', hsub, h'⟩ := ih
    exact ⟨_, List.subset_cons_of_subset _ hsub, (h'.refers hr).2⟩

theorem Faultless.inOrder (h : Faultless files path a) : InOrder files a where
  known f hf n hk := by
    obtain ⟨i, hi⟩ := List.mem_iff_getElem?.1 hf
    exact h _ _ (.here hi (.kind hk))
  resolved f hf hk := by
    obtain ⟨i, hi⟩ := List.mem_iff_getElem?.1 hf
    cases hl : (Catalog.ofFiles files).lookup (homeScope files a) f.typeName with
    | some found => exact ⟨found, rfl⟩
    | none => exact absurd (.here hi (.reference hk hl)) (h _ _)

theorem Faultless.not_cyclic (h : Faultless files path a) : ¬ TransGen (Refers files) a a := by
  intro hc
  obtain ⟨b, hab, hba⟩ := TransGen.tail'_iff.1 hc
  -- The last message of the cycle is entered while `a` still is.
  obtain ⟨path', hsub, h'⟩ := h.reaches hab
  exact (h'.refers hba).1 (hsub (.head _))

/-! ## The schema of a message of the set -/

/-- The schema of a top-level message of a file, as its document holds it. -/
def schemaIn (files : List File) (o : Options) (f : File) (d : Declaration) :
    Except ConversionError Schema.Node :=
  Schema.ofMessage (.ofFiles files) o (((Catalog.ofFiles files).enter [] f.packageName).getD []) d f.enums

/-- The documents of a file that declares messages hold these schemas, in the order of the messages. -/
theorem fileOutputs_eq_mapM {f : File} (hf : f.messages ≠ []) (o : Options) (i : Nat) :
    Generation.fileOutputs (.ofFiles files) o f i = (f.declarations i).mapM fun d =>
      match schemaIn files o f d with
      | .ok node => .ok ⟨f.outputName o d.message.name, node⟩
      | .error e => .error (.conversion f.name e) := by
  unfold Generation.fileOutputs
  rw [if_neg (by simpa using hf)]
  rfl

theorem start_eq_visitOf {f : File} {i : Nat} (hf : files[i]? = some f) (hd : d ∈ f.declarations i) :
    Declared files d ∧
      Visit.start (((Catalog.ofFiles files).enter [] f.packageName).getD []) d = visitOf files [] d := by
  obtain ⟨j, m, hm, rfl⟩ := mem_declarations.1 hd
  refine ⟨⟨_, definition_mem hf hm, rfl⟩, ?_⟩
  rw [enter_ofFiles hf hm]
  exact congrArg (Visit.mk _ · _) (scope_eq_homeScope _ (definition_mem hf hm))

/-- A top-level message of a file has a schema if and only if all messages that it reaches are in
order and none of them reaches itself; and a reference is called cyclic only where one does. -/
theorem schemaIn_isOk_iff {f : File} {i : Nat} (hf : files[i]? = some f) (hd : d ∈ f.declarations i)
    (o : Options) :
    ((∃ node, schemaIn files o f d = .ok node) ↔ ∀ r, ReflTransGen (Refers files) d r →
      InOrder files r ∧ ¬ TransGen (Refers files) r r) ∧
    ∀ t g m, schemaIn files o f d = .error (.cyclicReference t g m) →
      ∃ r, ReflTransGen (Refers files) d r ∧ TransGen (Refers files) r r := by
  obtain ⟨hdec, hstart⟩ := start_eq_visitOf hf hd
  have hpath : ∀ x ∈ (visitOf files [] d).path,
      ∃ b, Declared files b ∧ b.place = x ∧ ReflTransGen (Refers files) b d := by
    intro x hx
    obtain rfl := List.mem_singleton.1 hx
    exact ⟨d, hdec, rfl, .refl⟩
  refine ⟨?_, fun t g m he => ?_⟩
  · rw [schemaIn, ofMessage_eq_ok, hstart]
    constructor
    · intro (h : Faultless files [] d) r hr
      obtain ⟨path, -, h'⟩ := h.reaches hr
      exact ⟨h'.inOrder, h'.not_cyclic⟩
    · intro h p e hp
      obtain ⟨r, hr, hc | ⟨hi, -⟩⟩ := hp.exists_reached rfl hpath
      · exact (h r hr).2 hc
      · exact hi (h r hr).1
  · rw [schemaIn, ofMessage_eq_error, hstart] at he
    obtain ⟨p, hp, -⟩ := exists_first_fault he
    obtain ⟨r, hr, hc | ⟨-, hne⟩⟩ := hp.exists_reached rfl hpath
    · exact ⟨r, hr, hc⟩
    · exact absurd rfl (hne t g m)

/-- A message with one field for each type name. -/
def referring (name : String) (typeNames : List String) : Message where
  name
  fields := typeNames.map fun t => ⟨t, t, 1, .message, .optional, t, none⟩
  nested := []
  enums := []
  mapEntry := false
  comments := none

/-- Two ways lead from `Order` to `Money`, through relative names and across packages. -/
def orderFile : File where
  name := "order.proto"
  package := some "shop"
  messages := [referring "Order" ["Total", ".bank.Fee"], referring "Total" ["bank.Money"]]
  enums := []

def bankFile : File where
  name := "bank.proto"
  package := some "bank"
  messages := [referring "Fee" ["Money"], referring "Money" []]
  enums := []

theorem schemaIn_isOk_iff_diamond :
    [orderFile, bankFile][0]? = some orderFile ∧
    ⟨[0, 0], referring "Order" ["Total", ".bank.Fee"]⟩ ∈ orderFile.declarations 0 ∧
    (((∃ node, schemaIn [orderFile, bankFile] {} orderFile
        ⟨[0, 0], referring "Order" ["Total", ".bank.Fee"]⟩ = .ok node) ↔
      ∀ r, ReflTransGen (Refers [orderFile, bankFile]) ⟨[0, 0], referring "Order" ["Total", ".bank.Fee"]⟩ r →
        InOrder [orderFile, bankFile] r ∧ ¬ TransGen (Refers [orderFile, bankFile]) r r) ∧
    ∀ t g m, schemaIn [orderFile, bankFile] {} orderFile
        ⟨[0, 0], referring "Order" ["Total", ".bank.Fee"]⟩ = .error (.cyclicReference t g m) →
      ∃ r, ReflTransGen (Refers [orderFile, bankFile]) ⟨[0, 0], referring "Order" ["Total", ".bank.Fee"]⟩ r ∧
        TransGen (Refers [orderFile, bankFile]) r r) :=
  ⟨rfl, .head _, schemaIn_isOk_iff rfl (.head _) {}⟩

end ProtoSchema
