import Mathlib.Data.List.Forall2
import ProtoSchema.DescriptorSet
import ProtoSchema.Proofs.Wire.Appending
/-!
# Descriptor sets one after the other

Bytes that are a descriptor set may be followed by another one. Both are read as they are on their own, so
sets that are joined hold the files of all of them in turn, and no file is any different for what stands
before or after it (`ofBytes_append`, and `ofBytes_flatten` for any number of them).
-/

namespace ProtoSchema

theorem filesIn_append (t t' : Wire.Tree) (number : Nat) :
    filesIn (t ++ t') number = filesIn t number ++ filesIn t' number := by
  rw [filesIn, Wire.Tree.messages_append, List.map_append]
  rfl

namespace DescriptorSet

variable {refusal : Wire.Refusal} {a b : Bytes} {files files' : List File}

theorem files?_nil : files? [] = some [] :=
  congrArg (Option.map (filesIn · 1)) Wire.decodeWith_nil

/-- What follows a descriptor set is read as if it stood alone, and is refused if it is alone. -/
theorem files?_append (ha : files? a = some files) (b : Bytes) : files? (a ++ b) = (files? b).map (files ++ ·) := by
  obtain ⟨t, ht, rfl⟩ := Option.map_eq_some_iff.1 ha
  have happend : Wire.tree? .fileSet (a ++ b) = (Wire.tree? .fileSet b).map (t ++ ·) := Wire.decode_append b ht
  unfold files?
  rw [happend]
  cases Wire.tree? .fileSet b with
  | none => rfl
  | some t' => exact congrArg some (filesIn_append t t' 1)

/-- Any number of descriptor sets may be joined. -/
theorem ofBytes_flatten {sets : List Bytes} {parts : List (List File)}
    (h : List.Forall₂ (fun bytes files => ofBytes refusal bytes = .ok files) sets parts) :
    ofBytes refusal sets.flatten = .ok parts.flatten := by
  rw [ofBytes_eq_ok_iff]
  induction h with
  | nil => exact files?_nil
  | cons hset _ ih =>
    rw [List.flatten_cons, List.flatten_cons, files?_append (ofBytes_eq_ok_iff.1 hset), ih]
    rfl

/-- Two descriptor sets one after the other are one that holds the files of the first and then those of the
second, each with all that is declared in it and with its own comments. -/
theorem ofBytes_append (ha : ofBytes refusal a = .ok files) (hb : ofBytes refusal b = .ok files') :
    ofBytes refusal (a ++ b) = .ok (files ++ files') := by
  rw [ofBytes_eq_ok_iff] at hb ⊢
  rw [files?_append (ofBytes_eq_ok_iff.1 ha), hb]
  rfl

/-- A file with one message and a comment on it. -/
def songFile (name comment : String) : File :=
  ⟨name, none, [⟨"Song", [], [], [], false, some ⟨some comment, none, []⟩⟩], []⟩

/-- The comment stands apart from the message, under the path 4, 0. -/
def songSet (name comment : String) : Bytes :=
  Wire.writeBlob 1 (Wire.writeText 1 name ++ Wire.writeBlob 4 (Wire.writeText 1 "Song") ++
    Wire.writeBlob 9 (Wire.writeBlob 1 (Wire.writeBlob 1 [4, 0] ++ Wire.writeText 3 comment)))

/-- The paths of the comments are the same in both sets. -/
theorem ofBytes_append_songs :
    ofBytes Wire.zeroRefusal (songSet "a.proto" "@title=Aria") = .ok [songFile "a.proto" "@title=Aria"] ∧
    ofBytes Wire.zeroRefusal (songSet "b.proto" "@title=Ballad") = .ok [songFile "b.proto" "@title=Ballad"] ∧
    ofBytes Wire.zeroRefusal (songSet "a.proto" "@title=Aria" ++ songSet "b.proto" "@title=Ballad") =
      .ok [songFile "a.proto" "@title=Aria", songFile "b.proto" "@title=Ballad"] := by
  have ha : files? (songSet "a.proto" "@title=Aria") = some [songFile "a.proto" "@title=Aria"] := by
    with_unfolding_all rfl
  have hb : files? (songSet "b.proto" "@title=Ballad") = some [songFile "b.proto" "@title=Ballad"] := by
    with_unfolding_all rfl
  rw [← ofBytes_eq_ok_iff] at ha hb
  exact ⟨ha, hb, ofBytes_append ha hb⟩

end DescriptorSet
end ProtoSchema
