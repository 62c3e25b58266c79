import ProtoSchema.Program
import ProtoSchema.Proofs.Storage.Changes
/-!
# Writing texts in turn

A text that has been written stands where its path leads, until another one is written
to the same place (`storeAll_run`). However far the writing comes, nothing is changed but
where the paths lead and on their ways (`storeAll_confined`).
-/

namespace ProtoSchema.Program

open Disk (Grows Confined)

variable {d d' : Disk} {path text : String}

theorem prepare_run (path : String) (d : Disk) :
    Confined (d.PassedBy path) (fun _ => False) d ((prepare Disk.fileSystem path).run d).2 := by
  unfold prepare
  split
  · exact .refl d
  · next parent hparent =>
    have haround : ∀ p, d.PassedBy (String.ofList parent) p → d.PassedBy path p := fun p hp => by
      simpa using Disk.passedBy_parent hparent hp
    refine .bind ((Disk.makeAll_run parent d).mono haround fun _ => id) fun result d' _ => ?_
    cases result <;> exact .refl d'

/-- A text that is stored stands where its path leads, and no other file is different. -/
theorem store_run (h : (store Disk.fileSystem path text).run d = (.ok (), d')) : ∃ p, d'.place path = .ok p ∧
    Grows d d' ∧ ∀ r, d'.bytes? r = if r = p then some (Bytes.ofText text) else d.bytes? r := by
  have hgrows := (prepare_run path d).grows
  have hbytes := (prepare_run path d).bytes?_eq
  rw [store, StateT.run_bind] at h
  cases hprepare : (prepare Disk.fileSystem path).run d with
  | mk result d₁ =>
    rw [hprepare] at hgrows hbytes h
    cases result with
    | error e => cases h
    | ok =>
      replace h : (Disk.fileSystem.write path (Bytes.ofText text) >>= _).run d₁ = (Except.ok (), d') := h
      rw [StateT.run_bind] at h
      cases hwrite : d₁.write path (Bytes.ofText text) with
      | error cause =>
        have hrun : (Disk.fileSystem.write path (Bytes.ofText text)).run d₁ = (.error cause, d₁) :=
          Disk.attempt_run_error hwrite
        rw [hrun] at h
        cases h
      | ok d₂ =>
        have hrun : (Disk.fileSystem.write path (Bytes.ofText text)).run d₁ = (.ok (), d₂) :=
          Disk.attempt_run_ok hwrite
        rw [hrun] at h
        obtain rfl : d₂ = d' := congrArg Prod.snd h
        obtain ⟨p, hplace, hgrows', hbytes'⟩ := Disk.write_grows hwrite
        refine ⟨p, hgrows'.place hplace, hgrows.trans hgrows', fun r => ?_⟩
        rw [hbytes', hbytes]

/-- Whether or not a text is stored, it is so where its path leads, and directories are made on the way. -/
theorem store_confined (path text : String) (d : Disk) :
    Confined (d.PassedBy path) (· = d.spot path) d ((store Disk.fileSystem path text).run d).2 := by
  refine .bind ((prepare_run path d).mono (fun _ => id) fun _ => False.elim) fun result d' h' => ?_
  cases result with
  | error e => exact .refl d'
  | ok =>
    refine .bind (Disk.attempt_confined fun d'' hwrite => ?_) fun result d'' _ => ?_
    · rw [← h'.spot_eq]
      exact Disk.write_confined hwrite
    · cases result <;> exact .refl d''

theorem storeAll_confined (texts : List (String × String)) (d : Disk) :
    Confined (fun p => ∃ t ∈ texts, d.PassedBy t.1 p) (fun p => ∃ t ∈ texts, p = d.spot t.1) d
      ((storeAll Disk.fileSystem texts).run d).2 := by
  induction texts generalizing d with
  | nil => exact .refl d
  | cons t texts ih =>
    obtain ⟨path, text⟩ := t
    refine .bind ((store_confined path text d).mono (fun p hp => ⟨_, .head _, hp⟩) fun p hp => ⟨_, .head _, hp⟩)
      fun result d' h' => ?_
    cases result with
    | error e => exact .refl d'
    | ok =>
      refine (ih d').mono (fun p hp => ?made) fun p hp => ?written
      case made =>
        obtain ⟨t, ht, hpassed⟩ := hp
        exact ⟨t, .tail _ ht, h'.passedBy_eq t.1 ▸ hpassed⟩
      case written =>
        obtain ⟨t, ht, hspot⟩ := hp
        exact ⟨t, .tail _ ht, h'.spot_eq t.1 ▸ hspot⟩

/-- After texts have been stored in turn, each path leads to a place, and in every place there is the last
text whose path leads there; all other files are as they were. -/
theorem storeAll_run {texts : List (String × String)} (h : (storeAll Disk.fileSystem texts).run d = (.ok (), d')) :
    Grows d d' ∧ (∀ t ∈ texts, ∃ p, d'.place t.1 = .ok p) ∧ ∀ r, d'.bytes? r =
      ((texts.reverse.find? fun t => d'.place t.1 = .ok r).map fun t => Bytes.ofText t.2).or (d.bytes? r) := by
  induction texts generalizing d with
  | nil =>
    obtain rfl : d = d' := congrArg Prod.snd h
    exact ⟨.refl d, by simp, fun r => rfl⟩
  | cons t texts ih =>
    obtain ⟨path, text⟩ := t
    rw [storeAll, StateT.run_bind] at h
    cases hstore : (store Disk.fileSystem path text).run d with
    | mk result d₁ =>
      rw [hstore] at h
      cases result with
      | error e => cases h
      | ok =>
        obtain ⟨p, hplace, hgrows, hbytes⟩ := store_run hstore
        obtain ⟨hgrows', hplaces, hbytes'⟩ := ih h
        refine ⟨hgrows.trans hgrows', List.forall_mem_cons.2 ⟨⟨p, hgrows'.place hplace⟩, hplaces⟩, fun r => ?_⟩
        have hfirst : [(path, text)].find? (fun t => d'.place t.1 = .ok r) = if r = p then some (path, text) else none := by
          rw [List.find?_cons, hgrows'.place hplace]
          by_cases hr : r = p
          · simp [hr]
          · simp [hr, Ne.symm hr]
        rw [hbytes', hbytes, List.reverse_cons, List.find?_append, hfirst]
        cases texts.reverse.find? fun t => d'.place t.1 = .ok r with
        | some t => rfl
        | none => by_cases hr : r = p <;> simp [hr]

end ProtoSchema.Program
