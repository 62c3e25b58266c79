import Mathlib.Data.List.Forall2
/-!
# Results that may be errors

What a computation in several steps, or one that goes through a list, answers: a
result if every step has one, else the first error.
-/

namespace ProtoSchema

section
variable {ε α β : Type} {x : Except ε α} {y : β}

theorem map_eq_ok_iff {f : α → β} : x.map f = .ok y ↔ ∃ a, x = .ok a ∧ f a = y := by
  cases x <;> simp [Except.map]

theorem bind_eq_ok_iff {f : α → Except ε β} : x.bind f = .ok y ↔ ∃ a, x = .ok a ∧ f a = .ok y := by
  cases x <;> simp [Except.bind]

end

section
variable {ε α β γ : Type}

/-- Going through a list succeeds when it does so at every element. -/
theorem mapM_eq_ok_iff {g : α → Except ε β} {l : List α} {r : List β} :
    l.mapM g = .ok r ↔ List.Forall₂ (fun a b => g a = .ok b) l r := by
  induction l generalizing r with
  | nil => cases r <;> simp [pure, Except.pure]
  | cons a l ih =>
    rw [List.mapM_cons]
    constructor
    · intro h
      obtain ⟨b, hb, h⟩ := bind_eq_ok_iff.1 h
      obtain ⟨bs, hbs, h⟩ := bind_eq_ok_iff.1 h
      obtain rfl := Except.ok.inj h
      exact .cons hb (ih.1 hbs)
    · rintro (_ | ⟨hb, hbs⟩)
      exact bind_eq_ok_iff.2 ⟨_, hb, bind_eq_ok_iff.2 ⟨_, ih.2 hbs, rfl⟩⟩

/-- Going through a list stops at the first element where it fails. -/
theorem mapM_eq_error_iff {g : α → Except ε β} {l : List α} {e : ε} :
    l.mapM g = .error e ↔ ∃ (j : Nat) (a : α), l[j]? = some a ∧ (∀ k < j, ∀ b, l[k]? = some b → ∃ r, g b = .ok r) ∧
      g a = .error e := by
  induction l with
  | nil => simp [pure, Except.pure]
  | cons a l ih =>
    rw [List.mapM_cons]
    cases hg : g a with
    | error e' =>
      constructor
      · intro h
        obtain rfl : e' = e := Except.error.inj h
        exact ⟨0, a, rfl, by simp, hg⟩
      · rintro ⟨_ | j, a', ha', hbefore, he⟩
        · obtain rfl := Option.some.inj ha'
          exact congrArg Except.error (Except.error.inj (hg.symm.trans he))
        · obtain ⟨r, hr⟩ := hbefore 0 (Nat.succ_pos j) a rfl
          cases hg.symm.trans hr
    | ok b =>
      have hrest : ((do let b ← Except.ok b; let bs ← l.mapM g; pure (b :: bs)) = Except.error e) ↔
          l.mapM g = .error e := by
        cases l.mapM g <;> simp [bind, Except.bind, pure, Except.pure]
      rw [hrest, ih]
      constructor
      · rintro ⟨j, a', ha', hbefore, he⟩
        refine ⟨j + 1, a', ha', fun k hk c hc => ?_, he⟩
        cases k with
        | zero => exact ⟨b, (Option.some.inj hc) ▸ hg⟩
        | succ k => exact hbefore k (Nat.lt_of_succ_lt_succ hk) c hc
      · rintro ⟨_ | j, a', ha', hbefore, he⟩
        · obtain rfl := Option.some.inj ha'
          cases hg.symm.trans he
        · exact ⟨j, a', ha', fun k hk => hbefore (k + 1) (Nat.succ_lt_succ hk), he⟩

theorem exists_of_mapM_eq_ok {g : α → Except ε β} {l : List α} {r : List β} (h : l.mapM g = .ok r) :
    ∀ a ∈ l, ∃ b, g a = .ok b := by
  intro a ha
  obtain ⟨k, hk⟩ := List.mem_iff_getElem?.1 ha
  obtain ⟨hlt, rfl⟩ := List.getElem?_eq_some_iff.1 hk
  have hall := mapM_eq_ok_iff.1 h
  exact ⟨_, hall.get hlt (hall.length_eq ▸ hlt)⟩

/-- Going through a list succeeds where no element fails. -/
theorem mapM_isOk_iff {g : α → Except ε β} {l : List α} : (∃ r, l.mapM g = .ok r) ↔ ∀ a ∈ l, ∃ b, g a = .ok b := by
  constructor
  · rintro ⟨r, hr⟩
    exact exists_of_mapM_eq_ok hr
  · intro hall
    cases h : l.mapM g with
    | ok r => exact ⟨r, rfl⟩
    | error e =>
      obtain ⟨j, a, ha, -, hfails⟩ := mapM_eq_error_iff.1 h
      obtain ⟨b, hb⟩ := hall a (List.mem_of_getElem? ha)
      cases hfails.symm.trans hb

/-- What can be told of each result from its element can be told of all results. -/
theorem map_of_mapM_eq_ok {g : α → Except ε β} {k : α → γ} {k' : β → γ} {l : List α} {r : List β}
    (h : l.mapM g = .ok r) (hk : ∀ a b, g a = .ok b → k' b = k a) : r.map k' = l.map k := by
  have hall := mapM_eq_ok_iff.1 h
  clear h
  induction hall with
  | nil => rfl
  | cons hab _ ih => rw [List.map_cons, List.map_cons, hk _ _ hab, ih]

theorem mapM_eq_of_forall₂ {g : α → Except ε γ} {g' : β → Except ε γ} {l : List α} {l' : List β}
    (h : List.Forall₂ (fun a b => g' b = g a) l l') : l'.mapM g' = l.mapM g := by
  induction h with
  | nil => rfl
  | cons hab _ ih => rw [List.mapM_cons, List.mapM_cons, hab, ih]

/-- Steps that lead somewhere lead there also where every step can be made as before. -/
theorem foldlM_of_steps {g g' : β → α → Except ε β} (h : ∀ {b a b'}, g b a = .ok b' → g' b a = .ok b') {l : List α}
    {b r : β} (hl : l.foldlM g b = .ok r) : l.foldlM g' b = .ok r := by
  induction l generalizing b with
  | nil => exact hl
  | cons a l ih =>
    rw [List.foldlM_cons] at hl ⊢
    obtain ⟨next, hnext, hl⟩ := bind_eq_ok_iff.1 hl
    rw [h hnext]
    exact ih hl

end

end ProtoSchema
