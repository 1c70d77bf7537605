import Mathlib

/-!
# Outcomes

Checks and readers give a value or a fault. These lemmas take an outcome apart: when a mapped
outcome is a value, when a list of steps gives values, and which fault is met first.

Results:
* `Outcome.mapM_eq_ok_iff`: a list of steps succeeds iff every step does.
* `Outcome.exists_of_mapM_eq_error`: a list of steps fails with the fault of the first step that
  fails.
* `Outcome.exists_of_mem_mapM`: what a list of steps gives comes from the steps.
-/

namespace FactCube.Outcome

variable {ε α β γ : Type}

theorem map_eq_ok_iff {f : α → β} {x : Except ε α} {b : β} :
    x.map f = .ok b ↔ ∃ a, x = .ok a ∧ f a = b := by
  cases x with
  | error e => simp [Except.map]
  | ok a => simp [Except.map]

theorem map_eq_error_iff {f : α → β} {x : Except ε α} {e : ε} :
    x.map f = .error e ↔ x = .error e := by
  cases x <;> simp [Except.map]

theorem bind_eq_ok_iff {x : Except ε α} {f : α → Except ε β} {b : β} :
    x >>= f = .ok b ↔ ∃ a, x = .ok a ∧ f a = .ok b := by
  cases x with
  | error e => simp [bind, Except.bind]
  | ok a => simp [bind, Except.bind]

theorem map_map (f : α → β) (g : β → γ) (x : Except ε α) : (x.map f).map g = x.map (g ∘ f) := by
  cases x <;> rfl

theorem mapM_nil (f : α → Except ε β) : ([] : List α).mapM f = .ok [] := rfl

theorem mapM_cons (f : α → Except ε β) (a : α) (as : List α) :
    (a :: as).mapM f = (f a).bind fun b => (as.mapM f).map (b :: ·) := by
  rw [List.mapM_cons]
  cases f a with
  | error e => rfl
  | ok b => cases as.mapM f <;> rfl

/-- A list of steps succeeds iff every step does. -/
theorem mapM_eq_ok_iff {f : α → Except ε β} {as : List α} {bs : List β} :
    as.mapM f = .ok bs ↔ List.Forall₂ (fun a b => f a = .ok b) as bs := by
  induction as generalizing bs with
  | nil => rw [mapM_nil, Except.ok.injEq, List.forall₂_nil_left_iff, eq_comm]
  | cons a as ih =>
    rw [mapM_cons]
    cases hf : f a with
    | error e => simp [Except.bind, hf, List.forall₂_cons_left_iff]
    | ok b =>
      rw [Except.bind, map_eq_ok_iff, List.forall₂_cons_left_iff]
      constructor
      · rintro ⟨bs', hbs, rfl⟩
        exact ⟨b, bs', hf, ih.1 hbs, rfl⟩
      · rintro ⟨b', bs', hb, hbs, rfl⟩
        rw [hf, Except.ok.injEq] at hb
        exact ⟨bs', ih.2 hbs, by rw [hb]⟩

/-- A list of steps that fails does so with the fault of the first step that fails. -/
theorem exists_of_mapM_eq_error {f : α → Except ε β} {as : List α} {e : ε}
    (h : as.mapM f = .error e) :
    ∃ before a after, as = before ++ a :: after ∧ (∀ b ∈ before, ∃ v, f b = .ok v) ∧
      f a = .error e := by
  induction as with
  | nil =>
    rw [mapM_nil] at h
    cases h
  | cons a as ih =>
    rw [mapM_cons] at h
    cases ha : f a with
    | error e' =>
      rw [ha, Except.bind] at h
      cases h
      exact ⟨[], a, as, rfl, List.forall_mem_nil _, ha⟩
    | ok v =>
      rw [ha, Except.bind, map_eq_error_iff] at h
      obtain ⟨before, b, after, rfl, hbefore, hb⟩ := ih h
      exact ⟨a :: before, b, after, rfl, List.forall_mem_cons.2 ⟨⟨v, ha⟩, hbefore⟩, hb⟩

/-- A list of steps succeeds iff each of them does. -/
theorem exists_mapM_eq_ok_iff {f : α → Except ε β} {as : List α} :
    (∃ bs, as.mapM f = .ok bs) ↔ ∀ a ∈ as, ∃ b, f a = .ok b := by
  constructor
  · rintro ⟨bs, hbs⟩ a ha
    obtain ⟨i, hi, rfl⟩ := List.mem_iff_getElem.1 ha
    have hall := mapM_eq_ok_iff.1 hbs
    have hlength := hall.length_eq
    exact ⟨_, hall.get hi (by omega)⟩
  · intro h
    cases hmap : as.mapM f with
    | ok bs => exact ⟨bs, rfl⟩
    | error e =>
      obtain ⟨before, a, after, rfl, -, ha⟩ := exists_of_mapM_eq_error hmap
      obtain ⟨b, hb⟩ := h a (by simp)
      rw [ha] at hb
      cases hb

/-- What a list of steps gives comes from the steps. -/
theorem exists_of_mem_mapM {f : α → Except ε β} {as : List α} {bs : List β}
    (h : as.mapM f = .ok bs) {b : β} (hb : b ∈ bs) : ∃ a ∈ as, f a = .ok b := by
  rw [mapM_eq_ok_iff] at h
  induction h with
  | nil => cases hb
  | @cons a b' as bs ha _ ih =>
    rcases List.mem_cons.1 hb with rfl | hb
    · exact ⟨a, List.mem_cons_self, ha⟩
    · obtain ⟨a', hmem, ha'⟩ := ih hb
      exact ⟨a', List.mem_cons_of_mem _ hmem, ha'⟩

/-- What a list of steps gives is what its steps give. -/
theorem mem_iff_of_mapM {f : α → Except ε β} {as : List α} {bs : List β}
    (h : as.mapM f = .ok bs) {b : β} : b ∈ bs ↔ ∃ a ∈ as, f a = .ok b := by
  refine ⟨exists_of_mem_mapM h, ?_⟩
  rintro ⟨a, ha, hb⟩
  obtain ⟨i, hi, rfl⟩ := List.mem_iff_getElem.1 ha
  have hall := mapM_eq_ok_iff.1 h
  have hlength := hall.length_eq
  have hget := hall.get hi (by omega)
  rw [List.get_eq_getElem, hb, Except.ok.injEq] at hget
  exact hget ▸ List.getElem_mem _

end FactCube.Outcome
