import Mathlib.Data.List.Forall2

/-! Computations that may fail, step by step and over lists. -/

namespace ManchesterBaby

variable {α β γ ε δ : Type}

theorem bind_eq_ok_iff {x : Except ε α} {g : α → Except ε β} {b : β} :
    (x >>= g) = .ok b ↔ ∃ a, x = .ok a ∧ g a = .ok b := by
  cases x <;> simp [bind, Except.bind]

theorem check_bind_eq_ok_iff {x : Except ε Unit} {y : Except ε β} {b : β} :
    (x >>= fun _ => y) = .ok b ↔ x = .ok () ∧ y = .ok b := by
  cases x <;> simp [bind, Except.bind]

theorem pure_eq_ok_iff {a b : α} : (pure a : Except ε α) = .ok b ↔ a = b := by
  simp [pure, Except.pure]

theorem bind_eq_error_iff {x : Except ε α} {g : α → Except ε β} {e : ε} :
    (x >>= g) = .error e ↔ x = .error e ∨ ∃ a, x = .ok a ∧ g a = .error e := by
  cases x <;> simp [bind, Except.bind]

theorem map_eq_ok_iff {x : Except ε α} {g : α → β} {b : β} :
    x.map g = .ok b ↔ ∃ a, x = .ok a ∧ g a = b := by
  cases x <;> simp [Except.map]

theorem mapM_cons_ok {g : α → Except ε β} {a : α} {b : β} (h : g a = .ok b) (l : List α) :
    (a :: l).mapM g = (l.mapM g).map (b :: ·) := by
  rw [List.mapM_cons, h]
  cases l.mapM g <;> rfl

theorem mapM_cons_error {g : α → Except ε β} {a : α} {e : ε} (h : g a = .error e) (l : List α) :
    (a :: l).mapM g = .error e := by
  rw [List.mapM_cons, h]
  rfl

theorem mapM_congr {g h : α → Except ε β} {l : List α} (hl : ∀ a ∈ l, g a = h a) :
    l.mapM g = l.mapM h := by
  induction l with
  | nil => rfl
  | cons a l ih =>
    obtain ⟨ha, hl⟩ := List.forall_mem_cons.mp hl
    rw [List.mapM_cons, List.mapM_cons, ha, ih hl]

theorem mapM_append {g : α → Except ε β} (l m : List α) :
    (l ++ m).mapM g = l.mapM g >>= fun r => (m.mapM g).map (r ++ ·) := by
  rw [List.mapM_append]
  cases l.mapM g with
  | error e => rfl
  | ok r => cases m.mapM g <;> rfl

theorem mapM_eq_ok_iff {g : α → Except ε β} {l : List α} {r : List β} :
    l.mapM g = .ok r ↔ List.Forall₂ (fun a b => g a = .ok b) l r := by
  induction l generalizing r with
  | nil => simp [pure, Except.pure, eq_comm]
  | cons a l ih =>
    cases ha : g a with
    | error e => simp [mapM_cons_error ha, List.forall₂_cons_left_iff, ha]
    | ok b =>
      simp only [mapM_cons_ok ha, map_eq_ok_iff, List.forall₂_cons_left_iff, ih, ha,
        Except.ok.injEq]
      constructor
      · rintro ⟨s, hs, rfl⟩
        exact ⟨b, s, rfl, hs, rfl⟩
      · rintro ⟨c, s, rfl, hs, rfl⟩
        exact ⟨s, hs, rfl⟩

theorem mapM_eq_mapM {g : α → Except ε β} {h : δ → Except ε β} {l : List α} {m : List δ}
    (hl : List.Forall₂ (fun a d => g a = h d) l m) : l.mapM g = m.mapM h := by
  induction hl with
  | nil => rfl
  | cons hd _ ih => rw [List.mapM_cons, List.mapM_cons, hd, ih]

theorem mapM_eq_some_iff {g : α → Option β} {l : List α} {r : List β} :
    l.mapM g = some r ↔ List.Forall₂ (fun a b => g a = some b) l r := by
  induction l generalizing r with
  | nil => simp [eq_comm]
  | cons a l ih =>
    simp only [List.mapM_cons, Option.bind_eq_bind, Option.bind_eq_some_iff,
      List.forall₂_cons_left_iff, ih, Option.pure_def, Option.some.injEq]
    constructor
    · rintro ⟨b, hb, s, hs, rfl⟩
      exact ⟨b, s, hb, hs, rfl⟩
    · rintro ⟨b, s, hb, hs, rfl⟩
      exact ⟨b, hb, s, hs, rfl⟩

theorem exists_mapM_eq_ok_iff {g : α → Except ε β} {l : List α} :
    (∃ r, l.mapM g = .ok r) ↔ ∀ a ∈ l, ∃ b, g a = .ok b := by
  induction l with
  | nil => exact ⟨fun _ _ h => absurd h List.not_mem_nil, fun _ => ⟨[], rfl⟩⟩
  | cons a l ih =>
    cases ha : g a with
    | error e => simp [mapM_cons_error ha, ha]
    | ok b => simp [mapM_cons_ok ha, map_eq_ok_iff, ha, ih]

theorem map_eq_error_iff {x : Except ε α} {g : α → β} {e : ε} :
    x.map g = .error e ↔ x = .error e := by
  cases x <;> simp [Except.map]

theorem toOption_eq_some_iff {x : Except ε α} {a : α} : x.toOption = some a ↔ x = .ok a := by
  cases x <;> simp [Except.toOption]

theorem mapError_eq_ok_iff {x : Except ε α} {h : ε → δ} {a : α} :
    x.mapError h = .ok a ↔ x = .ok a := by
  cases x <;> simp [Except.mapError]

theorem mapError_eq_error_iff {x : Except ε α} {h : ε → δ} {d : δ} :
    x.mapError h = .error d ↔ ∃ e, x = .error e ∧ h e = d := by
  cases x <;> simp [Except.mapError]

theorem map_mapError (x : Except ε α) (g : α → β) (h : ε → δ) :
    (x.map g).mapError h = (x.mapError h).map g := by
  cases x <;> rfl

theorem toOption_mapError (x : Except ε α) (h : ε → δ) :
    (x.mapError h).toOption = x.toOption := by
  cases x <;> rfl

theorem eq_filterMap_of_mapM {g : α → Except ε β} {l : List α} {r : List β}
    (h : l.mapM g = .ok r) : r = l.filterMap fun a => (g a).toOption := by
  have hf := mapM_eq_ok_iff.mp h
  clear h
  induction hf with
  | nil => rfl
  | cons ha _ ih =>
    rw [List.filterMap_cons, ← ih]
    simp only [ha, Except.toOption]

/-- The first element that fails decides. -/
theorem mapM_eq_error_iff {g : α → Except ε β} {l : List α} {e : ε} :
    l.mapM g = .error e ↔ ∃ before a after, l = before ++ a :: after ∧
      (∀ x ∈ before, ∃ b, g x = .ok b) ∧ g a = .error e := by
  induction l with
  | nil => simp [pure, Except.pure]
  | cons a l ih =>
    cases ha : g a with
    | error e' =>
      rw [mapM_cons_error ha]
      constructor
      · rintro ⟨⟩
        exact ⟨[], a, l, rfl, by simp, ha⟩
      · rintro ⟨before, x, after, hl, hb, hx⟩
        cases before with
        | nil =>
          obtain ⟨rfl, -⟩ := List.cons.inj hl
          exact congrArg _ (Except.error.inj (ha.symm.trans hx))
        | cons y before =>
          obtain ⟨rfl, -⟩ := List.cons.inj hl
          obtain ⟨b, hy⟩ := hb a List.mem_cons_self
          rw [ha] at hy
          cases hy
    | ok b =>
      rw [mapM_cons_ok ha, map_eq_error_iff, ih]
      constructor
      · rintro ⟨before, x, after, rfl, hb, hx⟩
        exact ⟨a :: before, x, after, rfl, List.forall_mem_cons.mpr ⟨⟨b, ha⟩, hb⟩, hx⟩
      · rintro ⟨before, x, after, hl, hb, hx⟩
        cases before with
        | nil =>
          obtain ⟨rfl, -⟩ := List.cons.inj hl
          rw [ha] at hx
          cases hx
        | cons y before =>
          obtain ⟨rfl, rfl⟩ := List.cons.inj hl
          exact ⟨before, x, after, rfl, (List.forall_mem_cons.mp hb).2, hx⟩

theorem mapM_filter_eq_error_iff {g : α → Except ε β} {keep : α → Bool} {l : List α} {e : ε} :
    (l.filter keep).mapM g = .error e ↔ ∃ before a after, l = before ++ a :: after ∧
      (∀ x ∈ before, keep x = true → ∃ b, g x = .ok b) ∧ keep a = true ∧ g a = .error e := by
  simp only [mapM_eq_error_iff, List.filter_eq_append_iff, List.filter_eq_cons_iff]
  constructor
  · rintro ⟨_, a, _, ⟨first, _, rfl, rfl, between, after, rfl, hn, ha, rfl⟩, hb, he⟩
    refine ⟨first ++ between, a, after, (List.append_assoc ..).symm, ?_, ha, he⟩
    intro x hx hk
    rcases List.mem_append.mp hx with hx | hx
    · exact hb x (List.mem_filter.mpr ⟨hx, hk⟩)
    · exact absurd hk (hn x hx)
  · rintro ⟨before, a, after, rfl, hb, ha, he⟩
    refine ⟨before.filter keep, a, after.filter keep,
      ⟨before, a :: after, rfl, rfl, [], after, rfl, by simp, ha, rfl⟩, ?_, he⟩
    intro x hx
    obtain ⟨hm, hk⟩ := List.mem_filter.mp hx
    exact hb x hm hk

theorem exists_of_mem_mapM {g : α → Except ε β} {l : List α} {r : List β} (h : l.mapM g = .ok r)
    {b : β} (hb : b ∈ r) : ∃ a ∈ l, g a = .ok b := by
  have hf := mapM_eq_ok_iff.mp h
  clear h
  induction hf with
  | nil => simp at hb
  | cons ha _ ih =>
    rcases List.mem_cons.mp hb with rfl | hb
    · exact ⟨_, List.mem_cons_self, ha⟩
    · obtain ⟨a, hm, hg⟩ := ih hb
      exact ⟨a, List.mem_cons_of_mem _ hm, hg⟩

theorem map_mapM (g : α → Except ε β) (h : β → δ) (l : List α) :
    (l.mapM g).map (List.map h) = l.mapM fun a => (g a).map h := by
  induction l with
  | nil => rfl
  | cons a l ih =>
    cases ha : g a with
    | error e => rw [mapM_cons_error ha, mapM_cons_error (by rw [ha, Except.map])]; rfl
    | ok b =>
      rw [mapM_cons_ok ha, mapM_cons_ok (by rw [ha, Except.map]), ← ih]
      cases l.mapM g <;> rfl

/-- What is done to every result alone is done to the results together. -/
theorem mapM_eq_map_zipWith {g h : α → Except ε β} {c : α → β → β} {l : List α}
    (hl : ∀ a ∈ l, g a = (h a).map (c a)) : l.mapM g = (l.mapM h).map (List.zipWith c l) := by
  induction l with
  | nil => rfl
  | cons a l ih =>
    obtain ⟨ha, hl⟩ := List.forall_mem_cons.mp hl
    cases hh : h a with
    | error e => rw [mapM_cons_error hh, mapM_cons_error (by rw [ha, hh, Except.map])]; rfl
    | ok b =>
      rw [mapM_cons_ok hh, mapM_cons_ok (by rw [ha, hh, Except.map]), ih hl]
      cases l.mapM h <;> rfl

theorem mapM_mapError (g : α → Except ε β) (h : ε → δ) (l : List α) :
    l.mapM (fun a => (g a).mapError h) = (l.mapM g).mapError h := by
  induction l with
  | nil => rfl
  | cons a l ih =>
    cases ha : g a with
    | error e => rw [mapM_cons_error ha, mapM_cons_error (by rw [ha, Except.mapError])]; rfl
    | ok b =>
      rw [mapM_cons_ok ha, mapM_cons_ok (by rw [ha, Except.mapError]), ih]
      cases l.mapM g <;> rfl

end ManchesterBaby
