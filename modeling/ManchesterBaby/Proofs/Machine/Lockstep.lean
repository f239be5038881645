import ManchesterBaby.Proofs.Machine.Budget

/-! Two runs side by side. A relation that every step keeps holds at every step of the two runs, and
they halt alike. -/

namespace ManchesterBaby

/-- The same halt of another machine. -/
def Halt.withMachine (m : Machine) : Halt → Halt
  | stopped address => stopped address
  | exhausted _ budget => exhausted m budget

section Rel

variable {α β γ δ : Type} {R : α → β → Prop} {S : γ → δ → Prop}

theorem rel_some_left_iff {a : α} {y : Option β} :
    Option.Rel R (some a) y ↔ ∃ b, y = some b ∧ R a b := by
  constructor
  · intro h
    cases h with
    | some hab => exact ⟨_, rfl, hab⟩
  · rintro ⟨b, rfl, hab⟩
    exact .some hab

theorem rel_none_left_iff {y : Option β} : Option.Rel R none y ↔ y = none := by
  constructor
  · intro h
    cases h
    rfl
  · rintro rfl
    exact .none

theorem rel_bind {x : Option α} {y : Option β} {f : α → Option γ} {g : β → Option δ}
    (h : Option.Rel R x y) (hfg : ∀ a b, x = some a → R a b → Option.Rel S (f a) (g b)) :
    Option.Rel S (x.bind f) (y.bind g) := by
  cases h with
  | none => exact .none
  | some hab => exact hfg _ _ rfl hab

end Rel

namespace Machine

variable {m t final : Machine} {k n : Nat} {R : Nat → Machine → Machine → Prop}

theorem after?_succ (k : Nat) (m : Machine) : m.after? (k + 1) = (m.after? k).bind step := by
  rw [after?_add]
  refine congrArg _ (funext fun s => ?_)
  cases h : s.step <;> simp [after?, h]

theorem run_of_reached (h : m.after? n = some final) : m.run n = (final, .exhausted final n) := by
  rcases advanceBy_eq_or n m with ⟨j, s, hj, hr, hs, -⟩ | ⟨s, hr, he⟩
  · exact absurd (le_of_after? hr hs h) (Nat.not_le_of_lt hj)
  · obtain rfl := Option.some.inj (h.symm.trans hr)
    exact run_of_exhausted he

theorem run_of_stop (hk : k < n) (h : m.after? k = some final)
    (hstop : final.instruction.kind = .stop) : m.run n = (final, .stopped final.counter) := by
  rcases advanceBy_eq_or n m with ⟨j, s, -, hr, hs, he⟩ | ⟨s, hr, -⟩
  · obtain rfl := Nat.le_antisymm (le_of_after? hr hs h) (le_of_after? h hstop hr)
    obtain rfl := Option.some.inj (h.symm.trans hr)
    exact run_of_stopped he
  · exact absurd (le_of_after? h hstop hr) (Nat.not_le_of_lt hk)

/-- The relation may know how many steps have been taken, and of the first run also which machine
they lead to. -/
theorem rel_after? (hstart : R 0 m t)
    (hstep : ∀ k < n, ∀ s u, m.after? k = some s → R k s u →
      Option.Rel (R (k + 1)) s.step u.step) :
    ∀ k ≤ n, Option.Rel (R k) (m.after? k) (t.after? k) := by
  intro k hk
  induction k with
  | zero => exact .some hstart
  | succ k ih =>
    rw [after?_succ, after?_succ]
    exact rel_bind (ih (Nat.le_of_lt hk)) (hstep k hk)

/-- If the second run had another step to take where the first one stops, it would be related to
none. -/
theorem rel_run (hcounter : ∀ k s u, R k s u → u.counter = s.counter)
    (h : ∀ k ≤ n, Option.Rel (R k) (m.after? k) (t.after? k)) :
    (t.run n).2 = (m.run n).2.withMachine (t.run n).1 ∧
      ∃ k ≤ n, m.after? k = some (m.run n).1 ∧
        (k < n → (m.run n).1.instruction.kind = .stop) ∧ R k (m.run n).1 (t.run n).1 := by
  have hends := runEnds_run m n
  generalize m.run n = result at hends
  cases hends with
  | @stopped k final taken reached stop =>
    have hk := h k (Nat.le_of_lt taken)
    rw [reached, rel_some_left_iff] at hk
    obtain ⟨u, hu, hr⟩ := hk
    have hlast := h (k + 1) taken
    rw [after?_succ, after?_succ, reached, hu, Option.bind_some, Option.bind_some,
      step_eq_none_iff.mpr stop, rel_none_left_iff] at hlast
    rw [run_of_stop taken hu (step_eq_none_iff.mp hlast), hcounter k _ _ hr]
    exact ⟨rfl, k, Nat.le_of_lt taken, reached, fun _ => stop, hr⟩
  | exhausted reached =>
    have hn := h n n.le_refl
    rw [reached, rel_some_left_iff] at hn
    obtain ⟨u, hu, hr⟩ := hn
    rw [run_of_reached hu]
    exact ⟨rfl, n, n.le_refl, reached, fun hn => absurd hn (Nat.lt_irrefl n), hr⟩

end Machine

end ManchesterBaby
