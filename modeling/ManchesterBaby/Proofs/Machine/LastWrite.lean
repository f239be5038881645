import ManchesterBaby.Proofs.Machine.Budget
import ManchesterBaby.Proofs.Machine.Effect

/-! What a run leaves behind. A cell holds the word that was stored there last, and the accumulator
the last word that was worked out. -/

namespace ManchesterBaby

namespace Machine

/-- What a place that held `initial` holds after at most `n` steps from `m`, where a step from `s`
writes `write s` there, if anything. -/
inductive LastWrite {α : Type} (write : Machine → Option α) (m : Machine) (n : Nat) (initial : α) :
    α → Prop
  | written {k : Nat} {s : Machine} {x : α} (taken : k < n) (reached : m.after? k = some s)
      (writes : write s = some x)
      (last : ∀ j t, k < j → j < n → m.after? j = some t → write t = none) :
      LastWrite write m n initial x
  | untouched (never : ∀ k s, k < n → m.after? k = some s → write s = none) :
      LastWrite write m n initial initial

/-- The word that the instruction stores at `a`. -/
def stored? (a : Address) (m : Machine) : Option Int :=
  if m.StoresAt a then some m.accumulator else none

/-- The word that the instruction works out. -/
def computed? (m : Machine) : Option Int := m.result?.map m.format.toWord

section Place

variable {α : Type} {write : Machine → Option α} {m next : Machine} {n : Nat} {initial x : α}

theorem LastWrite.of_step (hs : m.step = some next)
    (h : LastWrite write next n ((write m).getD initial) x) :
    LastWrite write m (n + 1) initial x := by
  have hafter : ∀ k, m.after? (k + 1) = next.after? k := fun k => by simp [after?, hs]
  cases h with
  | @written k s x taken reached writes last =>
    refine .written (Nat.succ_lt_succ taken) ((hafter k).trans reached) writes ?_
    intro j t hkj hjn ht
    obtain ⟨i, rfl⟩ := Nat.exists_eq_add_one_of_ne_zero (Nat.ne_of_gt (Nat.zero_lt_of_lt hkj))
    exact last i t (by omega) (by omega) ((hafter i).symm.trans ht)
  | untouched never =>
    -- Nothing is written later, so the first step decides.
    have hlater : ∀ j t, 0 < j → j < n + 1 → m.after? j = some t → write t = none := by
      intro j t hj hjn ht
      obtain ⟨i, rfl⟩ := Nat.exists_eq_add_one_of_ne_zero (Nat.ne_of_gt hj)
      exact never i t (by omega) ((hafter i).symm.trans ht)
    cases hw : write m with
    | some x => exact .written n.succ_pos rfl hw hlater
    | none =>
      refine .untouched fun k s hk hr => ?_
      by_cases hzero : k = 0
      · subst hzero
        obtain rfl := Option.some.inj hr
        exact hw
      · exact hlater k s (Nat.pos_of_ne_zero hzero) hk hr

/-- If every step leaves in a place what it writes there, then so does a run. -/
theorem lastWrite_run (place : Machine → α)
    (hstep : ∀ s next, s.step = some next → place next = (write s).getD (place s))
    (hstop : ∀ s, s.step = none → write s = none) (m : Machine) (n : Nat) :
    LastWrite write m n (place m) (place (m.run n).1) := by
  change LastWrite write m n (place m) (place (m.advanceBy n).1)
  induction n generalizing m with
  | zero => exact .untouched fun k s hk => absurd hk (Nat.not_lt_zero k)
  | succ n ih =>
    rw [advanceBy]
    cases hs : m.step with
    | none =>
      refine .untouched fun k s _ hr => ?_
      cases k with
      | zero =>
        obtain rfl := Option.some.inj hr
        exact hstop m hs
      | succ k => simp [after?, hs] at hr
    | some next =>
      have hnext := ih next
      rw [hstep m next hs] at hnext
      exact hnext.of_step hs

end Place

theorem stored?_of_step_eq_none {m : Machine} (a : Address) (h : m.step = none) :
    m.stored? a = none := by
  have hstop := step_eq_none_iff.mp h
  simp [stored?, StoresAt, hstop]

theorem computed?_of_step_eq_none {m : Machine} (h : m.step = none) : m.computed? = none := by
  have hstop := step_eq_none_iff.mp h
  simp [computed?, result?, hstop]

/-- The last store to a cell decides what it holds in the end, and the last negation or subtraction
what the accumulator does. -/
theorem run_lastWrite (m : Machine) (n : Nat) :
    (∀ a : Address, LastWrite (stored? a) m n (m.store.get a) ((m.run n).1.store.get a)) ∧
      LastWrite computed? m n m.accumulator (m.run n).1.accumulator := by
  refine ⟨fun a => ?_, ?_⟩
  · have hstep : ∀ s next : Machine, s.step = some next →
        next.store.get a = (s.stored? a).getD (s.store.get a) := by
      intro s next hs
      rw [get_store_of_step hs, stored?]
      by_cases ha : s.StoresAt a <;> simp [ha]
    exact lastWrite_run (fun s => s.store.get a) hstep
      (fun s => stored?_of_step_eq_none a) m n
  · exact lastWrite_run accumulator (fun s next => accumulator_of_step)
      (fun s => computed?_of_step_eq_none) m n

end Machine

end ManchesterBaby
