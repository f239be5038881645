import ManchesterBaby.Proofs.Machine.Effect
import ManchesterBaby.Proofs.Machine.Lockstep

/-! A cell that is not read. What it holds makes no difference to a run that neither comes to it nor
uses it as an operand, and once the run stores there no difference is left. -/

namespace ManchesterBaby

namespace Machine

/-- The two machines can differ in the cell at `a` only. -/
structure AgreeBut (a : Address) (s u : Machine) : Prop where
  format_eq : u.format = s.format
  counter_eq : u.counter = s.counter
  current_eq : u.current = s.current
  accumulator_eq : u.accumulator = s.accumulator
  store_eq : ∀ b ≠ a, u.store.get b = s.store.get b

variable {a : Address} {m s u : Machine}

theorem agreeBut_withCell (m : Machine) (a : Address) (n : Int) :
    AgreeBut a m (m.withCell a n) where
  format_eq := rfl
  counter_eq := rfl
  current_eq := rfl
  accumulator_eq := rfl
  store_eq b hb := by rw [get_withCell, if_neg hb.symm]

namespace AgreeBut

theorem instruction_eq (h : AgreeBut a s u) : u.instruction = s.instruction := by
  rw [instruction, instruction, h.format_eq, h.current_eq]

theorem operand_eq (h : AgreeBut a s u) (hread : ¬s.ReadsAt a)
    (hk : s.instruction.kind ∈ [.jump, .relativeJump, .negate, .subtract]) :
    u.operand = s.operand := by
  have ha : s.instruction.address ≠ a := fun ha => hread ⟨hk, ha⟩
  rw [operand, operand]
  simp only [h.instruction_eq]
  exact h.store_eq _ ha

theorem result?_eq (h : AgreeBut a s u) (hread : ¬s.ReadsAt a) : u.result? = s.result? := by
  have hoperand := h.operand_eq hread
  rw [result?, result?, h.instruction_eq, h.accumulator_eq]
  cases hk : s.instruction.kind with
  | negate | subtract => simp only [hoperand (by simp [hk])]
  | _ => rfl

theorem target_eq (h : AgreeBut a s u) (hread : ¬s.ReadsAt a) : u.target = s.target := by
  have hoperand := h.operand_eq hread
  rw [target, target, h.instruction_eq, h.accumulator_eq, h.counter_eq]
  cases hk : s.instruction.kind with
  | jump | relativeJump => simp only [hoperand (by simp [hk])]
  | _ => rfl

theorem storesAt_iff (h : AgreeBut a s u) (b : Address) : u.StoresAt b ↔ s.StoresAt b := by
  rw [StoresAt, StoresAt, h.instruction_eq]

theorem effect (h : AgreeBut a s u) (hread : ¬s.ReadsAt a) : AgreeBut a s.effect u.effect where
  format_eq := h.format_eq
  counter_eq := h.counter_eq
  current_eq := h.current_eq
  accumulator_eq := by
    simp only [Machine.effect, h.result?_eq hread, h.format_eq, h.accumulator_eq]
  store_eq b hb := by
    simp only [get_store_effect, h.storesAt_iff, h.accumulator_eq, h.store_eq b hb]

theorem goTo (h : AgreeBut a s u) {n : Int} (hn : Address.ofInt n ≠ a) :
    AgreeBut a (s.goTo n) (u.goTo n) where
  format_eq := h.format_eq
  counter_eq := rfl
  current_eq := by
    have hcell := h.store_eq _ hn
    simp only [Machine.goTo, h.format_eq]
    exact congrArg _ hcell
  accumulator_eq := h.accumulator_eq
  store_eq := h.store_eq

end AgreeBut

/-- One of the first `k` steps stores at `a`. -/
def HasStored (m : Machine) (a : Address) (k : Nat) : Prop :=
  ∃ j < k, ∃ s, m.after? j = some s ∧ s.StoresAt a

/-- What the `k`-th machines of two runs have in common, of which `m` begins the first. -/
structure AgreeAfter (m : Machine) (a : Address) (k : Nat) (s u : Machine) : Prop
    extends AgreeBut a s u where
  cell_eq_of_stored : m.HasStored a k → u.store.get a = s.store.get a

variable {n k : Nat}

theorem AgreeAfter.step (h : AgreeAfter m a k s u) (hs : m.after? k = some s)
    (hread : ¬s.ReadsAt a) (hnext : ∀ next, s.step = some next → next.counter ≠ a.val) :
    Option.Rel (AgreeAfter m a (k + 1)) s.step u.step := by
  by_cases hk : s.instruction.kind = .stop
  · rw [step_eq_effect, step_eq_effect, h.instruction_eq, if_pos hk, if_pos hk]
    exact .none
  · have hstep : s.step = some (s.effect.goTo s.target) := step_eq_some_iff.mpr ⟨hk, rfl⟩
    have htarget : Address.ofInt s.target ≠ a := fun he =>
      hnext _ hstep (congrArg (fun b : Address => (b.val : Int)) he)
    have hu : u.step = some (u.effect.goTo s.target) := by
      rw [step_eq_effect, h.instruction_eq, if_neg hk, h.target_eq hread]
    rw [hstep, hu]
    refine .some ⟨(h.effect hread).goTo htarget, ?_⟩
    -- Both runs store the same word: either this step does, or an earlier one has.
    rintro ⟨j, hj, t, ht, hstores⟩
    change u.effect.store.get a = s.effect.store.get a
    rw [get_store_effect, get_store_effect, h.accumulator_eq]
    simp only [h.storesAt_iff]
    by_cases hsa : s.StoresAt a
    · rw [if_pos hsa, if_pos hsa]
    · rw [if_neg hsa, if_neg hsa]
      have hjk : j ≠ k := by
        rintro rfl
        obtain rfl := Option.some.inj (hs.symm.trans ht)
        exact hsa hstores
      exact h.cell_eq_of_stored ⟨j, by omega, t, ht, hstores⟩

/-- After a stop nothing more is stored. -/
theorem hasStored_of_stop (hs : m.after? k = some s) (hstop : k < n → s.instruction.kind = .stop)
    (h : m.HasStored a n) : m.HasStored a k := by
  obtain ⟨j, hj, t, ht, hstores⟩ := h
  refine ⟨j, ?_, t, ht, hstores⟩
  by_contra hle
  have hkind := hstop (by omega)
  have hjk := le_of_after? hs hkind ht
  obtain rfl : j = k := by omega
  obtain rfl := Option.some.inj (hs.symm.trans ht)
  rw [hstores.1] at hkind
  cases hkind

/-- A run does not depend on a cell that it neither comes to nor reads as an operand. -/
theorem run_withCell {m : Machine} {a : Address} {n : Nat}
    (hcounter : ∀ k ≤ n, ∀ s, m.after? k = some s → s.counter ≠ a.val)
    (hread : ∀ k < n, ∀ s, m.after? k = some s → ¬s.ReadsAt a) (v : Int) :
    (∀ k ≤ n, Option.Rel (AgreeAfter m a k) (m.after? k) ((m.withCell a v).after? k)) ∧
      ((m.withCell a v).run n).2 = (m.run n).2.withMachine ((m.withCell a v).run n).1 ∧
      AgreeAfter m a n (m.run n).1 ((m.withCell a v).run n).1 := by
  have hstart : AgreeAfter m a 0 m (m.withCell a v) :=
    ⟨agreeBut_withCell m a v, fun ⟨_, hj, _⟩ => absurd hj (Nat.not_lt_zero _)⟩
  have hrel := rel_after? (R := AgreeAfter m a) (n := n) hstart fun k hk s u hs h => by
    refine h.step hs (hread k hk s hs) fun next hnext => hcounter (k + 1) hk next ?_
    rw [after?_succ, hs]
    exact hnext
  obtain ⟨hhalt, k, -, hreached, hstop, hfinal⟩ := rel_run (fun _ _ _ h => h.counter_eq) hrel
  exact ⟨hrel, hhalt, hfinal.toAgreeBut, fun h =>
    hfinal.cell_eq_of_stored (hasStored_of_stop hreached hstop h)⟩

/-- A test comes without an address and looks at no cell, not even at the first. -/
theorem run_withCell_test :
    let m := (start .standard (.ofWords [77, 16389, 24576, 49152, 57344, -5])).jump 1
    let first : Address := .ofInt 0
    (∀ k ≤ 5, ∀ s, m.after? k = some s → s.counter ≠ first.val) ∧
      (∀ k < 5, ∀ s, m.after? k = some s → ¬s.ReadsAt first) ∧
      ((m.withCell first (-1)).run (5 : Nat)).2 = .stopped 4 ∧
      ((m.withCell first (-1)).run (5 : Nat)).1.store.get first =
        (m.run (5 : Nat)).1.store.get first := by
  intro m first
  have hcounter : ∀ k ≤ 5, ∀ s ∈ m.after? k, s.counter ≠ first.val := by decide +kernel
  have hread : ∀ k < 5, ∀ s ∈ m.after? k, ¬s.ReadsAt first := by decide +kernel
  have hstores : ∃ s ∈ m.after? 2, s.StoresAt first := by decide +kernel
  have hhalt : (m.run (5 : Nat)).2 = .stopped 4 := by decide +kernel
  obtain ⟨-, hsame, hfinal⟩ := run_withCell hcounter hread (-1)
  obtain ⟨s, hs, hs'⟩ := hstores
  rw [hhalt] at hsame
  exact ⟨hcounter, hread, hsame,
    hfinal.cell_eq_of_stored ⟨2, by decide, s, hs, hs'⟩⟩

end Machine

end ManchesterBaby
