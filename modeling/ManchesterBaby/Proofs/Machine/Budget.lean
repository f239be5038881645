import ManchesterBaby.Proofs.Machine.WellFormed

/-! Runs under a budget. A run takes one step after the other until it meets a stop or its budget is
used up, so it can be cut anywhere and gone on with from there. A machine that comes to the same
state twice never stops. -/

namespace ManchesterBaby

/-- The same halt under another budget. -/
def Halt.withBudget (budget : Int) : Halt → Halt
  | stopped address => stopped address
  | exhausted machine _ => exhausted machine budget

namespace Machine

/-- The machine after just `n` steps. There is none if a stop is met before. -/
def after? : Nat → Machine → Option Machine
  | 0, m => some m
  | n + 1, m => m.step.bind (after? n)

theorem after?_add (a b : Nat) (m : Machine) :
    m.after? (a + b) = (m.after? a).bind (after? b) := by
  induction a generalizing m with
  | zero => simp [after?]
  | succ a ih =>
    rw [Nat.add_right_comm]
    cases h : m.step with
    | none => simp [after?, h]
    | some next => simp [after?, h, ih]

variable {m final : Machine} {k n : Nat}

theorem step_eq_none_iff : m.step = none ↔ m.instruction.kind = .stop := by
  rw [step_eq]
  cases m.instruction.kind <;> simp

/-- Before the last step of a run every machine has a next one. -/
theorem running_of_after? (h : m.after? n = some final) (hk : k < n) :
    ∃ s, m.after? k = some s ∧ s.instruction.kind ≠ .stop := by
  obtain ⟨d, rfl⟩ := Nat.exists_eq_add_of_lt hk
  rw [Nat.add_assoc, after?_add] at h
  obtain ⟨s, hs, hd⟩ := Option.bind_eq_some_iff.mp h
  refine ⟨s, hs, fun hstop => ?_⟩
  rw [after?, step_eq_none_iff.mpr hstop] at hd
  cases hd

/-- What `advanceBy` comes to, said by the steps that are taken. -/
theorem advanceBy_eq_or (n : Nat) (m : Machine) :
    (∃ k final, k < n ∧ m.after? k = some final ∧ final.instruction.kind = .stop ∧
      m.advanceBy n = (final, true)) ∨
    ∃ final, m.after? n = some final ∧ m.advanceBy n = (final, false) := by
  induction n generalizing m with
  | zero => exact .inr ⟨m, rfl, rfl⟩
  | succ n ih =>
    cases h : m.step with
    | none => exact .inl ⟨0, m, n.succ_pos, rfl, step_eq_none_iff.mp h, by simp [advanceBy, h]⟩
    | some next =>
      have hn : ∀ k, m.after? (k + 1) = next.after? k := fun k => by simp [after?, h]
      have ha : m.advanceBy (n + 1) = next.advanceBy n := by simp [advanceBy, h]
      rcases ih next with ⟨k, final, hk, hr, hs, he⟩ | ⟨final, hr, he⟩
      · exact .inl ⟨k + 1, final, Nat.succ_lt_succ hk, (hn k).trans hr, hs, ha.trans he⟩
      · exact .inr ⟨final, (hn n).trans hr, ha.trans he⟩

theorem run_of_stopped (h : m.advanceBy n = (final, true)) :
    m.run n = (final, .stopped final.counter) := by
  rw [run, Int.toNat_natCast, h]
  rfl

theorem run_of_exhausted (h : m.advanceBy n = (final, false)) :
    m.run n = (final, .exhausted final n) := by
  rw [run, Int.toNat_natCast, h]
  rfl

/-- The two ways in which a run with a budget of `n` steps ends: at a stop that it meets after fewer
steps, or once it has taken all of them. The machine that a run ends at comes with the halt. -/
inductive RunEnds (m : Machine) (n : Nat) : Machine × Halt → Prop
  | stopped {k : Nat} {final : Machine} (taken : k < n) (reached : m.after? k = some final)
      (stop : final.instruction.kind = .stop) : RunEnds m n (final, .stopped final.counter)
  | exhausted {final : Machine} (reached : m.after? n = some final)
      (running : ∀ k < n, ∃ s, m.after? k = some s ∧ s.instruction.kind ≠ .stop) :
      RunEnds m n (final, .exhausted final n)

theorem runEnds_run (m : Machine) (n : Nat) : RunEnds m n (m.run n) := by
  rcases advanceBy_eq_or n m with ⟨k, final, hk, hr, hs, he⟩ | ⟨final, hr, he⟩
  · exact run_of_stopped he ▸ .stopped hk hr hs
  · exact run_of_exhausted he ▸ .exhausted hr fun k hk => running_of_after? hr hk

theorem run_add (m : Machine) (a b : Nat) :
    m.run (a + b : Nat) =
      match m.run a with
      | (final, .stopped address) => (final, .stopped address)
      | (final, .exhausted _ _) => ((final.run b).1, (final.run b).2.withBudget (a + b : Nat)) := by
  have hadd := advanceBy_add a b m
  rcases advanceBy_eq_or a m with ⟨k, final, -, -, -, he⟩ | ⟨final, -, he⟩
  · rw [he, if_pos rfl] at hadd
    rw [run_of_stopped he, run_of_stopped hadd]
  · rw [he, if_neg Bool.false_ne_true] at hadd
    rw [run_of_exhausted he]
    change _ = ((final.run b).1, (final.run b).2.withBudget (a + b : Nat))
    rcases advanceBy_eq_or b final with ⟨-, last, -, -, -, hb⟩ | ⟨last, -, hb⟩
    · rw [run_of_stopped (hadd.trans hb), run_of_stopped hb]
      rfl
    · rw [run_of_exhausted (hadd.trans hb), run_of_exhausted hb]
      rfl

/-- A stop that comes after `k` steps leaves no machine beyond it. -/
theorem le_of_after? (hs : m.after? k = some final) (hstop : final.instruction.kind = .stop)
    {s : Machine} (hn : m.after? n = some s) : n ≤ k := by
  by_contra hlt
  obtain ⟨t, ht, hrun⟩ := running_of_after? hn (Nat.lt_of_not_le hlt)
  rw [hs] at ht
  exact hrun (Option.some.inj ht ▸ hstop)

/-- Between two visits to one state the machine takes a way that it could have left out, so a stop
could be met sooner than it is. -/
theorem not_stop_of_repeated {i j : Nat} {s : Machine} (hij : i < j) (hi : m.after? i = some s)
    (hj : m.after? j = some s) (hk : m.after? k = some final) : final.instruction.kind ≠ .stop := by
  intro hstop
  obtain ⟨d, rfl⟩ := Nat.exists_eq_add_of_le (le_of_after? hk hstop hj)
  rw [after?_add, hj] at hk
  have hsooner : m.after? (i + d) = some final := by rwa [after?_add, hi]
  have hlate : m.after? (j + d) = some final := by rwa [after?_add, hj]
  have hle := le_of_after? hsooner hstop hlate
  omega

/-- A run can be cut at any budget: if it has stopped by then nothing more happens, and otherwise it
goes on from the machine that it has come to. Once two of the states that it visits are equal, no
budget is enough for a stop. -/
theorem run_resumes (m : Machine) (a : Nat) :
    RunEnds m a (m.run a) ∧
    (∀ b : Nat, m.run (a + b : Nat) =
      match m.run a with
      | (final, .stopped address) => (final, .stopped address)
      | (final, .exhausted _ _) => ((final.run b).1, (final.run b).2.withBudget (a + b : Nat))) ∧
    ∀ i j s, i < j → m.after? i = some s → m.after? j = some s →
      ∀ budget : Int, (m.run budget).2 = .exhausted (m.run budget).1 budget := by
  refine ⟨runEnds_run m a, run_add m a, ?_⟩
  intro i j s hij hi hj budget
  rw [run]
  rcases advanceBy_eq_or budget.toNat m with ⟨k, final, -, hr, hs, -⟩ | ⟨final, -, he⟩
  · exact absurd hs (not_stop_of_repeated hij hi hj hr)
  · rw [he]
    rfl

/-- An empty store is a jump to itself, for ever. -/
theorem run_resumes_emptyStore :
    let m := start .standard (.ofWords [])
    m.after? 3 = some m ∧ m.after? 5 = some m ∧
      ∀ budget : Int, (m.run budget).2 = .exhausted (m.run budget).1 budget := by
  intro m
  have hthree : m.after? 3 = some m := by decide +kernel
  have hfive : m.after? 5 = some m := by decide +kernel
  exact ⟨hthree, hfive, (run_resumes m 0).2.2 3 5 m (by decide) hthree hfive⟩

end Machine

end ManchesterBaby
