import ManchesterBaby.Command.Running
import ManchesterBaby.Proofs.Capacity
import ManchesterBaby.Proofs.Command.Host
import ManchesterBaby.Proofs.Machine.Budget
import ManchesterBaby.Proofs.Machine.Display

/-! Traced runs. A trace goes its own way through the steps, and comes to what a run comes to. It
has a line for each instruction that the run looks at, the stop included. -/

namespace ManchesterBaby

/-- Ten digits are worth more than 33 bits. -/
theorem two_pow_le_ten_pow {bits digits k : Nat} (hb : bits ≤ 33 * k) (hd : 10 * k ≤ digits) :
    2 ^ bits ≤ 10 ^ digits :=
  calc 2 ^ bits ≤ 2 ^ (33 * k) := Nat.pow_le_pow_right (by decide) hb
    _ = (2 ^ 33) ^ k := Nat.pow_mul ..
    _ ≤ (10 ^ 10) ^ k := Nat.pow_le_pow_left (by decide) k
    _ = 10 ^ (10 * k) := (Nat.pow_mul ..).symm
    _ ≤ 10 ^ digits := Nat.pow_le_pow_right (by decide) hd

theorem fitsDecimal_of_isWord {f : WordFormat} {n : Int} (hn : f.IsWord n)
    (hw : f.wordBits ≤ 14000) : fitsDecimal n = true := by
  have hd : 10 * 430 ≤ decimalLimit := by decide
  have hlt : n.natAbs < 2 ^ f.wordBits := by
    have hc := f.wordCount_eq_two_mul
    have hp := f.wordCount_eq_pow
    have hpos := f.wordCount_pos
    obtain ⟨hl, hu⟩ := hn
    omega
  rw [fitsDecimal, decide_eq_true_iff]
  generalize decimalLimit = digits at hd ⊢
  exact Nat.lt_of_lt_of_le hlt (two_pow_le_ten_pow (by omega) hd)

namespace Capacity

variable {memory : Memory} {m : Machine} {failure : Failure}

theorem category_of_traceLine {step : Int}
    (h : traceLine memory m step = .error failure) : failure.category = .internal := by
  rcases bind_eq_error_iff.mp h with h | ⟨-, -, h⟩
  · exact category_of_require h
  · split at h <;> cases h
    rfl

theorem category_of_step (h : step memory m = .error failure) : failure.category = .internal := by
  rcases bind_eq_error_iff.mp h with h | ⟨-, -, h⟩
  · exact category_of_require h
  · rcases bind_eq_error_iff.mp h with h | ⟨-, -, h⟩
    · exact category_of_require h
    · cases h

theorem category_of_advanceBy {n : Nat} (h : advanceBy memory n m = .error failure) :
    failure.category = .internal := by
  induction n generalizing m with
  | zero => cases h
  | succ n ih =>
    rw [advanceBy] at h
    cases hs : step memory m with
    | error fault =>
      rw [hs] at h
      cases h
      exact category_of_step hs
    | ok next =>
      rw [hs] at h
      cases next with
      | none => cases h
      | some next => exact ih h

theorem category_of_run {budget : Int} (h : run memory m budget = .error failure) :
    failure.category = .internal :=
  category_of_advanceBy (map_eq_error_iff.mp h)

theorem category_of_traceFrom {budget : Int} {n number : Nat}
    (h : (traceFrom memory budget n number m).2 = .error failure) :
    failure.category = .internal := by
  induction n generalizing number m with
  | zero => cases h
  | succ n ih =>
    rw [traceFrom] at h
    cases hline : traceLine memory m number with
    | error fault =>
      rw [hline] at h
      cases h
      exact category_of_traceLine hline
    | ok line =>
      rw [hline] at h
      cases hs : step memory m with
      | error fault =>
        rw [hs] at h
        cases h
        exact category_of_step hs
      | ok next =>
        rw [hs] at h
        cases next with
        | none => cases h
        | some next => exact ih h

end Capacity

namespace Console

variable {host : Host} {c later : Console} {failure : Failure}

theorem attempt_eq_error_iff {α : Type} {r : Except Failure α} :
    c.attempt r = .error (later, failure) ↔ c = later ∧ r = .error failure := by
  rw [attempt]
  cases r <;> simp [Except.mapError]

theorem category_of_runTraced {m : Machine} {budget : Int}
    (h : c.runTraced host m budget = .error (later, failure)) : failure.category = .internal :=
  Capacity.category_of_traceFrom (attempt_eq_error_iff.mp (map_eq_error_iff.mp h)).2

theorem foldl_say (c : Console) (lines : List Text) :
    lines.foldl (·.say host ·) c =
      { c with stdout := c.stdout ++ lines.flatMap fun line => host.shown (line ++ ['\n']) } := by
  induction lines generalizing c with
  | nil => simp
  | cons line lines ih =>
    rw [List.foldl_cons, ih]
    simp [say, print]

/-- Lines without an escape character are printed as they are. -/
theorem foldl_say_of_lawful (hh : host.Lawful) (c : Console) {lines : List Text}
    (hl : ∀ line ∈ lines, escapeCharacter ∉ line) :
    lines.foldl (·.say host ·) c =
      { c with stdout := c.stdout ++ lines.flatMap (· ++ ['\n']) } := by
  have hshown : ∀ line ∈ lines, host.shown (line ++ ['\n']) = line ++ ['\n'] := fun line hm =>
    hh.shown_eq_self (List.not_mem_append (hl line hm) (by decide))
  rw [foldl_say, List.flatMap_congr hshown]

end Console

namespace Capacity

variable {memory : Memory} {f : WordFormat} {m : Machine} {budget : Int} {n number : Nat}

theorem traceLine_eq (h : m.WellFormed f) (hm : f.wordFault? memory = none)
    (hw : f.wordBits ≤ 14000) (number : Int) :
    traceLine memory m number = .ok (m.traceLine number) := by
  have hfield : m.format.fieldFault? memory = none := by
    rw [h.format_eq]
    exact f.fieldFault?_eq_none hm
  have hacc := fitsDecimal_of_isWord h.isWord_accumulator hw
  simp only [traceLine, hfield, hacc, if_true]
  rfl

/-- What is added to a trace by the machine that it goes on from. -/
theorem traceFrom_succ (h : m.WellFormed f) (hm : f.wordFault? memory = none)
    (hw : f.wordBits ≤ 14000) (budget : Int) (n number : Nat) :
    traceFrom memory budget (n + 1) number m =
      match m.step with
      | none => ([m.traceLine number], .ok (m, .stopped m.counter))
      | some next =>
        (m.traceLine number :: (traceFrom memory budget n (number + 1) next).1,
          (traceFrom memory budget n (number + 1) next).2) := by
  have hword : m.format.wordFault? memory = none := h.format_eq ▸ hm
  rw [traceFrom, traceLine_eq h hm hw, step_eq hword]
  cases m.step <;> rfl

/-- Printing does not change what is done. -/
theorem traceFrom_snd (h : m.WellFormed f) (hm : f.wordFault? memory = none)
    (hw : f.wordBits ≤ 14000) :
    (traceFrom memory budget n number m).2 =
      .ok ((m.advanceBy n).1, if (m.advanceBy n).2 then .stopped (m.advanceBy n).1.counter
        else .exhausted (m.advanceBy n).1 budget) := by
  induction n generalizing number m with
  | zero => rfl
  | succ n ih =>
    rw [traceFrom_succ h hm hw, Machine.advanceBy]
    cases hs : m.step with
    | none => rfl
    | some next => exact ih (h.step hs)

theorem traceFrom_getElem? (h : m.WellFormed f) (hm : f.wordFault? memory = none)
    (hw : f.wordBits ≤ 14000) (k : Nat) :
    (traceFrom memory budget n number m).1[k]? =
      if k < n then (m.after? k).map fun s => s.traceLine (number + k : Nat) else none := by
  induction n generalizing number m k with
  | zero => rfl
  | succ n ih =>
    rw [traceFrom_succ h hm hw]
    cases k with
    | zero => cases m.step <;> simp [Machine.after?]
    | succ k =>
      cases hs : m.step with
      | none => simp [Machine.after?, hs]
      | some next =>
        have hnumber : number + (k + 1) = number + 1 + k := by omega
        simp [Machine.after?, hs, hnumber, ih (h.step hs)]

theorem length_traceFrom_le_iff (h : m.WellFormed f) (hm : f.wordFault? memory = none)
    (hw : f.wordBits ≤ 14000) (k : Nat) :
    (traceFrom memory budget n number m).1.length ≤ k ↔ n ≤ k ∨ m.after? k = none := by
  rw [← List.getElem?_eq_none_iff, traceFrom_getElem? h hm hw]
  by_cases hk : k < n
  · simp [hk]
  · simp [hk, Nat.le_of_not_lt hk]

theorem length_traceFrom_of_reached {s : Machine} (h : m.WellFormed f)
    (hm : f.wordFault? memory = none) (hw : f.wordBits ≤ 14000) (hs : m.after? n = some s) :
    (traceFrom memory budget n number m).1.length = n := by
  refine Nat.le_antisymm ((length_traceFrom_le_iff h hm hw n).mpr (.inl n.le_refl)) ?_
  -- The machine is still running after as many steps as there are lines.
  by_contra hlt
  rcases (length_traceFrom_le_iff h hm hw _).mp (Nat.le_refl _) with hle | hn
  · exact hlt hle
  · obtain ⟨t, ht, -⟩ := Machine.running_of_after? hs (Nat.lt_of_not_le hlt)
    rw [ht] at hn
    cases hn

theorem length_traceFrom_of_stop {k : Nat} {s : Machine} (h : m.WellFormed f)
    (hm : f.wordFault? memory = none) (hw : f.wordBits ≤ 14000) (hk : k < n)
    (hs : m.after? k = some s) (hstop : s.instruction.kind = .stop) :
    (traceFrom memory budget n number m).1.length = k + 1 := by
  have hlast : m.after? (k + 1) = none := by
    rw [Machine.after?_add, hs]
    simp [Machine.after?, Machine.step_eq_none_iff.mpr hstop]
  refine Nat.le_antisymm ((length_traceFrom_le_iff h hm hw _).mpr (.inr hlast)) ?_
  by_contra hlt
  rcases (length_traceFrom_le_iff h hm hw k).mp (Nat.le_of_not_lt hlt) with hle | hn
  · omega
  · rw [hs] at hn
    cases hn

theorem escape_notMem_traceFrom (h : m.WellFormed f) (hm : f.wordFault? memory = none)
    (hw : f.wordBits ≤ 14000) : ∀ line ∈ (traceFrom memory budget n number m).1,
      escapeCharacter ∉ line := by
  intro line hl
  obtain ⟨k, hk⟩ := List.mem_iff_getElem?.mp hl
  rw [traceFrom_getElem? h hm hw] at hk
  split at hk
  · obtain ⟨s, -, rfl⟩ := Option.map_eq_some_iff.mp hk
    exact s.escape_notMem_traceLine _
  · cases hk

end Capacity

namespace Machine

/-- The lines of a traced run. The last one shows the stop if there is one. -/
structure TraceOf (m : Machine) (budget : Nat) (lines : List Text) : Prop where
  line_eq : ∀ k < lines.length, ∃ s, m.after? k = some s ∧ lines[k]? = some (s.traceLine k)
  length_of_exhausted : ∀ final, (m.run budget).2 = .exhausted final budget →
    lines.length = budget
  length_of_stopped : ∀ address, (m.run budget).2 = .stopped address →
    ∃ steps, m.after? steps = some (m.run budget).1 ∧ lines.length = steps + 1

variable {memory : Memory} {f : WordFormat} {m : Machine}

theorem traceOf_trace (h : m.WellFormed f) (hm : f.wordFault? memory = none)
    (hw : f.wordBits ≤ 14000) (budget : Nat) :
    TraceOf m budget (Capacity.trace memory m budget).1 := by
  refine ⟨fun k hk => ?_, fun final he => ?_, fun address hs => ?_⟩
  · have hline : (Capacity.trace memory m budget).1[k]? = _ := Capacity.traceFrom_getElem? h hm hw k
    have hrunning : ¬(budget ≤ k ∨ m.after? k = none) := fun hn =>
      Nat.not_le_of_lt hk ((Capacity.length_traceFrom_le_iff h hm hw k).mpr hn)
    obtain ⟨hlt, hne⟩ := not_or.mp hrunning
    obtain ⟨s, hs⟩ := Option.ne_none_iff_exists'.mp hne
    rw [Int.toNat_natCast, if_pos (Nat.lt_of_not_le hlt), hs, Nat.zero_add] at hline
    exact ⟨s, hs, hline⟩
  · have hends := runEnds_run m budget
    generalize m.run budget = result at he hends
    cases hends with
    | stopped => cases he
    | exhausted reached => exact Capacity.length_traceFrom_of_reached h hm hw reached
  · have hends := runEnds_run m budget
    generalize m.run budget = result at hs hends ⊢
    cases hends with
    | stopped taken reached stop =>
      exact ⟨_, reached, Capacity.length_traceFrom_of_stop h hm hw taken reached stop⟩
    | exhausted => cases hs

/-- A traced run prints its lines and ends as a run without a trace does: at the same machine, for
the same reason and with the same machine and budget told. -/
theorem runTraced_agrees {host : Host} (hh : host.Lawful) (hm : f.wordFault? host.memory = none)
    (h : m.WellFormed f) (hw : f.wordBits ≤ 14000) (c : Console) (budget : Nat) :
    ∃ lines : List Text,
      c.runTraced host m budget =
        .ok ({ c with stdout := c.stdout ++ lines.flatMap (· ++ ['\n']) }, m.run budget) ∧
      TraceOf m budget lines := by
  refine ⟨(Capacity.trace host.memory m budget).1, ?_, traceOf_trace h hm hw budget⟩
  have hlines : ∀ line ∈ (Capacity.trace host.memory m budget).1, escapeCharacter ∉ line :=
    Capacity.escape_notMem_traceFrom h hm hw
  have hresult : (Capacity.trace host.memory m budget).2 = .ok (m.run budget) :=
    Capacity.traceFrom_snd h hm hw
  simp only [Console.runTraced, Console.foldl_say_of_lawful hh c hlines, hresult]
  rfl

/-- The stop is met by the last step that the budget allows. -/
theorem runTraced_agrees_lastStep :
    let host : Host := .standard .unlimited
    let m := start .standard (.ofProgram .standard demonstration)
    let c : Console := .start false ⟨[], [], []⟩
    host.Lawful ∧ WordFormat.standard.wordFault? host.memory = none ∧ m.WellFormed .standard ∧
      WordFormat.standard.wordBits ≤ 14000 ∧ (m.run (5 : Nat)).2 = .stopped 4 ∧
      ∃ lines : List Text,
        c.runTraced host m (5 : Nat) =
          .ok ({ c with stdout := c.stdout ++ lines.flatMap (· ++ ['\n']) }, m.run (5 : Nat)) ∧
        TraceOf m 5 lines := by
  intro host m c
  have hh : host.Lawful := Host.lawful_standard .unlimited
  have hword : WordFormat.standard.wordFault? host.memory = none := by decide
  have hm : m.WellFormed .standard :=
    wellFormed_start (isWord_ofWords (by simp [WordFormat.isWord_toWord]))
  exact ⟨hh, hword, hm, by decide, by decide +kernel,
    runTraced_agrees hh hword hm (by decide) c 5⟩

end Machine

end ManchesterBaby
