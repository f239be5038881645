import ManchesterBaby.Proofs.Diagnostic
import ManchesterBaby.Proofs.Source.Grammar

/-! What the fault of a line quotes: the code of the line, a part of it, or the name of a form. None
of them has a line feed if the line has none. -/

namespace ManchesterBaby

theorem Text.feed_notMem_lower {t : Text} (h : '\n' ∉ t) : '\n' ∉ t.lower := fun hc =>
  h (mem_of_blank_mem_lowerAfter hc (by decide))

theorem Text.feed_notMem_trim {t : Text} (h : '\n' ∉ t) : '\n' ∉ t.trim := fun hc =>
  h (mem_of_mem_trim hc)

theorem feed_notMem_of_isTagName {name : Text} (h : isTagName name = true) : '\n' ∉ name := by
  intro hc
  cases (Value.isTagName_iff.mp h).2 _ hc

theorem Unbroken.feed_notMem {line : Text} (h : Unbroken line) : '\n' ∉ line := by
  intro hc
  cases h _ hc

variable {d : Dialect} {t line : Text} {f : Fault}

namespace Value

theorem oneLine_fault (h : '\n' ∉ t) : (fault t).OneLine := by
  have hr : ∀ r : Radix, '\n' ∉ r.name := fun r => by cases r <;> decide
  rw [fault.eq_def]
  split
  · exact List.forall_mem_cons.mpr ⟨h, List.forall_mem_singleton.mpr (by decide)⟩
  · next m rest =>
    have hrest : '\n' ∉ rest := fun hc => h (by simp [hc])
    have hdigits : '\n' ∉ if rest.head? = some '-' then rest.tail else rest := by
      split
      · exact fun hc => hrest (List.mem_of_mem_tail hc)
      · exact hrest
    generalize (if rest.head? = some '-' then rest.tail else rest) = digits at hdigits
    dsimp only
    split
    · next r _ =>
      refine List.forall_mem_cons.mpr ⟨?_, List.forall_mem_singleton.mpr (hr r)⟩
      split
      · exact h
      · exact hdigits
    · exact List.forall_mem_singleton.mpr h
  · exact List.forall_mem_singleton.mpr h

theorem oneLine_of_read (h : '\n' ∉ t) (hf : Value.read t = .error f) : f.OneLine := by
  rw [read_eq_fault hf]
  exact oneLine_fault (Text.feed_notMem_trim h)

theorem isTagName_of_read {tag : Text} (h : Value.read t = .ok (.reference tag)) :
    isTagName tag = true := by
  have hw := read_eq_ok_iff.mp h
  generalize t.trim = w at hw
  rcases hw with hw | hw
  · cases hw with
    | reference hne hb => exact isTagName_iff.mpr ⟨hne, hb⟩
  · cases hw

end Value

namespace Dialect

theorem oneLine_of_readOrder {kind : Kind} (h : '\n' ∉ t) (hf : readOrder kind t = .error f) :
    f.OneLine :=
  Value.oneLine_of_read h (map_eq_error_iff.mp hf)

theorem oneLine_of_readModern (h : '\n' ∉ t) (hf : readModern t = .error f) : f.OneLine := by
  have htext : '\n' ∉ t.trim.lower := Text.feed_notMem_lower (Text.feed_notMem_trim h)
  rw [readModern] at hf
  generalize t.trim.lower = text at hf htext
  split at hf
  · cases hf
  · split at hf
    · cases hf
      have hm : '\n' ∉ text.takeWhile (· != ' ') := fun hc =>
        htext ((List.takeWhile_sublist _).subset hc)
      exact List.forall_mem_cons.mpr ⟨htext, List.forall_mem_singleton.mpr hm⟩
    · refine oneLine_of_readOrder (fun hc => htext ?_) hf
      exact (List.dropWhile_sublist _).subset (List.mem_of_mem_drop hc)
  · cases hf
    exact List.forall_mem_singleton.mpr htext

theorem Form.mem_of_mem_operand {form : Form} {operand : Text} {c : Char}
    (h : form.operand? t = some operand) (hc : c ∈ operand) : c ∈ t := by
  rw [operand?] at h
  split at h <;> cases h
  exact List.mem_of_mem_take (List.mem_of_mem_drop hc)

theorem oneLine_of_readHistorical (h : '\n' ∉ t) (hf : readHistorical t = .error f) :
    f.OneLine := by
  have htext : '\n' ∉ t.trim.lower := Text.feed_notMem_lower (Text.feed_notMem_trim h)
  rw [readHistorical] at hf
  generalize t.trim.lower = text at hf htext
  split at hf
  · cases hf
  · split at hf
    · next kind operand hs =>
      obtain ⟨form, -, ho⟩ := List.exists_of_findSome?_eq_some hs
      obtain ⟨_, ho, hk⟩ := Option.map_eq_some_iff.mp ho
      cases hk
      exact oneLine_of_readOrder (fun hc => htext (form.mem_of_mem_operand ho hc)) hf
    · cases hf
      exact List.forall_mem_singleton.mpr htext

theorem oneLine_of_readCode {code : Text} (h : '\n' ∉ code) (hf : d.readCode code = .error f) :
    f.OneLine := by
  rw [readCode.eq_def] at hf
  split at hf
  · next name =>
    rw [Statement.readTag] at hf
    split at hf <;> cases hf
    have hname : '\n' ∉ name := List.not_mem_of_not_mem_cons h
    exact List.forall_mem_singleton.mpr (Text.feed_notMem_trim hname)
  · next value =>
    refine Value.oneLine_of_read (fun hc => h ?_) (map_eq_error_iff.mp hf)
    simp [hc]
  · have he := map_eq_error_iff.mp hf
    cases d with
    | modern => exact oneLine_of_readModern h he
    | historical => exact oneLine_of_readHistorical h he

end Dialect

theorem Statement.oneLine_of_read (h : '\n' ∉ line) (hf : Statement.read d line = .error f) :
    f.OneLine := by
  rw [read_eq_readCode] at hf
  refine Dialect.oneLine_of_readCode (Text.feed_notMem_lower (Text.feed_notMem_trim ?_)) hf
  exact fun hc => h ((List.takeWhile_sublist _).subset hc)

end ManchesterBaby
