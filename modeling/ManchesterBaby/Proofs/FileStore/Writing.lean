import ManchesterBaby.Failure
import ManchesterBaby.Proofs.FileStore

/-! What writing files one after the other leaves: each file holds what was written to it and can
be read under its path, and nothing else has changed. -/

namespace ManchesterBaby

namespace FileStore

variable {s written : FileStore} {p : Path} {t : Text} {content : Utf8.Octets}

theorem node?_eq_file_iff : s.node? p = some (.file content) ↔ s.files.lookup p = some content := by
  rw [node?]
  cases s.files.lookup p with
  | none =>
    simp only [reduceCtorEq, iff_false]
    split <;> simp
  | some other => simp

theorem read_eq_ok_iff :
    s.read t = .ok content ↔ ∃ p, s.locate t = .ok p ∧ s.files.lookup p = some content := by
  rw [read, stat]
  cases s.locate t with
  | error f => simp
  | ok p =>
    simp only [Except.ok.injEq, exists_eq_left', ← node?_eq_file_iff]
    cases s.node? p with
    | none => simp
    | some node => cases node <;> simp

theorem write_of_locate (h : s.locate t = .ok p) (hd : s.isDirectory p = false)
    (content : Utf8.Octets) : s.write t content = .ok (s.put p content) := by
  simp only [write, h, hd]
  rfl

/-- The texts are written to their paths, and no file but theirs is touched. -/
structure Wrote (s : FileStore) (outputs : List (Text × Text)) (written : FileStore) : Prop where
  here : written.here = s.here
  directories : written.directories = s.directories
  locate : ∀ t p, s.locate t = .ok p → written.locate t = .ok p
  writable : ∀ t, s.Writable t → written.Writable t
  read : ∀ output ∈ outputs,
    written.read (Path.normal output.1) = .ok (Utf8.encode output.2)
  lookup : ∀ p, (∀ output ∈ outputs, s.locate (Path.normal output.1) ≠ .ok p) →
    written.files.lookup p = s.files.lookup p

theorem Wrote.nil (s : FileStore) : s.Wrote [] s where
  here := rfl
  directories := rfl
  locate _ _ h := h
  writable _ h := h
  read := by simp
  lookup _ _ := rfl

/-- One more file, at a place where none of the others is. -/
theorem Wrote.concat {outputs : List (Text × Text)} {path : Text} (h : s.Wrote outputs written)
    (hpath : s.Writable (Path.normal path))
    (hne : ∀ output ∈ outputs, s.locate (Path.normal output.1) ≠ s.locate (Path.normal path))
    (hl : ∀ output ∈ outputs, s.Writable (Path.normal output.1)) (t : Text) :
    ∃ later, written.writeText path t = .ok later ∧ s.Wrote (outputs ++ [(path, t)]) later := by
  have hw := h.writable _ hpath
  obtain ⟨p, hp, -⟩ := hpath
  have hp' := h.locate _ p hp
  have hd : written.isDirectory p = false := by
    obtain ⟨q, hq, hd⟩ := hw
    rw [hp'] at hq
    cases hq
    exact hd
  have hwrite := write_of_locate hp' hd (Utf8.encode t)
  obtain ⟨later, hlater, hwritable⟩ := write_of_writable hw (Utf8.encode t)
  rw [hwrite] at hlater
  obtain rfl := Except.ok.inj hlater
  refine ⟨written.put p (Utf8.encode t), by rw [writeText, hwrite]; rfl, ?_⟩
  refine
    { here := h.here
      directories := h.directories
      locate := fun u q hq => locate_put hd (h.locate u q hq)
      writable := fun u hu => hwritable u (h.writable u hu)
      read := ?_
      lookup := ?_ }
  · intro output hm
    rw [read_eq_ok_iff]
    rcases List.mem_append.mp hm with hm | hm
    · obtain ⟨q, hq, hc⟩ := read_eq_ok_iff.mp (h.read output hm)
      refine ⟨q, locate_put hd hq, ?_⟩
      obtain ⟨q', hs, -⟩ := hl output hm
      obtain rfl : q = q' := Except.ok.inj (hq.symm.trans (h.locate _ _ hs))
      have hqp : q ≠ p := by
        rintro rfl
        exact hne output hm (hs.trans hp.symm)
      rw [lookup_put, if_neg hqp, hc]
    · rw [List.mem_singleton.mp hm]
      exact ⟨p, locate_put hd hp', by rw [lookup_put, if_pos rfl]⟩
  · intro q hq
    have hqp : q ≠ p := by
      rintro rfl
      exact hq (path, t) (by simp) hp
    rw [lookup_put, if_neg hqp]
    exact h.lookup q fun output hm => hq output (List.mem_append_left _ hm)

end FileStore

end ManchesterBaby
