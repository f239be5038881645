import Mathlib.Data.List.Basic
import ManchesterBaby.FileStore

/-! Where files can be written. A file that is written takes the place of a file or of nothing, and
never of a directory, so every directory stays one and every path leads where it led. -/

namespace ManchesterBaby

namespace FileStore

variable {s : FileStore} {p q : Path} {content : Utf8.Octets}

/-- A file can be written at the path. -/
def Writable (s : FileStore) (t : Text) : Prop :=
  ∃ p, s.locate t = .ok p ∧ s.isDirectory p = false

theorem isDirectory_iff :
    s.isDirectory p = true ↔
      p <+: s.here ∨ (∃ d ∈ s.directories, p <+: d) ∨ ∃ f ∈ s.files, p <+: f.1 ∧ p ≠ f.1 := by
  simp [isDirectory, or_assoc]

theorem isDirectory_of_prefix (hq : q <+: p) (h : s.isDirectory p = true) :
    s.isDirectory q = true := by
  rw [isDirectory_iff] at h ⊢
  rcases h with h | ⟨d, hd, h⟩ | ⟨f, hf, h, hn⟩
  · exact .inl (hq.trans h)
  · exact .inr (.inl ⟨d, hd, hq.trans h⟩)
  · refine .inr (.inr ⟨f, hf, hq.trans h, ?_⟩)
    rintro rfl
    exact hn (h.eq_of_length_le hq.length_le)

theorem isDirectory_put (h : s.isDirectory q = true) : (s.put p content).isDirectory q = true := by
  rw [isDirectory_iff] at h ⊢
  rcases h with h | h | ⟨f, hf, h, hn⟩
  · exact .inl h
  · exact .inr (.inl h)
  · right
    right
    by_cases he : f.1 = p
    · exact ⟨(p, content), List.mem_cons_self, he ▸ h, he ▸ hn⟩
    · have hm : f ∈ s.files.filter (·.1 != p) := List.mem_filter.mpr ⟨hf, bne_iff_ne.mpr he⟩
      exact ⟨f, List.mem_cons_of_mem _ hm, h, hn⟩

/-- A new directory is one that the file is put into. -/
theorem isDirectory_of_put (h : (s.put p content).isDirectory q = true) :
    s.isDirectory q = true ∨ q <+: p ∧ q ≠ p := by
  rw [isDirectory_iff] at h ⊢
  rcases h with h | h | ⟨f, hf, h, hn⟩
  · exact .inl (.inl h)
  · exact .inl (.inr (.inl h))
  · rcases List.mem_cons.mp hf with rfl | hf
    · exact .inr ⟨h, hn⟩
    · exact .inl (.inr (.inr ⟨f, (List.mem_filter.mp hf).1, h, hn⟩))

theorem node?_eq_directory_iff :
    s.node? p = some .directory ↔ s.files.lookup p = none ∧ s.isDirectory p = true := by
  rw [node?]
  cases s.files.lookup p <;> simp

theorem node?_put (hp : s.isDirectory p = false) (h : s.node? q = some .directory) :
    (s.put p content).node? q = some .directory := by
  rw [node?_eq_directory_iff] at h ⊢
  have hn : q ≠ p := by
    rintro rfl
    rw [hp] at h
    cases h.2
  rw [lookup_put, if_neg hn]
  exact ⟨h.1, isDirectory_put h.2⟩

theorem follow_cons_eq_ok {segment : Text} {rest : List Text}
    (h : s.follow p (segment :: rest) = .ok q) :
    s.node? p = some .directory ∧ (Utf8.encode segment).length ≤ 255 ∧
      s.follow (p.next segment) rest = .ok q := by
  rw [follow] at h
  split at h
  · cases h
  · cases h
  · next hd =>
    split at h
    · cases h
    · next hl => exact ⟨hd, Nat.le_of_not_lt hl, h⟩

theorem prefix_next {segment : Text} (h : q <+: p.next segment) :
    q <+: p ∨ q = p.next segment := by
  have hn : p.next segment = p ∨ p.next segment = p.dropLast ∨
      p.next segment = p ++ [segment] := by
    rw [Path.next]
    split
    · exact .inl rfl
    · split
      · exact .inr (.inl rfl)
      · exact .inr (.inr rfl)
  rcases hn with hn | hn | hn
  · exact .inl (hn ▸ h)
  · exact .inl ((hn ▸ h : q <+: p.dropLast).trans (List.dropLast_prefix p))
  · rw [hn] at h ⊢
    exact (List.prefix_concat_iff.mp h).symm

theorem isDirectory_of_follow {segments : List Text} {start : Path}
    (hs : ∀ d, d <+: start → d ≠ start → s.isDirectory d = true)
    (h : s.follow start segments = .ok p) :
    ∀ d, d <+: p → d ≠ p → s.isDirectory d = true := by
  induction segments generalizing start with
  | nil =>
    cases h
    exact hs
  | cons segment rest ih =>
    obtain ⟨hd, -, hf⟩ := follow_cons_eq_ok h
    -- a directory on the way to the next place is on the way to this one, or is this one
    refine ih ?_ hf
    intro d hp hn
    exact isDirectory_of_prefix ((prefix_next hp).resolve_right hn) (node?_eq_directory_iff.mp hd).2

theorem follow_put {segments : List Text} {start : Path} (hp : s.isDirectory p = false)
    (h : s.follow start segments = .ok q) :
    (s.put p content).follow start segments = .ok q := by
  induction segments generalizing start with
  | nil => exact h
  | cons segment rest ih =>
    obtain ⟨hd, hl, hf⟩ := follow_cons_eq_ok h
    rw [follow, node?_put hp hd]
    exact (if_neg (Nat.not_lt.mpr hl)).trans (ih hf)

theorem locate_eq_ok_iff {t : Text} :
    s.locate t = .ok p ↔
      ('\x00' ∉ t ∧ t ≠ [] ∧ (Utf8.encode t).length < 4096) ∧
        s.follow (if t.head? = some '/' then [] else s.here) (Path.segments t) = .ok p := by
  by_cases hz : '\x00' ∈ t
  · simp [locate, hz]
  · by_cases he : t = []
    · simp [locate, he]
    · by_cases hl : 4096 ≤ (Utf8.encode t).length
      · simp [locate, hz, he, hl, Nat.not_lt.mpr hl]
      · simp [locate, hz, he, hl, Nat.lt_of_not_le hl]

theorem isDirectory_of_locate {t : Text} (h : s.locate t = .ok p) (hq : q <+: p) (hn : q ≠ p) :
    s.isDirectory q = true := by
  refine isDirectory_of_follow ?_ (locate_eq_ok_iff.mp h).2 q hq hn
  intro d hd hne
  split at hd
  · exact absurd (List.prefix_nil.mp hd) (by simpa [*] using hne)
  · exact isDirectory_iff.mpr (.inl hd)

theorem locate_put {t : Text} (hp : s.isDirectory p = false) (h : s.locate t = .ok q) :
    (s.put p content).locate t = .ok q := by
  rw [locate_eq_ok_iff] at h ⊢
  exact ⟨h.1, follow_put hp h.2⟩

/-- What can be written is written, and whatever else could be written still can. -/
theorem write_of_writable {t : Text} (h : s.Writable t) (content : Utf8.Octets) :
    ∃ written, s.write t content = .ok written ∧
      ∀ other, s.Writable other → written.Writable other := by
  obtain ⟨p, hp, hd⟩ := h
  refine ⟨s.put p content, by simp [write, hp, hd], ?_⟩
  rintro other ⟨q, hq, hn⟩
  refine ⟨q, locate_put hd hq, ?_⟩
  by_contra hc
  have hq : s.isDirectory q = true := by
    rcases isDirectory_of_put (Bool.not_eq_false _ ▸ hc) with ht | ⟨hpre, hne⟩
    · exact ht
    · exact isDirectory_of_locate hp hpre hne
  rw [hn] at hq
  cases hq

end FileStore

end ManchesterBaby
