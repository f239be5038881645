import Mathlib.Data.List.Flatten
import Mathlib.Data.List.TakeWhile
import ManchesterBaby.Proofs.FileStore
import ManchesterBaby.Proofs.Text.Lines

/-! The normal form of a path leads to the file that the path leads to. Only segments are left out
that stay where they are, and of several slashes at the start all stand for the root. -/

namespace ManchesterBaby

namespace Text

theorem intercalate_sublist (separator : Text) {ls ms : List Text} (h : ls.Sublist ms) :
    (List.intercalate separator ls).Sublist (List.intercalate separator ms) := by
  induction h with
  | slnil => exact List.Sublist.refl _
  | @cons ls ms m h ih =>
    by_cases hn : ms = []
    · subst hn
      rw [List.sublist_nil.mp h]
      exact List.nil_sublist _
    · rw [List.intercalate_cons_of_ne_nil hn]
      exact ih.trans (List.sublist_append_right _ _)
  | @cons_cons ls ms l h ih =>
    by_cases hn : ls = []
    · subst hn
      rw [List.intercalate_singleton]
      cases ms with
      | nil => rw [List.intercalate_singleton]
      | cons m ms =>
        rw [List.intercalate_cons_cons, List.append_assoc]
        exact List.sublist_append_left _ _
    · have hm : ms ≠ [] := fun he => hn (List.sublist_nil.mp (he ▸ h))
      rw [List.intercalate_cons_of_ne_nil hn, List.intercalate_cons_of_ne_nil hm]
      exact ih.append_left _

end Text

namespace Path

/-- A segment that leads on. -/
def isProper (segment : Text) : Bool := !segment.isEmpty && segment != ['.']

def properSegments (t : Text) : List Text := (segments t).filter isProper

def root (t : Text) : Text :=
  let slashes := (t.takeWhile (· == '/')).length
  if slashes = 0 then [] else if slashes = 2 then ['/', '/'] else ['/']

variable {t segment : Text} {p : Path}

theorem next_of_not_isProper (h : isProper segment = false) : p.next segment = p := by
  rw [next, if_pos]
  simpa [isProper, imp_iff_not_or, or_comm] using h

theorem head?_properSegments (h : properSegments t ≠ []) :
    ∃ c s ss, properSegments t = (c :: s) :: ss ∧ c ≠ '/' := by
  obtain ⟨s, ss, hs⟩ := List.exists_cons_of_ne_nil h
  obtain ⟨hm, hp⟩ := List.mem_filter.mp (hs ▸ List.mem_cons_self : s ∈ properSegments t)
  cases s with
  | nil => cases hp
  | cons c s =>
    refine ⟨c, s, ss, hs, ?_⟩
    rintro rfl
    exact Text.notMem_of_mem_pieces hm List.mem_cons_self

theorem head?_body (h : properSegments t ≠ []) :
    ∃ c rest, List.intercalate ['/'] (properSegments t) = c :: rest ∧ c ≠ '/' := by
  obtain ⟨c, s, ss, hs, hc⟩ := head?_properSegments h
  rw [hs]
  cases ss with
  | nil => exact ⟨c, s, List.intercalate_singleton, hc⟩
  | cons s' ss => exact ⟨c, _, by rw [List.intercalate_cons_cons]; rfl, hc⟩

theorem normal_eq (h : properSegments t ≠ []) :
    normal t = root t ++ List.intercalate ['/'] (properSegments t) := by
  obtain ⟨c, rest, hb, -⟩ := head?_body h
  have hne : (root t ++ List.intercalate ['/'] (properSegments t)).isEmpty = false := by
    rw [hb]
    simp
  exact if_neg (by rw [Bool.not_eq_true]; exact hne)

theorem normal_ne_nil (h : properSegments t ≠ []) : normal t ≠ [] := by
  obtain ⟨c, rest, hb, -⟩ := head?_body h
  rw [normal_eq h, hb]
  exact List.append_ne_nil_of_right_ne_nil _ (List.cons_ne_nil c rest)

theorem properSegments_dropWhile (t : Text) :
    properSegments (t.dropWhile (· == '/')) = properSegments t := by
  induction t with
  | nil => rfl
  | cons c t ih =>
    by_cases hc : c = '/'
    · subst hc
      exact ih
    · rw [List.dropWhile_cons_of_neg (by simpa using hc)]

theorem root_sublist (t : Text) : (root t).Sublist (t.takeWhile (· == '/')) := by
  have hr : t.takeWhile (· == '/') = List.replicate (t.takeWhile (· == '/')).length '/' := by
    refine List.eq_replicate_of_mem fun c hc => ?_
    simpa using List.mem_takeWhile_imp hc
  rw [hr, root]
  generalize (t.takeWhile (· == '/')).length = slashes
  match slashes with
  | 0 => exact List.nil_sublist _
  | 1 => exact List.Sublist.refl _
  | 2 => exact List.Sublist.refl _
  | n + 3 => exact List.singleton_sublist.mpr List.mem_cons_self

theorem normal_sublist (h : properSegments t ≠ []) : (normal t).Sublist t := by
  have hb : (List.intercalate ['/'] (properSegments t)).Sublist (t.dropWhile (· == '/')) := by
    have hs := Text.intercalate_sublist ['/']
      (List.filter_sublist (p := isProper) (l := segments (t.dropWhile (· == '/'))))
    have hj : List.intercalate ['/'] (segments (t.dropWhile (· == '/'))) =
        t.dropWhile (· == '/') := by
      rw [segments, Text.pieces_eq_splitOn, List.intercalate_splitOn]
    rw [hj] at hs
    rw [← properSegments_dropWhile]
    exact hs
  rw [normal_eq h]
  conv => rhs; rw [← List.takeWhile_append_dropWhile (p := (· == '/')) (l := t)]
  exact (root_sublist t).append hb

theorem head?_root (t : Text) : root t = [] ∧ t.head? ≠ some '/' ∨
    t.head? = some '/' ∧ ∃ n, root t = List.replicate (n + 1) '/' := by
  cases t with
  | nil => exact .inl ⟨rfl, by simp⟩
  | cons c t =>
    by_cases hc : c = '/'
    · subst hc
      refine .inr ⟨rfl, ?_⟩
      rw [root, List.takeWhile_cons_of_pos (by simp), List.length_cons]
      by_cases h : (t.takeWhile (· == '/')).length + 1 = 2
      · exact ⟨1, by simp [h]⟩
      · exact ⟨0, by simp [h]⟩
    · refine .inl ⟨?_, by simpa using hc⟩
      rw [root, List.takeWhile_cons_of_neg (by simpa using hc)]
      rfl

theorem head?_normal (h : properSegments t ≠ []) :
    (normal t).head? = some '/' ↔ t.head? = some '/' := by
  obtain ⟨c, rest, hb, hc⟩ := head?_body h
  rw [normal_eq h, hb]
  rcases head?_root t with ⟨hr, ht⟩ | ⟨ht, n, hr⟩
  · simp [hr, hc, ht]
  · simp [hr, ht, List.replicate_succ]

theorem segments_normal (h : properSegments t ≠ []) :
    ∃ n, segments (normal t) = List.replicate n [] ++ properSegments t := by
  have hs : segments (List.intercalate ['/'] (properSegments t)) = properSegments t := by
    rw [segments, Text.pieces_eq_splitOn]
    refine List.splitOn_intercalate '/' (fun s hs => ?_) h
    exact Text.notMem_of_mem_pieces (List.mem_filter.mp hs).1
  have hr : ∀ (n : Nat) (b : Text),
      segments (List.replicate n '/' ++ b) = List.replicate n [] ++ segments b := by
    intro n b
    induction n with
    | zero => rfl
    | succ n ih => exact congrArg ([] :: ·) ih
  rw [normal_eq h]
  rcases head?_root t with ⟨hn, -⟩ | ⟨-, n, hn⟩
  · exact ⟨0, by rw [hn, List.nil_append, hs]; rfl⟩
  · exact ⟨n + 1, by rw [hn, hr, hs]⟩

end Path

namespace FileStore

variable {s : FileStore} {p q : Path} {segments : List Text}

theorem follow_properSegments (h : s.follow p segments = .ok q) :
    s.follow p (segments.filter Path.isProper) = .ok q := by
  induction segments generalizing p with
  | nil => exact h
  | cons segment rest ih =>
    obtain ⟨hd, hl, hf⟩ := follow_cons_eq_ok h
    by_cases hp : Path.isProper segment = true
    · rw [List.filter_cons_of_pos hp, follow, hd]
      exact (if_neg (Nat.not_lt.mpr hl)).trans (ih hf)
    · rw [List.filter_cons_of_neg hp]
      rw [Path.next_of_not_isProper (Bool.not_eq_true _ ▸ hp)] at hf
      exact ih hf

theorem follow_replicate (hd : s.node? p = some .directory) (n : Nat) (segments : List Text) :
    s.follow p (List.replicate n [] ++ segments) = s.follow p segments := by
  induction n with
  | zero => rfl
  | succ n ih =>
    rw [List.replicate_succ, List.cons_append, follow, hd]
    exact ih

/-- What is a file under a path is read under its normal form. -/
theorem read_normal {t : Text} {octets : Utf8.Octets} (h : s.stat t = .ok (.file octets)) :
    s.read (Path.normal t) = .ok octets := by
  rw [stat] at h
  cases hl : s.locate t with
  | error f =>
    rw [hl] at h
    cases h
  | ok p =>
    simp only [hl] at h
    cases hn : s.node? p with
    | none =>
      rw [hn] at h
      cases h
    | some node =>
      rw [hn] at h
      obtain rfl : node = .file octets := Except.ok.inj h
      obtain ⟨⟨hz, -, hlength⟩, hf⟩ := locate_eq_ok_iff.mp hl
      generalize hstart : (if t.head? = some '/' then [] else s.here) = start at hf
      have hd : s.node? start = some .directory := by
        have hne : Path.segments t ≠ [] := by
          rw [Path.segments, Text.pieces_eq_splitOn]
          exact List.splitOn_ne_nil '/' t
        obtain ⟨segment, rest, hs⟩ := List.exists_cons_of_ne_nil hne
        rw [hs] at hf
        exact (follow_cons_eq_ok hf).1
      have hproper := follow_properSegments hf
      -- a path without proper segments leads nowhere but to a directory
      have hne : Path.properSegments t ≠ [] := by
        intro he
        rw [show (Path.segments t).filter Path.isProper = [] from he] at hproper
        cases hproper
        rw [hd] at hn
        cases hn
      have hlocate : s.locate (Path.normal t) = .ok p := by
        have hsub := Path.normal_sublist hne
        obtain ⟨n, hsegments⟩ := Path.segments_normal hne
        have hhead : ((Path.normal t).head? = some '/') = (t.head? = some '/') :=
          propext (Path.head?_normal hne)
        refine locate_eq_ok_iff.mpr ⟨⟨fun hm => hz (hsub.subset hm), ?_, ?_⟩, ?_⟩
        · exact Path.normal_ne_nil hne
        · exact Nat.lt_of_le_of_lt (hsub.flatMap _).length_le hlength
        · simp only [hhead, hstart]
          rw [hsegments, follow_replicate hd]
          exact hproper
      rw [read, stat, hlocate]
      simp only [hn]

end FileStore

end ManchesterBaby
