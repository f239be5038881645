import Mathlib.Algebra.Order.Field.Rat
import Mathlib.Data.List.Nodup
import Mathlib.Tactic.NormNum
import ManchesterBaby.Proofs.Text.Order
import ManchesterBaby.Text.Similarity

/-! The names that are offered for another one are the first of a ranking, which is strict and so
depends on nothing but the set of names that are ranked. -/

namespace ManchesterBaby.Similarity

def Score.ratio (s : Score) : ℚ := s.twice / s.total

def ratio (candidate name : Text) : ℚ := (score candidate name).ratio

/-- The greater ratio comes first, and of equal ratios the greater text. -/
def Outranks (name s t : Text) : Prop :=
  ratio t name < ratio s name ∨ ratio t name = ratio s name ∧ s.le t = false

/-- All texts of a kind that are close to the name, the best first. -/
structure IsRanking (name : Text) (P : Text → Prop) (ranking : List Text) : Prop where
  mem_iff : ∀ t, t ∈ ranking ↔ P t ∧ 3 / 5 ≤ ratio t name
  pairwise : ranking.Pairwise (Outranks name)

variable {name s t u : Text} {candidates ranking : List Text} {P : Text → Prop}

theorem score_total_pos (candidate name : Text) : 0 < (score candidate name).total := by
  rw [score]
  split
  · exact Nat.one_pos
  · next h =>
    rw [Bool.and_eq_true, List.isEmpty_iff, List.isEmpty_iff, not_and_or] at h
    rcases h with h | h
    · exact Nat.add_pos_left (List.length_pos_iff.mpr h) _
    · exact Nat.add_pos_right _ (List.length_pos_iff.mpr h)

theorem Score.le_iff {s t : Score} (hs : 0 < s.total) (ht : 0 < t.total) :
    s.le t = true ↔ s.ratio ≤ t.ratio := by
  have hs' : (0 : ℚ) < s.total := by exact_mod_cast hs
  have ht' : (0 : ℚ) < t.total := by exact_mod_cast ht
  rw [ratio, ratio, div_le_div_iff₀ hs' ht', le, decide_eq_true_iff]
  norm_cast

theorem Score.isClose_iff {s : Score} (hs : 0 < s.total) : s.isClose = true ↔ 3 / 5 ≤ s.ratio := by
  have hs' : (0 : ℚ) < s.total := by exact_mod_cast hs
  rw [ratio, div_le_div_iff₀ (by norm_num) hs', isClose, decide_eq_true_iff, Nat.mul_comm 5]
  norm_cast

theorem isClose_score_iff : (score t name).isClose = true ↔ 3 / 5 ≤ ratio t name :=
  Score.isClose_iff (score_total_pos t name)

/-- The order of two candidates, which are the same where neither comes after the other. -/
def ranks (name s t : Text) : Bool := ranksBefore (s, score s name) (t, score t name)

theorem ranks_iff : ranks name s t = true ↔
    ratio t name < ratio s name ∨ ratio t name = ratio s name ∧ t.le s = true := by
  have h : ∀ s t, (score s name).le (score t name) = true ↔ ratio s name ≤ ratio t name :=
    fun s t => Score.le_iff (score_total_pos s name) (score_total_pos t name)
  rw [ranks, ranksBefore]
  dsimp only
  split
  · next hle =>
    rw [h] at hle
    rw [Bool.and_eq_true, h, or_iff_right hle.not_gt, hle.ge_iff_eq']
  · next hle =>
    rw [h, not_le] at hle
    exact ⟨fun _ => .inl hle, fun _ => rfl⟩

theorem ranks_total (s t : Text) : (ranks name s t || ranks name t s) = true := by
  rw [Bool.or_eq_true, ranks_iff, ranks_iff]
  rcases lt_trichotomy (ratio s name) (ratio t name) with h | h | h
  · exact .inr (.inl h)
  · exact (Text.le_total s t).symm.imp (.inr ⟨h.symm, ·⟩) (.inr ⟨h, ·⟩)
  · exact .inl (.inl h)

theorem ranks_trans (hs : ranks name s t = true) (ht : ranks name t u = true) :
    ranks name s u = true := by
  rw [ranks_iff] at hs ht ⊢
  rcases hs with hs | ⟨hs, hle⟩ <;> rcases ht with ht | ⟨ht, hle'⟩
  · exact .inl (ht.trans hs)
  · exact .inl (ht ▸ hs)
  · exact .inl (hs ▸ ht)
  · exact .inr ⟨ht.trans hs, Text.le_trans hle' hle⟩

theorem outranks_of_ranks (h : ranks name s t = true) (hne : s ≠ t) : Outranks name s t := by
  refine (ranks_iff.mp h).imp_right fun he => ⟨he.1, ?_⟩
  rw [Bool.eq_false_iff]
  exact fun hle => hne (Text.le_antisymm hle he.2)

theorem Outranks.asymm (h : Outranks name s t) : ¬Outranks name t s := by
  rcases h with h | ⟨h, hle⟩ <;> rintro (h' | ⟨h', hle'⟩)
  · exact lt_asymm h h'
  · exact h.ne' h'
  · exact h'.ne' h
  · rcases Text.le_total s t with he | he
    · exact Bool.noConfusion (hle.symm.trans he)
    · exact Bool.noConfusion (hle'.symm.trans he)

theorem ranks_antisymm (hs : ranks name s t = true) (ht : ranks name t s = true) : s = t := by
  by_contra hne
  exact (outranks_of_ranks hs hne).asymm (outranks_of_ranks ht (Ne.symm hne))

theorem Outranks.ne (h : Outranks name s t) : s ≠ t := by
  rintro rfl
  exact h.asymm h

theorem IsRanking.nodup (h : IsRanking name P ranking) : ranking.Nodup :=
  h.pairwise.imp Outranks.ne

theorem IsRanking.congr {Q : Text → Prop} (h : IsRanking name P ranking) (hP : ∀ t, P t ↔ Q t) :
    IsRanking name Q ranking :=
  ⟨fun t => by rw [h.mem_iff, hP], h.pairwise⟩

/-- There is one ranking of the texts of a kind. -/
theorem IsRanking.unique {other : List Text} (h : IsRanking name P ranking)
    (h' : IsRanking name P other) : ranking = other :=
  List.Perm.eq_of_pairwise (fun _ _ _ _ hst hts => absurd hts hst.asymm) h.pairwise h'.pairwise
    ((List.perm_ext_iff_of_nodup h.nodup h'.nodup).mpr fun t => by rw [h.mem_iff, h'.mem_iff])

def ranked (name : Text) (candidates : List Text) : List Text :=
  (candidates.filter fun c => (score c name).isClose).mergeSort (ranks name)

theorem closest_eq_take (name : Text) (candidates : List Text) :
    closest name candidates = (ranked name candidates).take 3 := by
  have hs := List.map_mergeSort (r := ranks name) (s := ranksBefore)
    (f := fun c => (c, score c name)) (l := candidates.filter fun c => (score c name).isClose)
    fun _ _ _ _ => rfl
  rw [closest, List.filter_map]
  refine (congrArg (fun l => (l.take 3).map (·.1)) hs.symm).trans ?_
  rw [← List.map_take, List.map_map]
  exact List.map_id _

theorem mem_ranked_iff : t ∈ ranked name candidates ↔ t ∈ candidates ∧ 3 / 5 ≤ ratio t name := by
  rw [ranked, List.mem_mergeSort, List.mem_filter, isClose_score_iff]

theorem pairwise_ranked (name : Text) (candidates : List Text) :
    (ranked name candidates).Pairwise fun s t => ranks name s t = true := by
  have ht : ∀ s t u, ranks name s t = true → ranks name t u = true → ranks name s u = true :=
    fun _ _ _ => ranks_trans
  exact List.pairwise_mergeSort ht ranks_total _

theorem isRanking_ranked (h : candidates.Nodup) :
    IsRanking name (· ∈ candidates) (ranked name candidates) := by
  have hn : (ranked name candidates).Nodup :=
    (List.mergeSort_perm _ (ranks name)).nodup_iff.mpr (h.filter _)
  exact ⟨fun t => mem_ranked_iff,
    (pairwise_ranked name candidates).imp₂ (fun _ _ => outranks_of_ranks) hn⟩

/-- Sorting is not needed where the close candidates are given in their order. -/
theorem ranked_eq {l : List Text}
    (hp : l.Perm (candidates.filter fun c => (score c name).isClose))
    (hs : l.Pairwise fun s t => ranks name s t = true) : ranked name candidates = l :=
  List.Perm.eq_of_pairwise (fun _ _ _ _ => ranks_antisymm) (pairwise_ranked name candidates) hs
    ((List.mergeSort_perm _ _).trans hp.symm)

theorem mem_of_mem_closest (h : t ∈ closest name candidates) : t ∈ candidates := by
  rw [closest_eq_take] at h
  exact (mem_ranked_iff.mp (List.mem_of_mem_take h)).1

end ManchesterBaby.Similarity
