import ManchesterBaby.Proofs.Link.Linking
import ManchesterBaby.Proofs.Text.Similarity

/-! What is offered for a tag that is not bound. It depends on the name and on the set of the tags
that are bound, and neither on their order nor on their positions. -/

namespace ManchesterBaby

variable {f : WordFormat} {checkSize : Bool} {lines : List Line} {d : Diagnostic} {name : Text}
  {similar : List Text}

def IsBoundTag (lines : List Line) (tag : Text) : Prop := ∃ p, BoundAt lines tag p

theorem similar_of_link (h : link f checkSize lines = .error d)
    (hd : d.item = .unknownTag name similar) : ¬IsBoundTag lines name ∧
      similar = Similarity.closest name (symbolTable (taggedEntries lines)).names := by
  rw [link_eq_error_iff] at h
  split at h
  · subst h
    cases hd
  · obtain ⟨_, _, _, _, -, -, -, hn, rfl⟩ := h
    cases hd
    exact ⟨not_exists.mpr hn, rfl⟩

/-- What is offered are the three best of the bound tags that are close to the name. -/
theorem exists_ranking_of_link (h : link f checkSize lines = .error d)
    (hd : d.item = .unknownTag name similar) :
    ∃ ranking, Similarity.IsRanking name (IsBoundTag lines) ranking ∧
      similar = ranking.take 3 := by
  obtain ⟨-, hs⟩ := similar_of_link h hd
  have hn : (symbolTable (taggedEntries lines)).names.Nodup :=
    SymbolTable.nodup_names_ofBindings _
  have hr : Similarity.IsRanking name _ _ := Similarity.isRanking_ranked hn
  exact ⟨_, hr.congr fun t => mem_names_symbolTable_iff, hs.trans (Similarity.closest_eq_take ..)⟩

theorem hint_unknownTag (h : similar.length ≤ 3) : (Fault.unknownTag name similar).hint =
    if similar = [] then none
    else some ("did you mean ".toList ++
      List.intercalate ", ".toList (similar.map Text.quoted) ++ "?".toList) := by
  rw [Fault.hint, List.take_of_length_le h]
  exact if_congr List.isEmpty_iff rfl rfl

/-- At most three bound tags are offered, the best first, and the same ones for every program that
binds the same tags. They are what the hint quotes. -/
theorem link_suggestions (h : link f checkSize lines = .error d)
    (hd : d.item = .unknownTag name similar) :
    (similar.length ≤ 3 ∧ similar.Nodup ∧
      ∀ t ∈ similar, t ∈ (symbolTable (taggedEntries lines)).names ∧ t ≠ name) ∧
    (∃ ranking, Similarity.IsRanking name (IsBoundTag lines) ranking ∧
      similar = ranking.take 3) ∧
    (∀ g size others e offered, link g size others = .error e →
      e.item = .unknownTag name offered → (∀ t, IsBoundTag others t ↔ IsBoundTag lines t) →
      offered = similar) ∧
    d.item.hint = if similar = [] then none
      else some ("did you mean ".toList ++
        List.intercalate ", ".toList (similar.map Text.quoted) ++ "?".toList) := by
  obtain ⟨ranking, hr, rfl⟩ := exists_ranking_of_link h hd
  have hl : (ranking.take 3).length ≤ 3 := List.length_take_le 3 ranking
  refine ⟨⟨hl, hr.nodup.sublist (List.take_sublist 3 ranking), fun t ht => ?_⟩,
    ⟨ranking, hr, rfl⟩, ?_, hd ▸ hint_unknownTag hl⟩
  · have hb : IsBoundTag lines t := ((hr.mem_iff t).mp (List.mem_of_mem_take ht)).1
    refine ⟨mem_names_symbolTable_iff.mpr hb, ?_⟩
    rintro rfl
    exact (similar_of_link h hd).1 hb
  · intro g size others e offered he hi hb
    obtain ⟨other, hr', rfl⟩ := exists_ranking_of_link he hi
    rw [(hr'.congr hb).unique hr]

/-- Two tags that are equally close and one that is not close enough. Other places and another order
of the tags make no difference. -/
theorem link_suggestions_ties :
    let f := WordFormat.standard
    let name := "abcd".toList
    let place (s : Statement) : Line := ⟨s, none, none⟩
    let program (tags : List String) : List Line := tags.flatMap fun t =>
      [place (.tag t.toList), place (.entry (.order .jump (.reference name)))]
    let lines := program ["abce", "bcd", "abxy", "abcf", "abcde"]
    let others := program ["abcde", "abcf", "abxy", "abce", "bcd", "abcf"]
    let similar := ["abcde".toList, "bcd".toList, "abcf".toList]
    let d : Diagnostic := ⟨.unknownTag name similar, none, none⟩
    (link f true lines = .error d ∧ d.item = .unknownTag name similar) ∧
      (∀ t ∈ similar, t ∈ (symbolTable (taggedEntries lines)).names ∧ t ≠ name) ∧
      ∀ e offered, link f false others = .error e → e.item = .unknownTag name offered →
        offered = similar := by
  intro f name place program lines others similar d
  let names : List Text :=
    ["abce".toList, "bcd".toList, "abxy".toList, "abcf".toList, "abcde".toList]
  have hc : Similarity.closest name names = similar := by
    rw [Similarity.closest_eq_take, Similarity.ranked_eq (l := similar ++ ["abce".toList])]
    · rfl
    · decide +kernel
    · decide +kernel
  have hlink : link f true lines = .error d := by
    have h : link f true lines =
        .error ⟨.unknownTag name (Similarity.closest name names), none, none⟩ := rfl
    rw [h, hc]
  have hp : (symbolTable (taggedEntries others)).names.Perm
      (symbolTable (taggedEntries lines)).names := by decide +kernel
  have hb : ∀ t, IsBoundTag others t ↔ IsBoundTag lines t := fun t =>
    mem_names_symbolTable_iff.symm.trans (hp.mem_iff.trans mem_names_symbolTable_iff)
  obtain ⟨hbound, -, hsame, -⟩ := link_suggestions hlink rfl
  exact ⟨⟨hlink, rfl⟩, hbound.2.2, fun e offered he hi => hsame f false others e offered he hi hb⟩

end ManchesterBaby
