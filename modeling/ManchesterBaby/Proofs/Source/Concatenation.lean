import ManchesterBaby.Proofs.Link.Placement
import ManchesterBaby.Proofs.Source.Reading

/-! Reading goes line by line. Of two texts with a line feed between them each is read as it is read
alone, and what comes of the second stands further down. -/

namespace ManchesterBaby

def Location.down (k : Nat) (l : Location) : Location := { l with line := l.line + k }

/-- So many lines further down. The column and the source line stay. -/
def Relocation.down (k : Nat) : Relocation :=
  ⟨fun location source => (location.map (·.down k), source), rfl⟩

/-- Reads lines that are numbered from `first` on. -/
def readLines (d : Dialect) (file : Text) (first : Nat) (lines : List Text) :
    Except Diagnostic (List Line) :=
  ((lines.zipIdx first).filter fun x => !isVoid x.1).mapM fun x =>
    readLine d (some ⟨file, x.2, firstColumn x.1⟩) x.1

variable (d : Dialect) (file : Text)

theorem readSource_eq (source : Text) :
    readSource d file source = readLines d file 1 source.lines := rfl

theorem readLines_append (first : Nat) (above below : List Text) :
    readLines d file first (above ++ below) =
      readLines d file first above >>= fun lines =>
        (readLines d file (first + above.length) below).map (lines ++ ·) := by
  rw [readLines, List.zipIdx_append, List.filter_append, mapM_append]
  rfl

theorem readLines_append_void (first : Nat) {above : List Text} {line : Text}
    (h : isVoid line = true) :
    readLines d file first (above ++ [line]) = readLines d file first above := by
  have hn : readLines d file (first + above.length) [line] = .ok [] := by
    simp [readLines, h, pure, Except.pure]
  rw [readLines_append, hn]
  cases readLines d file first above with
  | error e => rfl
  | ok lines => exact congrArg Except.ok (List.append_nil lines)

theorem readLine_down (k : Nat) (location : Location) (line : Text) :
    readLine d (some (location.down k)) line =
      ((readLine d (some location) line).map (Placed.relocate (.down k))).mapError
        (Placed.relocate (.down k)) := by
  rw [readLine, readLine]
  cases Statement.read d line <;> rfl

/-- The numbers of the lines are seen in the places alone. -/
theorem readLines_add (first k : Nat) (lines : List Text) :
    readLines d file (first + k) lines =
      ((readLines d file first lines).map (List.map (Placed.relocate (.down k)))).mapError
        (Placed.relocate (.down k)) := by
  have hl : ∀ x : Text × Nat,
      readLine d (some ⟨file, (x.2 + k : Nat), firstColumn x.1⟩) x.1 =
        ((readLine d (some ⟨file, x.2, firstColumn x.1⟩) x.1).map
          (Placed.relocate (.down k))).mapError (Placed.relocate (.down k)) :=
    fun x => readLine_down d k ⟨file, x.2, firstColumn x.1⟩ x.1
  rw [readLines, readLines, Nat.add_comm, ← List.map_snd_add_zipIdx_eq_zipIdx, List.filter_map,
    List.mapM_map, map_mapM, ← mapM_mapError]
  exact mapM_congr fun x _ => hl x

/-- What is read of a text is what is read above, then what is read below, further down by the lines
above. The first that cannot be read decides, and its diagnostic moves with it. -/
theorem readSource_append_feed (above below : Text) :
    let r := Relocation.down (above ++ ['\n']).lines.length
    readSource d file (above ++ '\n' :: below) =
      readSource d file above >>= fun first =>
        ((readSource d file below).mapError (Placed.relocate r)).map fun second =>
          first ++ second.map (Placed.relocate r) := by
  intro r
  obtain ⟨lines, -, hlines, hfeed⟩ := above.exists_lines_append_feed
  have hall : (above ++ ['\n']).lines = lines := (hfeed []).trans (List.append_nil lines)
  have habove : readLines d file 1 lines = readSource d file above := by
    rcases hlines with rfl | rfl
    · rfl
    · exact readLines_append_void d file 1 rfl
  rw [readSource_eq, hfeed, readLines_append, habove, readLines_add, ← hall,
    readSource_eq d file below]
  cases readSource d file above with
  | error e => rfl
  | ok first => cases readLines d file 1 below.lines <;> rfl

/-- The carriage return and the line feed are one break, so the second text begins on line two. -/
example :
    readSource .modern [] ("stp\r".toList ++ '\n' :: " jmp 5".toList) =
      .error ⟨.invalidValue ['5'] none, some ⟨[], 2, 2⟩, some " jmp 5".toList⟩ := by
  decide +kernel

end ManchesterBaby
