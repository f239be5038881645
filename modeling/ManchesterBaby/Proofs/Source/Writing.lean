import ManchesterBaby.Link.Program
import ManchesterBaby.Proofs.Numeral
import ManchesterBaby.Proofs.Source.Spacing
import ManchesterBaby.Proofs.Source.WellFormed

/-! Writing a program, in either dialect and with every number in a radix of its own. What is
written is made of solid tokens with single spaces between them. -/

namespace ManchesterBaby

/-- The sign stands after the marker. -/
def Value.write (r : Radix) : Value → Text
  | literal n => '0' :: r.letter :: (minus n ++ Nat.toDigits r.base n.natAbs)
  | reference tag => '$' :: tag

def Dialect.writeEntry : Dialect → Kind → Text → Text
  | _, .absoluteValue, value => "abs ".toList ++ value
  | modern, .jump, value => "jmp ".toList ++ value
  | modern, .relativeJump, value => "jrp ".toList ++ value
  | modern, .negate, value => "ldn ".toList ++ value
  | modern, .store, value => "sto ".toList ++ value
  | modern, .subtract, value => "sub ".toList ++ value
  | modern, .skipNextIfNegative, _ => "cmp".toList
  | modern, .stop, _ => "stp".toList
  | historical, .jump, value => value ++ ", cl".toList
  | historical, .relativeJump, value => "add ".toList ++ value ++ ", cl".toList
  | historical, .negate, value => '-' :: value ++ ", c".toList
  | historical, .store, value => "c, ".toList ++ value
  | historical, .subtract, value => "sub ".toList ++ value
  | historical, .skipNextIfNegative, _ => "test".toList
  | historical, .stop, _ => "stop".toList

def Statement.write (d : Dialect) (r : Radix) : Statement → Text
  | tag name => ':' :: name
  | entry e => d.writeEntry e.kind (e.value.write r)

/-- One statement a line. The lines are numbered from zero. -/
def writeProgram (d : Dialect) (radix : Nat → Radix) (statements : List Statement) : Text :=
  Text.joinLines (statements.mapIdx fun i s => s.write d (radix i))

/-- A name that comes through the reading of a line unharmed. -/
structure IsWritableName (name : Text) : Prop where
  nonempty : name ≠ []
  not_blank : name.any isBlank = false
  semicolon_notMem : ';' ∉ name
  lower_eq : name.lower = name

instance (name : Text) : Decidable (IsWritableName name) :=
  decidable_of_iff
    (name ≠ [] ∧ name.any isBlank = false ∧ ';' ∉ name ∧ name.lower = name)
    ⟨fun ⟨hn, hb, hs, hl⟩ => ⟨hn, hb, hs, hl⟩,
      fun h => ⟨h.nonempty, h.not_blank, h.semicolon_notMem, h.lower_eq⟩⟩

def Value.Writable (r : Radix) : Value → Prop
  | literal n => r = .decimal → fitsDecimal n = true
  | reference tag => IsWritableName tag

instance (r : Radix) : (v : Value) → Decidable (v.Writable r)
  | .literal n => inferInstanceAs (Decidable (r = .decimal → fitsDecimal n = true))
  | .reference tag => inferInstanceAs (Decidable (IsWritableName tag))

def Statement.Writable (r : Radix) : Statement → Prop
  | tag name => IsWritableName name
  | entry e => e.WellFormed ∧ e.value.Writable r

instance (r : Radix) : (s : Statement) → Decidable (s.Writable r)
  | .tag name => inferInstanceAs (Decidable (IsWritableName name))
  | .entry e => inferInstanceAs (Decidable (e.WellFormed ∧ e.value.Writable r))

def WritableProgram (radix : Nat → Radix) (statements : List Statement) : Prop :=
  ∀ s ∈ statements.zipIdx, s.1.Writable (radix s.2)

instance (radix : Nat → Radix) (statements : List Statement) :
    Decidable (WritableProgram radix statements) :=
  inferInstanceAs (Decidable (∀ s ∈ statements.zipIdx, s.1.Writable (radix s.2)))

variable {r : Radix} {v : Value} {name value : Text}

namespace IsWritableName

theorem isToken (h : IsWritableName name) : IsToken name := by
  refine ⟨h.nonempty, ?_⟩
  intro c hc
  obtain ⟨hs, hl⟩ := Text.lower_eq_self_iff.mp h.lower_eq c hc
  have hn : c ≠ ';' := by
    rintro rfl
    exact h.semicolon_notMem hc
  exact ⟨Bool.eq_false_iff.mpr (List.any_eq_false.mp h.not_blank c hc), hn, hs, hl⟩

theorem isTagName (h : IsWritableName name) : isTagName name = true := by
  simp [ManchesterBaby.isTagName, h.nonempty, h.not_blank]

end IsWritableName

theorem isToken_toDigits (r : Radix) (n : Nat) : IsToken (Nat.toDigits r.base n) := by
  have hp : ∀ d < 16, isPlain (Nat.digitChar d) = true := by decide
  obtain ⟨ds, hne, hds, -, ht⟩ := exists_digits r n
  refine isToken_of_isPlain ⟨by simp [ht, hne], ?_⟩
  rw [ht, List.all_map, List.all_eq_true]
  exact fun d hd => hp d ((hds d hd).trans_le r.base_le)

theorem isToken_minus_append {t : Text} (h : IsToken t) (n : Int) : IsToken (minus n ++ t) := by
  rw [minus]
  split
  · exact .cons (by decide) h
  · exact h

theorem Value.isToken_write (h : v.Writable r) : IsToken (v.write r) := by
  cases v with
  | reference tag => exact .cons (by decide) (IsWritableName.isToken h)
  | literal n =>
    have hr : isPlain r.letter = true := by cases r <;> decide
    exact .cons (by decide) (.cons hr (isToken_minus_append (isToken_toDigits r n.natAbs) n))

theorem Dialect.isSpaced_writeEntry (d : Dialect) (kind : Kind) (hv : IsToken value) :
    IsSpaced (d.writeEntry kind value) := by
  have ho : ∀ {t : Text}, IsToken t → IsSpaced (t ++ ' ' :: value) := fun ht =>
    .space ht (.token hv)
  have hc : IsToken (value ++ [',']) := hv.append (isToken_of_isPlain (by decide))
  have hj : IsSpaced (value ++ ", cl".toList) := by
    have h : IsSpaced ((value ++ [',']) ++ ' ' :: "cl".toList) :=
      .space hc (.token (isToken_of_isPlain (by decide)))
    rwa [List.append_assoc] at h
  cases kind with
  | absoluteValue => cases d <;> exact ho (t := "abs".toList) (isToken_of_isPlain (by decide))
  | jump =>
    cases d with
    | modern => exact ho (t := "jmp".toList) (isToken_of_isPlain (by decide))
    | historical => exact hj
  | relativeJump =>
    cases d with
    | modern => exact ho (t := "jrp".toList) (isToken_of_isPlain (by decide))
    | historical =>
      have h : IsSpaced ("add ".toList ++ (value ++ ", cl".toList)) :=
        .space (isToken_of_isPlain (t := "add".toList) (by decide)) hj
      rwa [← List.append_assoc] at h
  | negate =>
    cases d with
    | modern => exact ho (t := "ldn".toList) (isToken_of_isPlain (by decide))
    | historical =>
      have h : IsSpaced (('-' :: value ++ [',']) ++ ' ' :: "c".toList) :=
        .space (.cons (by decide) hc) (.token (isToken_of_isPlain (by decide)))
      rwa [List.append_assoc] at h
  | store =>
    cases d with
    | modern => exact ho (t := "sto".toList) (isToken_of_isPlain (by decide))
    | historical => exact ho (t := "c,".toList) (isToken_of_isPlain (by decide))
  | subtract => cases d <;> exact ho (t := "sub".toList) (isToken_of_isPlain (by decide))
  | skipNextIfNegative =>
    cases d with
    | modern => exact .token (isToken_of_isPlain (t := "cmp".toList) (by decide))
    | historical => exact .token (isToken_of_isPlain (t := "test".toList) (by decide))
  | stop =>
    cases d with
    | modern => exact .token (isToken_of_isPlain (t := "stp".toList) (by decide))
    | historical => exact .token (isToken_of_isPlain (t := "stop".toList) (by decide))

theorem Statement.isSpaced_write {s : Statement} (d : Dialect) (h : s.Writable r) :
    IsSpaced (s.write d r) := by
  cases s with
  | tag name => exact .token (.cons (by decide) (IsWritableName.isToken h))
  | entry e => exact d.isSpaced_writeEntry e.kind (Value.isToken_write h.2)

end ManchesterBaby
