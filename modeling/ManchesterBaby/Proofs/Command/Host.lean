import ManchesterBaby.Command.Host
import ManchesterBaby.Proofs.Numeral
import ManchesterBaby.Proofs.Outcome

/-! What is relied on of a host. It shows a text as it is unless there is an escape character in it,
and what it reads as work has an input file that is there and numbers that can be written. -/

namespace ManchesterBaby

/-- The numbers that are options can be written. -/
structure Options.NumbersFit (o : Options) : Prop where
  wordBits : ∀ n ∈ o.wordBits, fitsDecimal n = true
  fieldBits : ∀ n ∈ o.fieldBits, fitsDecimal n = true

/-- The obligations for whatever reads the arguments and prints. What becomes of an escape character
is left open, and so is everything about memory. -/
structure Host.Lawful (host : Host) : Prop where
  shown_eq_self : ∀ {t : Text}, escapeCharacter ∉ t → host.shown t = t
  stat_input : ∀ {tool : Tool} {files : FileStore} {args : List Text} {o : Options},
    host.read tool files args = .ok (.work o) → ∃ octets, files.stat o.input = .ok (.file octets)
  numbersFit : ∀ {tool : Tool} {files : FileStore} {args : List Text} {o : Options},
    host.read tool files args = .ok (.work o) → o.NumbersFit

namespace Request

variable {tool : Tool} {files : FileStore} {args : List Text} {o : Options}

theorem fitsDecimal_of_integer? {a : Arguments} {s : Setting} {least : Int} {r : Option Int}
    (h : integer? a s least = .ok r) : ∀ n ∈ r, fitsDecimal n = true := by
  rw [integer?] at h
  split at h
  · cases h
    simp
  · next value _ =>
    split at h
    · next m hm =>
      split at h
      · cases h
      · obtain rfl := Except.ok.inj h
        rintro n ⟨⟩
        exact fitsDecimal_of_readInteger? hm
    · cases h

theorem stat_of_input {a : Arguments} {path : Text} (h : input files a = .ok path) :
    ∃ octets, files.stat path = .ok (.file octets) := by
  rw [input] at h
  split at h
  · cases h
  · split at h
    · next octets hs =>
      obtain rfl := Except.ok.inj h
      exact ⟨octets, hs⟩
    · cases h
    · cases h
  · cases h

/-- What a tool is asked to do has a file to be done on and numbers that can be written. -/
theorem options_of_read (h : read tool files args = .ok (.work o)) :
    (∃ octets, files.stat o.input = .ok (.file octets)) ∧ o.NumbersFit := by
  obtain ⟨a, -, h⟩ := bind_eq_ok_iff.mp h
  have ho : options files a = .ok o := by
    split at h
    · cases h
    · cases h
    · obtain ⟨o', ho, h⟩ := bind_eq_ok_iff.mp h
      cases h
      exact ho
  simp only [options, bind_eq_ok_iff] at ho
  obtain ⟨input, hinput, listing, -, symbols, -, w, hw, i, hi, n, -, ho⟩ := ho
  cases ho
  exact ⟨stat_of_input hinput, fitsDecimal_of_integer? hw, fitsDecimal_of_integer? hi⟩

end Request

theorem Host.lawful_standard (memory : Memory) : (Host.standard memory).Lawful where
  shown_eq_self := Text.withoutControlSequences_of_not_mem
  stat_input h := (Request.options_of_read h).1
  numbersFit h := (Request.options_of_read h).2

end ManchesterBaby
