import ManchesterBaby.WordFormat
import ManchesterBaby.Text.LowerCase

/-! The configuration that the environment gives. An empty variable counts as unset. -/

namespace ManchesterBaby

abbrev Environment := List (Text × Text)

structure Configuration where
  wordBits : Int
  fieldBits : Int
  maxSteps : Int
  checkSize : Bool
deriving DecidableEq

inductive ConfigurationFault
  | notInteger (name value : Text)
  | negativeSteps (value : Text)
  | widths (fault : WidthFault)
deriving DecidableEq

namespace Configuration

def standard : Configuration := ⟨32, 16, 1000, true⟩

def wordBitsVariable : Text := "BABY_WORD_BITS".toList
def fieldBitsVariable : Text := "BABY_INSTRUCTION_BITS".toList
def maxStepsVariable : Text := "BABY_MAX_STEPS".toList
def checkSizeVariable : Text := "BABY_CHECK_SIZE".toList

end Configuration

namespace ConfigurationFault

def text : ConfigurationFault → Text
  | notInteger name value => name ++ " must be an integer, got ".toList ++ value.quoted
  | negativeSteps value =>
    Configuration.maxStepsVariable ++ " must not be negative, got ".toList ++ value
  | widths fault => fault.text

/-- The text holds no number that is too long to be written. -/
def isWritable : ConfigurationFault → Bool
  | widths fault => fault.widths.all fitsDecimal
  | _ => true

end ConfigurationFault

namespace Environment

def value? (env : Environment) (name : Text) : Option Text :=
  (env.lookup name).filter (!·.isEmpty)

def integer (env : Environment) (name : Text) (default : Int) : Except ConfigurationFault Int :=
  match env.value? name with
  | none => .ok default
  | some value =>
    match readAnyInteger? value.trim with
    | some n => .ok n
    | none => .error (.notInteger name value)

end Environment

namespace Configuration

def offWords : List Text := ["0".toList, "false".toList, "no".toList, "off".toList]

def format (c : Configuration) : Except ConfigurationFault WordFormat :=
  (WordFormat.ofWidths c.wordBits c.fieldBits).mapError .widths

/-- The number of steps must not be negative, and the widths must make a format. -/
def ofEnvironment (env : Environment) : Except ConfigurationFault Configuration := do
  let wordBits ← env.integer wordBitsVariable standard.wordBits
  let fieldBits ← env.integer fieldBitsVariable standard.fieldBits
  let maxSteps ← env.integer maxStepsVariable standard.maxSteps
  if maxSteps < 0 then
    throw (.negativeSteps ((env.value? maxStepsVariable).getD []))
  let checkSize :=
    match env.value? checkSizeVariable with
    | none => standard.checkSize
    | some value => !offWords.contains value.trim.lower
  let configuration := ⟨wordBits, fieldBits, maxSteps, checkSize⟩
  let _ ← configuration.format
  return configuration

end Configuration

end ManchesterBaby
