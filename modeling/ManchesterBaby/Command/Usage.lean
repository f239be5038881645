import ManchesterBaby.Command.Arguments

/-! What the tools say about their use. -/

namespace ManchesterBaby

def UsageFault.text : UsageFault → Text
  | unknownOption name => "no such option: ".toList ++ name.quoted
  | missingValue => "the last option needs a value".toList
  | unexpectedValue name => "option ".toList ++ name.quoted ++ " takes no value".toList
  | missingInput => "no input file is given".toList
  | extraOperand operand => "unexpected argument ".toList ++ operand.quoted
  | invalidNumber value => value.quoted ++ " is not a number in range".toList
  | noFile path => "file ".toList ++ path.quoted ++ " does not exist".toList
  | isDirectory path => "file ".toList ++ path.quoted ++ " is a directory".toList

namespace Tool

def synopsis (tool : Tool) : Text :=
  "Usage: ".toList ++ tool.name ++ " [OPTIONS] INPUT_FILE".toList

def optionLines : Tool → List Text
  | assembler =>
    ["  -l, --listing FILE       write the listing to a file".toList,
      "  -s, --symbols FILE       write the symbols to a file".toList,
      "  --no-size-check          accept programs longer than 32 words".toList]
  | runner =>
    ["  -n, --max-steps N        the number of instructions to execute at most".toList,
      "  --trace                  print every instruction as it executes".toList]

def commonOptionLines : List Text :=
  ["  --original-notation      read the notation of the machine itself".toList,
    "  --word-bits N            the width of a word, 32 by default".toList,
    "  --instruction-bits N     the width of the instruction field, 16 by default".toList,
    "  -v, --verbose            print more".toList,
    "  --version                print the version".toList,
    "  --help                   print this".toList]

def help (tool : Tool) : Text :=
  Text.joinLines (tool.synopsis :: [] :: tool.optionLines ++ commonOptionLines) ++ ['\n']

def complaint (tool : Tool) (fault : UsageFault) : Text :=
  Text.joinLines [tool.synopsis, "Error: ".toList ++ fault.text] ++ ['\n']

end Tool

end ManchesterBaby
