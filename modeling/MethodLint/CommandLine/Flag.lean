import MethodLint.FrontEnd

/-!
The flags of the command line: how each is spelled, how many arguments it takes, and which arguments
it allows.
-/
namespace MethodLint.CommandLine

/-- A flag. -/
inductive Flag
  | help
  | output
  | format
  | config
  | initConfig
  | metrics
  | dumpTree
  | loc
  | cyclo
  | maxnesting
  | noav
  | exclude
  | excludeExt
  | lang
  | workers
  | strict
  | verbose
  | version
  deriving DecidableEq, Repr

/-- The number of arguments that a flag takes. -/
inductive Arity
  | none
  | one
  | some
  deriving DecidableEq, Repr

namespace Flag

/-- The spellings of a flag. -/
def spellings : Flag → List String
  | help => ["-h", "--help"]
  | output => ["-o", "--output"]
  | format => ["--format"]
  | config => ["--config"]
  | initConfig => ["--init-config"]
  | metrics => ["--metrics"]
  | dumpTree => ["--dump-tree"]
  | loc => ["--loc"]
  | cyclo => ["--cyclo"]
  | maxnesting => ["--maxnesting"]
  | noav => ["--noav"]
  | exclude => ["--exclude"]
  | excludeExt => ["--exclude-ext"]
  | lang => ["--lang"]
  | workers => ["-j", "--workers"]
  | strict => ["--strict"]
  | verbose => ["-v", "--verbose"]
  | version => ["--version"]

/-- All flags, in the order in which they are listed. -/
def all : List Flag :=
  [help, output, format, config, initConfig, metrics, dumpTree, loc, cyclo, maxnesting, noav, exclude,
    excludeExt, lang, workers, strict, verbose, version]

/-- All spellings with their flags. -/
def table : List (String × Flag) :=
  all.flatMap fun flag => flag.spellings.map fun spelling => (spelling, flag)

/-- The name of a flag in messages. -/
def label (flag : Flag) : String := "/".intercalate flag.spellings

/-- The number of arguments that a flag takes. -/
def arity : Flag → Arity
  | output | format | config | loc | cyclo | maxnesting | noav | lang | workers => .one
  | exclude | excludeExt => .some
  | help | initConfig | metrics | dumpTree | strict | verbose | version => .none

end Flag

/-- The formats of reports. -/
inductive Format
  | text
  | json
  deriving DecidableEq, Repr

/-- The formats by their names. -/
def Format.names : List (String × Format) := [("text", .text), ("json", .json)]

/-- The languages that may be asked for, by name. -/
def languageNames : List String :=
  (FrontEnd.all.map FrontEnd.language).mergeSort fun a b => decide (a ≤ b)

/-- What is wrong with the arguments of a command. -/
inductive UsageError
  | ambiguous (given : String) (spellings : List String)
  | missingArgument (flag : Flag)
  | missingArguments (flag : Flag)
  | notAnInteger (flag : Flag) (given : String)
  | noSuchChoice (flag : Flag) (given : String) (choices : List String)
  | unwantedArgument (flag : Flag) (given : String)
  | unrecognized (given : List String)
  deriving DecidableEq, Repr

/-- A message about one flag. -/
def about (flag : Flag) (message : String) : String := s!"argument {flag.label}: {message}"

/-- The wording of a usage error. -/
def UsageError.message : UsageError → String
  | .ambiguous given spellings =>
    s!"ambiguous option: {given} could match " ++ ", ".intercalate spellings
  | .missingArgument flag => about flag "expected one argument"
  | .missingArguments flag => about flag "expected at least one argument"
  | .notAnInteger flag given => about flag ("invalid int value: " ++ Text.quoted given)
  | .noSuchChoice flag given choices =>
    about flag s!"invalid choice: {Text.quoted given} (choose from "
      ++ ", ".intercalate (choices.map Text.quoted) ++ ")"
  | .unwantedArgument flag given => about flag ("ignored explicit argument " ++ Text.quoted given)
  | .unrecognized given => "unrecognized arguments: " ++ " ".intercalate given

end MethodLint.CommandLine
