/-!
What a command says about itself: how it is used, and at more length what it does.
-/
namespace MethodLint.CommandLine

/-- The name of the program. -/
def programName : String := "brain-method"

/-- How the program is used. -/
def usageLines : List String :=
  ["usage: brain-method [-h] [-o OUTPUT] [--format \x7btext,json\x7d] [--config FILE]",
    "                    [--init-config] [--metrics] [--dump-tree] [--loc N]",
    "                    [--cyclo N] [--maxnesting N] [--noav N]",
    "                    [--exclude PATTERN [PATTERN ...]]",
    "                    [--exclude-ext EXT [EXT ...]] [--lang \x7bpython,tree\x7d]",
    "                    [-j N] [--strict] [-v] [--version]",
    "                    [path]"]

/-- What the program does, behind how it is used. -/
def descriptionLines : List String :=
  ["",
    "Find brain methods: long, complex, deeply nested methods with many variables",
    "",
    "positional arguments:",
    "  path                  File or directory to scan (default: current directory)",
    "",
    "options:",
    "  -h, --help            show this help message and exit",
    "  -o OUTPUT, --output OUTPUT",
    "                        Output file (default: stdout)",
    "  --format \x7btext,json\x7d  Report format (default: text)",
    "  --config FILE         YAML config file with thresholds and exclusions",
    "  --init-config         Print a documented config template and exit",
    "  --metrics             Report metrics for every method, not only violations",
    "  --dump-tree           Print the node tree of a single file as JSON and exit",
    "  --exclude PATTERN [PATTERN ...]",
    "                        Additional directory names or *suffix patterns to",
    "                        exclude",
    "  --exclude-ext EXT [EXT ...]",
    "                        File extensions to exclude (e.g., .pyw)",
    "  --lang \x7bpython,tree\x7d  Front-end to use when walking directories (default:",
    "                        python)",
    "  -j N, --workers N     Analyze N files concurrently (default: 1)",
    "  --strict              Exit with status 1 when any brain method is found",
    "  -v, --verbose         Verbose output (debug logging)",
    "  --version             show program's version number and exit",
    "",
    "thresholds (override config):",
    "  --loc N               LOC threshold",
    "  --cyclo N             Cyclomatic complexity threshold",
    "  --maxnesting N        Nesting threshold",
    "  --noav N              Declared variables threshold",
    "",
    "A method is reported only when ALL four metrics exceed their thresholds:",
    "",
    "  LOC         end line - begin line           (default > 65)",
    "  CYCLO       decision points                 (default > 4)",
    "  MAXNESTING  enclosing control constructs    (default > 3)",
    "  NOAV        locally declared variables      (default > 5)",
    "",
    "Examples:",
    "  brain-method src/                       # Scan a directory of Python files",
    "  brain-method app.py --metrics           # Show metrics for every method",
    "  brain-method tree.json                  # Analyze a serialized node tree",
    "  brain-method src/ --format json -o report.json",
    "  brain-method --init-config > brain-method.yaml",
    "        "]

/-- Lines, each with its break. -/
def linesText (lines : List String) : String := String.join (lines.map (· ++ "\n"))

/-- How the program is used. -/
def usage : String := linesText usageLines

/-- How the program is used and what it does. -/
def help : String := linesText (usageLines ++ descriptionLines)

end MethodLint.CommandLine
