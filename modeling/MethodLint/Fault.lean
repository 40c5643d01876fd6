import MethodLint.Calendar

/-!
What can stop an operation. A fault is a cause, not a sentence: `Fault.message` words it, and
`Fault.category` sorts the causes the way a caller tells them apart.
-/
namespace MethodLint

/-- A node does not carry the shape that its kind promises. -/
inductive TreeDefect
  /-- What should be a node is no mapping with a kind; its full form is given, cut off. -/
  | notANode (shown : String)
  | unknownFields (kind : String) (names : List String)
  | lineNotInteger (kind field shown : String)
  | notANamedMethod (kind line : String)
  | noTernaryFlag (line : String)
  | noDefaultFlag (line : String)
  deriving DecidableEq, Repr

/-- A configuration cannot be used. -/
inductive ConfigDefect
  | invalidDocument (path : String)
  | rootNotMapping (path : String)
  | sectionNotMapping (name path shown : String)
  | exclusionNotList (name path shown : String)
  | thresholdsNotMapping (shown : String)
  | thresholdNotInteger (name shown : String)
  deriving DecidableEq, Repr

/-- A value is not of a type that the operation is defined on. The names are those of types. -/
inductive TypeDefect
  | order (left right : String)
  | difference (left right : String)
  | iteration (name : String)
  | layout (name : String)
  | lookup (name : String)
  | listKey
  | textKey
  | unhashable (name : String)
  | fieldNotText
  | bytesStart
  | incompleteFrontEnd (name : String)
  | serialization (name : String)
  | serializedKey (name : String)
  deriving DecidableEq, Repr

/-- Why bytes are no text. -/
inductive ByteDefect
  | start
  | continuation
  | truncated
  deriving DecidableEq, Repr

/-- What can stop an operation. -/
inductive Fault
  | tree (defect : TreeDefect)
  | config (defect : ConfigDefect)
  | type (defect : TypeDefect)
  /-- A source could not be turned into a tree. -/
  | source (path reason : String)
  /-- A value of this type does not have the operation. -/
  | noOperation (name operation : String)
  | missingKey (shown : String)
  | emptyRemoval
  | removalOutOfRange
  | indexOutOfRange
  | calendar (error : CalendarError)
  /-- A numeral with more digits than are read. -/
  | numeralTooLong (digits : Nat)
  /-- A whole number with more digits than are written. -/
  | numberTooLong
  /-- A numeral whose digits do not belong to its base. -/
  | badNumeral (base : Nat) (shown : String)
  | badFraction (shown : String)
  /-- A number that no character has. -/
  | badCodePoint
  /-- A numeral without any characters. -/
  | emptyNumeral
  /-- Bytes from `first` to `last` are no text; the one at `first` is given. -/
  | undecodable (byte first last : Nat) (defect : ByteDefect)
  | fileMissing (path : String)
  | pathThroughFile (path : String)
  | fileIsDirectory (path : String)
  | tooDeep
  deriving DecidableEq, Repr

/-- The sorts of faults that a caller tells apart. -/
inductive FaultCategory
  | malformedTree
  | badConfig
  | typeMismatch
  | unparsable
  | missingOperation
  | missingKey
  | badIndex
  | badValue
  | undecodable
  | fileMissing
  | pathThroughFile
  | fileIsDirectory
  | tooDeep
  deriving DecidableEq, Repr

/-- The most digits of a decimal numeral that are read or written. -/
def numeralLimit : Nat := 4300

/-- The wording of a tree defect. -/
def TreeDefect.message : TreeDefect → String
  | .notANode shown => "Tree node must be a mapping with a 'kind': " ++ shown
  | .unknownFields kind names => kind ++ " node does not accept field(s): " ++ ", ".intercalate names
  | .lineNotInteger kind field shown => s!"{kind} node {field} must be an integer, got {shown}"
  | .notANamedMethod kind line => s!"{kind} node at line {line} is not a named method declaration"
  | .noTernaryFlag line => s!"ConditionalExpr at line {line} has no ternary flag"
  | .noDefaultFlag line => s!"SwitchLabel at line {line} has no default flag"

/-- The wording of a configuration defect. -/
def ConfigDefect.message : ConfigDefect → String
  | .invalidDocument path => s!"Invalid YAML in {path}: <yaml>"
  | .rootNotMapping path => s!"Config root must be a mapping: {path}"
  | .sectionNotMapping name path shown => s!"{name} must be a mapping in {path}, got {shown}"
  | .exclusionNotList name path shown => s!"exclude.{name} must be a list in {path}, got {shown}"
  | .thresholdsNotMapping shown => s!"thresholds must be a mapping, got {shown}"
  | .thresholdNotInteger name shown => s!"thresholds.{name} must be an integer, got {shown}"

/-- The wording of a type defect. -/
def TypeDefect.message : TypeDefect → String
  | .order left right => s!"'>' not supported between instances of '{left}' and '{right}'"
  | .difference left right => s!"unsupported operand type(s) for -: '{left}' and '{right}'"
  | .iteration name => s!"'{name}' object is not iterable"
  | .layout name => s!"unsupported format string passed to {name}.__format__"
  | .lookup name => s!"'{name}' object is not subscriptable"
  | .listKey => "list indices must be integers or slices, not str"
  | .textKey => "string indices must be integers, not 'str'"
  | .unhashable name => s!"unhashable type: '{name}'"
  | .fieldNotText => "keywords must be strings"
  | .bytesStart => "startswith first arg must be bytes or a tuple of bytes, not str"
  | .incompleteFrontEnd name =>
    s!"Can't instantiate abstract class {name} with abstract method parse"
  | .serialization name => s!"Object of type {name} is not JSON serializable"
  | .serializedKey name => s!"keys must be str, int, float, bool or None, not {name}"

/-- The wording of a byte defect. -/
def ByteDefect.message : ByteDefect → String
  | .start => "invalid start byte"
  | .continuation => "invalid continuation byte"
  | .truncated => "unexpected end of data"

/-- Two small hexadecimal digits. -/
def byteNumeral (n : Nat) : String :=
  let digits := Nat.toDigits 16 n
  "0x" ++ String.ofList (List.replicate (2 - digits.length) '0' ++ digits)

/-- The wording of a fault. -/
def Fault.message : Fault → String
  | .tree defect => defect.message
  | .config defect => defect.message
  | .type defect => defect.message
  | .source path reason => path ++ ": " ++ reason
  | .noOperation name operation => s!"'{name}' object has no attribute '{operation}'"
  | .missingKey shown => shown
  | .emptyRemoval => "pop from empty list"
  | .removalOutOfRange => "pop index out of range"
  | .indexOutOfRange => "list index out of range"
  | .calendar error => error.message
  | .numeralTooLong digits =>
    s!"Exceeds the limit ({numeralLimit} digits) for integer string conversion: value has {digits}"
      ++ " digits; use sys.set_int_max_str_digits() to increase the limit"
  | .numberTooLong =>
    s!"Exceeds the limit ({numeralLimit} digits) for integer string conversion; use "
      ++ "sys.set_int_max_str_digits() to increase the limit"
  | .badNumeral base shown => s!"invalid literal for int() with base {base}: {shown}"
  | .badCodePoint => "chr() arg not in range(0x110000)"
  | .emptyNumeral => "string index out of range"
  | .badFraction shown => s!"could not convert string to float: {shown}"
  | .undecodable byte first last defect =>
    if last = first then
      s!"'utf-8' codec can't decode byte {byteNumeral byte} in position {first}: {defect.message}"
    else s!"'utf-8' codec can't decode bytes in position {first}-{last}: {defect.message}"
  | .fileMissing path => s!"[Errno 2] No such file or directory: {path}"
  | .pathThroughFile path => s!"[Errno 20] Not a directory: {path}"
  | .fileIsDirectory path => s!"[Errno 21] Is a directory: {path}"
  | .tooDeep => "maximum recursion depth exceeded"

/-- The sort of a fault. -/
def Fault.category : Fault → FaultCategory
  | .tree _ => .malformedTree
  | .config _ => .badConfig
  | .type _ => .typeMismatch
  | .source _ _ => .unparsable
  | .noOperation _ _ => .missingOperation
  | .missingKey _ => .missingKey
  | .emptyRemoval | .removalOutOfRange | .indexOutOfRange | .emptyNumeral => .badIndex
  | .calendar _ | .numeralTooLong _ | .numberTooLong | .badNumeral _ _ | .badFraction _ | .badCodePoint => .badValue
  | .undecodable _ _ _ _ => .undecodable
  | .fileMissing _ => .fileMissing
  | .pathThroughFile _ => .pathThroughFile
  | .fileIsDirectory _ => .fileIsDirectory
  | .tooDeep => .tooDeep

end MethodLint
