/-!
The forms of the syntax tree of a source. A form has a name, under which its nodes appear in the
measured tree unless they are control constructs, and it says which fields of a node hold further
nodes, in the order in which they are visited. Functions, classes, names, declarations of outer names,
comprehensions and match statements are not among the forms: they concern the binding of names or
are laid out anew, so the syntax tree has them apart. A case, a generator or a whole source that
stands where it does not belong is laid out like any other form.
-/
namespace MethodLint.Source

/-- The forms that are laid out as they stand. -/
inductive Form
  | returning | deletion | assignment | augmentedAssignment | annotatedAssignment | forLoop
  | asyncForLoop | whileLoop | conditional | resourceBlock | asyncResourceBlock | raising
  | tryBlock | tryGroupBlock | assertion | importing | importingFrom | expressionStatement
  | pass | breaking | continuing
  | booleanOperation | namedExpression | binaryOperation | unaryOperation | lambda | choice
  | dictionary | setDisplay | awaiting | yielding | yieldingFrom | comparison | call
  | formattedValue | joinedText | constant | noneConstant | trueConstant | falseConstant
  | ellipsisConstant | attribute | subscript | starred | list | tuple | slice
  | valuePattern | singletonPattern | sequencePattern | mappingPattern | classPattern
  | starPattern | capturePattern | alternativePattern
  | handler | arguments | argument | keyword | alias | resource | looseCase | looseGenerator
  | file | dialogue | soleExpression | signature | ignoredType
  | load | store | del | and | or | add | subtract | multiply | matrixMultiply | divide
  | modulo | power | leftShift | rightShift | bitOr | bitXor | bitAnd | floorDivide | invert
  | not | plus | minus | equal | notEqual | less | lessEqual | greater | greaterEqual | same
  | notSame | member | notMember
  deriving DecidableEq, Repr, Inhabited

namespace Form

/-- The name of a form. -/
def label : Form → String
  | .returning => "Return"
  | .deletion => "Delete"
  | .assignment => "Assign"
  | .augmentedAssignment => "AugAssign"
  | .annotatedAssignment => "AnnAssign"
  | .forLoop => "For"
  | .asyncForLoop => "AsyncFor"
  | .whileLoop => "While"
  | .conditional => "If"
  | .resourceBlock => "With"
  | .asyncResourceBlock => "AsyncWith"
  | .raising => "Raise"
  | .tryBlock => "Try"
  | .tryGroupBlock => "TryStar"
  | .assertion => "Assert"
  | .importing => "Import"
  | .importingFrom => "ImportFrom"
  | .expressionStatement => "Expr"
  | .pass => "Pass"
  | .breaking => "Break"
  | .continuing => "Continue"
  | .booleanOperation => "BoolOp"
  | .namedExpression => "NamedExpr"
  | .binaryOperation => "BinOp"
  | .unaryOperation => "UnaryOp"
  | .lambda => "Lambda"
  | .choice => "IfExp"
  | .dictionary => "Dict"
  | .setDisplay => "Set"
  | .awaiting => "Await"
  | .yielding => "Yield"
  | .yieldingFrom => "YieldFrom"
  | .comparison => "Compare"
  | .call => "Call"
  | .formattedValue => "FormattedValue"
  | .joinedText => "JoinedStr"
  | .constant | .noneConstant | .trueConstant | .falseConstant | .ellipsisConstant => "Constant"
  | .attribute => "Attribute"
  | .subscript => "Subscript"
  | .starred => "Starred"
  | .list => "List"
  | .tuple => "Tuple"
  | .slice => "Slice"
  | .valuePattern => "MatchValue"
  | .singletonPattern => "MatchSingleton"
  | .sequencePattern => "MatchSequence"
  | .mappingPattern => "MatchMapping"
  | .classPattern => "MatchClass"
  | .starPattern => "MatchStar"
  | .capturePattern => "MatchAs"
  | .alternativePattern => "MatchOr"
  | .handler => "ExceptHandler"
  | .arguments => "arguments"
  | .argument => "arg"
  | .keyword => "keyword"
  | .alias => "alias"
  | .resource => "withitem"
  | .looseCase => "match_case"
  | .looseGenerator => "comprehension"
  | .file => "Module"
  | .dialogue => "Interactive"
  | .soleExpression => "Expression"
  | .signature => "FunctionType"
  | .ignoredType => "TypeIgnore"
  | .load => "Load"
  | .store => "Store"
  | .del => "Del"
  | .and => "And"
  | .or => "Or"
  | .add => "Add"
  | .subtract => "Sub"
  | .multiply => "Mult"
  | .matrixMultiply => "MatMult"
  | .divide => "Div"
  | .modulo => "Mod"
  | .power => "Pow"
  | .leftShift => "LShift"
  | .rightShift => "RShift"
  | .bitOr => "BitOr"
  | .bitXor => "BitXor"
  | .bitAnd => "BitAnd"
  | .floorDivide => "FloorDiv"
  | .invert => "Invert"
  | .not => "Not"
  | .plus => "UAdd"
  | .minus => "USub"
  | .equal => "Eq"
  | .notEqual => "NotEq"
  | .less => "Lt"
  | .lessEqual => "LtE"
  | .greater => "Gt"
  | .greaterEqual => "GtE"
  | .same => "Is"
  | .notSame => "IsNot"
  | .member => "In"
  | .notMember => "NotIn"

/-- The fields of a form that hold nodes, in the order in which they are visited. -/
def fields : Form → List String
  | .returning | .expressionStatement | .awaiting | .yielding | .yieldingFrom | .valuePattern | .keyword => ["value"]
  | .deletion => ["targets"]
  | .assignment => ["targets", "value"]
  | .augmentedAssignment => ["target", "op", "value"]
  | .annotatedAssignment => ["target", "annotation", "value"]
  | .forLoop | .asyncForLoop => ["target", "iter", "body", "orelse"]
  | .whileLoop | .conditional | .choice => ["test", "body", "orelse"]
  | .resourceBlock | .asyncResourceBlock => ["items", "body"]
  | .raising => ["exc", "cause"]
  | .tryBlock | .tryGroupBlock => ["body", "handlers", "orelse", "finalbody"]
  | .assertion => ["test", "msg"]
  | .importing | .importingFrom => ["names"]
  | .booleanOperation => ["op", "values"]
  | .namedExpression => ["target", "value"]
  | .binaryOperation => ["left", "op", "right"]
  | .unaryOperation => ["op", "operand"]
  | .lambda => ["args", "body"]
  | .dictionary => ["keys", "values"]
  | .setDisplay => ["elts"]
  | .comparison => ["left", "ops", "comparators"]
  | .call => ["func", "args", "keywords"]
  | .formattedValue => ["value", "format_spec"]
  | .joinedText => ["values"]
  | .attribute | .starred => ["value", "ctx"]
  | .subscript => ["value", "slice", "ctx"]
  | .list | .tuple => ["elts", "ctx"]
  | .slice => ["lower", "upper", "step"]
  | .sequencePattern | .alternativePattern => ["patterns"]
  | .mappingPattern => ["keys", "patterns"]
  | .classPattern => ["cls", "patterns", "kwd_patterns"]
  | .capturePattern => ["pattern"]
  | .handler => ["type", "body"]
  | .arguments => ["posonlyargs", "args", "vararg", "kwonlyargs", "kw_defaults", "kwarg", "defaults"]
  | .argument => ["annotation"]
  | .resource => ["context_expr", "optional_vars"]
  | .looseCase => ["pattern", "guard", "body"]
  | .looseGenerator => ["target", "iter", "ifs"]
  | .file => ["body", "type_ignores"]
  | .dialogue | .soleExpression => ["body"]
  | .signature => ["argtypes", "returns"]
  | _ => []

/-- Every form. Of the constants, the general one stands first. -/
def all : List Form :=
  [.returning, .deletion, .assignment, .augmentedAssignment, .annotatedAssignment, .forLoop,
    .asyncForLoop, .whileLoop, .conditional, .resourceBlock, .asyncResourceBlock, .raising,
    .tryBlock, .tryGroupBlock, .assertion, .importing, .importingFrom, .expressionStatement,
    .pass, .breaking, .continuing, .booleanOperation, .namedExpression, .binaryOperation,
    .unaryOperation, .lambda, .choice, .dictionary, .setDisplay, .awaiting, .yielding,
    .yieldingFrom, .comparison, .call, .formattedValue, .joinedText, .constant, .noneConstant,
    .trueConstant, .falseConstant, .ellipsisConstant, .attribute, .subscript, .starred, .list,
    .tuple, .slice, .valuePattern, .singletonPattern, .sequencePattern, .mappingPattern,
    .classPattern, .starPattern, .capturePattern, .alternativePattern, .handler, .arguments,
    .argument, .keyword, .alias, .resource, .looseCase, .looseGenerator, .file, .dialogue,
    .soleExpression, .signature, .ignoredType, .load, .store, .del, .and, .or, .add, .subtract,
    .multiply, .matrixMultiply, .divide, .modulo, .power, .leftShift, .rightShift, .bitOr,
    .bitXor, .bitAnd, .floorDivide, .invert, .not, .plus, .minus, .equal, .notEqual, .less,
    .lessEqual, .greater, .greaterEqual, .same, .notSame, .member, .notMember]

/-- The form of a name. -/
def ofLabel? (name : String) : Option Form := all.find? fun form => form.label = name

/-- Every form is listed. -/
theorem mem_all (f : Form) : f ∈ all := by cases f <;> decide

end Form

end MethodLint.Source
