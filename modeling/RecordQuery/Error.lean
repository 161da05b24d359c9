import RecordQuery.Request.Basic
import RecordQuery.Operator
import RecordQuery.Text.Excerpt

/-!
Everything that can be wrong with a request, a registration or a configuration, by cause, and what is
said about it.
-/

namespace RecordQuery

inductive SelectorFault where
  | emptySegment
  | noField (segment typeName : String)
  | valueHasNoFields (segment : String)
  | recordNeedsField (segment typeName : String)
  deriving DecidableEq

inductive CountedPart where
  | select
  | filters
  | order
  | values
  deriving DecidableEq

inductive LimitKind where
  | select
  | filters
  | order
  | values
  | selectorDepth
  | selectorLength
  deriving DecidableEq

inductive DirectiveFault where
  | malformed
  | unknownLevel
  deriving DecidableEq

inductive Error where
  | selectEmpty
  | sourceRequired
  | negativeSkip (n : Int64)
  | negativeTake (n : Int64)
  | valueAndValues (clause : FilterClause)
  | noOperand (clause : FilterClause)
  | membershipNeedsValues (clause : FilterClause)
  | needsSingleValue (clause : FilterClause) (op : Operator)
  | sourceNameEmpty
  | alreadyRegistered (name : String)
  | sourceNameTooLong (length max : Nat)
  | sourceNameControl (name : String)
  | selectorTooLong (selector : String) (length max : Nat)
  | selectorTooDeep (selector : String) (depth max : Nat)
  | tooMany (part : CountedPart) (count max : Nat)
  | zeroLimit (limit : LimitKind)
  | badLevelFilter (filter : String) (fault : DirectiveFault)
  | unknownSource (name : String)
  | badSelector (path : String) (fault : SelectorFault)
  | unknownOperator (text : String)
  | badLiteral (literal : String) (kind : Kind)
  deriving DecidableEq

inductive ErrorKind where
  | validation
  | notFound
  | selectorResolution
  | unsupportedOperator
  | typeCoercion
  deriving DecidableEq

def SelectorFault.message : SelectorFault → String
  | .emptySegment => "empty path segment"
  | .noField segment typeName => "no field '" ++ segment ++ "' on '" ++ typeName ++ "'"
  | .valueHasNoFields segment => "'" ++ segment ++ "' is a value and has no fields"
  | .recordNeedsField segment typeName =>
    "'" ++ segment ++ "' is a nested '" ++ typeName ++ "', select one of its fields"

def DirectiveFault.message : DirectiveFault → String
  | .malformed => "invalid filter directive"
  | .unknownLevel =>
    "error parsing level filter: expected one of \"off\", \"error\", \"warn\", \"info\", \"debug\", "
      ++ "\"trace\", or a number 0-5"

def CountedPart.name : CountedPart → String
  | .select => "Select"
  | .filters => "Where"
  | .order => "OrderBy"
  | .values => "ValueSet"

def LimitKind.name : LimitKind → String
  | .select => "max_select"
  | .filters => "max_where"
  | .order => "max_order_by"
  | .values => "max_in_values"
  | .selectorDepth => "max_selector_depth"
  | .selectorLength => "max_selector_length"

namespace Error

def kind : Error → ErrorKind
  | .unknownSource _ => .notFound
  | .badSelector _ _ => .selectorResolution
  | .unknownOperator _ => .unsupportedOperator
  | .badLiteral _ _ => .typeCoercion
  | _ => .validation

def excerptLength : Nat := 64

def excerpt (s : String) : String := Text.excerpt excerptLength s

def number (n : Nat) : String := (Numeral.ofNat n).text

def validationText : Error → String
  | .selectEmpty => "Select cannot be empty"
  | .sourceRequired => "From is required"
  | .negativeSkip n => "Limit skip must not be negative, got " ++ (Numeral.ofInt n.toInt).text
  | .negativeTake n => "Limit take must not be negative, got " ++ (Numeral.ofInt n.toInt).text
  | .valueAndValues clause => "Clause '" ++ clause.display ++ "' sets both value and valueSet"
  | .noOperand clause => "Clause '" ++ clause.display ++ "' has neither value nor valueSet"
  | .membershipNeedsValues clause => "Clause '" ++ clause.display ++ "' uses IN and needs a valueSet"
  | .needsSingleValue clause op =>
    "Clause '" ++ clause.display ++ "' uses " ++ op.display ++ " and needs a single value"
  | .sourceNameEmpty => "Source name cannot be empty"
  | .alreadyRegistered name => "Queryable '" ++ name ++ "' is already registered"
  | .sourceNameTooLong length max => "Source name length " ++ number length ++ " exceeds maximum " ++ number max
  | .sourceNameControl name => "Source name '" ++ excerpt name ++ "' contains control characters"
  | .selectorTooLong selector length max =>
    "Selector '" ++ excerpt selector ++ "' length " ++ number length ++ " exceeds maximum " ++ number max
  | .selectorTooDeep selector depth max =>
    "Selector '" ++ excerpt selector ++ "' depth " ++ number depth ++ " exceeds maximum " ++ number max
  | .tooMany part count max => part.name ++ " has " ++ number count ++ " entries, maximum is " ++ number max
  | .zeroLimit limit => limit.name ++ " cannot be zero"
  | .badLevelFilter filter fault => "Invalid log level '" ++ filter ++ "': " ++ fault.message
  | _ => ""

def message : Error → String
  | .unknownSource name => "Queryable '" ++ name ++ "' not found"
  | .badSelector path fault => "Cannot resolve selector '" ++ path ++ "': " ++ fault.message
  | .unknownOperator text => "Unknown operator '" ++ text ++ "'"
  | .badLiteral literal kind => "Cannot convert '" ++ literal ++ "' to " ++ kind.name
  | e => "Validation error: " ++ e.validationText

end RecordQuery.Error
