import RecordQuery.Error
import RecordQuery.Text.Blank
import RecordQuery.Text.Digits
import RecordQuery.Text.Segments

/-!
Level filters: directives separated by commas. A directive is a level, or it selects events by a target, by a
span with its fields in square brackets or by both, and gives their level after an equals sign.
-/

namespace RecordQuery.LogFilter

def levelNames : List String := ["off", "error", "warn", "info", "debug", "trace"]

def isLevel (s : String) : Bool :=
  s.isEmpty || levelNames.contains (Text.lower s) ||
    match Text.readInt? s.toList with
    | some n => !s.startsWith "-" && n ≤ 5
    | none => false

inductive DirectivePart where
  | start
  | target
  | span
  | field (isEmpty : Bool)
  | afterFields
  | afterSpan
  | level
  deriving DecidableEq

/-- Whether a directive can begin with the character. Outside ASCII every character counts as a letter. -/
def startsTarget (c : Char) : Bool := c.isAlphanum || 0x80 ≤ c.toNat || c = '-' || c = ':' || c = '_'

namespace DirectivePart

def next? : DirectivePart → Char → Option DirectivePart
  | start, c => if c = '[' then some span else if startsTarget c then some target else none
  | target, c => some (if c = '=' then level else if c = '[' then span else target)
  | span, c => some (if c = ']' then afterSpan else if c = '\x7b' then field true else span)
  | field isEmpty, c =>
    if c = '\x7d' then (if isEmpty then none else some afterFields) else some (field false)
  | afterFields, c => if c = ']' then some afterSpan else none
  | afterSpan, c => if c = '=' then some level else none
  | level, _ => some level

/-- How many characters come before the level, if the directive is well formed; the inner option is empty
where it names no level. -/
def levelPlace? : DirectivePart → List Char → Option (Option Nat)
  | target, [] => some none
  | afterSpan, [] => some none
  | _, [] => none
  | part, c :: cs =>
    match part.next? c with
    | none => none
    | some level => some (some 1)
    | some next => (levelPlace? next cs).map fun place => place.map (· + 1)

end DirectivePart

/-- What is wrong with a directive. The place of its level is counted without the blanks in front, but its
level is cut from the text with them, so that after a blank no level is a known one. -/
def directiveFault? (s : String) : Option DirectiveFault :=
  match DirectivePart.start.levelPlace? (Text.trimChars s.toList) with
  | none => some .malformed
  | some none => none
  | some (some place) => if isLevel (String.ofList (s.toList.drop place)) then none else some .unknownLevel

def fault? (filter : String) : Option DirectiveFault :=
  ((Text.pieces ',' filter).filter fun s => !s.isEmpty).findSome? directiveFault?

end RecordQuery.LogFilter
