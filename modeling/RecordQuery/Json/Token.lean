import RecordQuery.Json.Basic

/-!
The tokens of JSON text and how they are written, and the tokens of a value. The compact text of a value
is the text of its tokens.
-/

namespace RecordQuery.Json

inductive Token where
  | openArray
  | closeArray
  | openObject
  | closeObject
  | comma
  | colon
  | null
  | bool (b : Bool)
  | number (n : Numeral)
  | string (content : StringContent)
  deriving DecidableEq, Inhabited

/-- A control character has its short escape or four hexadecimal digits; a quote and a backslash are
escaped and every other character stands for itself. -/
def escapeChar (c : Char) : List Char :=
  if c = '"' then ['\\', '"']
  else if c = '\\' then ['\\', '\\']
  else if c = '\x08' then ['\\', 'b']
  else if c = '\x0c' then ['\\', 'f']
  else if c = '\n' then ['\\', 'n']
  else if c = '\r' then ['\\', 'r']
  else if c = '\t' then ['\\', 't']
  else if c.toNat < 0x20 then
    ['\\', 'u', '0', '0', Nat.digitChar (c.toNat / 16), Nat.digitChar (c.toNat % 16)]
  else [c]

def stringChars : StringContent → List Char
  | some s => '"' :: s.toList.flatMap escapeChar ++ ['"']
  | none => "\"\\ud800\"".toList

def Token.chars : Token → List Char
  | .openArray => ['[']
  | .closeArray => [']']
  | .openObject => ['\x7b']
  | .closeObject => ['\x7d']
  | .comma => [',']
  | .colon => [':']
  | .null => "null".toList
  | .bool true => "true".toList
  | .bool false => "false".toList
  | .number n => n.chars
  | .string content => stringChars content

mutual

def tokens : Json → List Token
  | .null => [.null]
  | .bool b => [.bool b]
  | .number n => [.number n]
  | .string content => [.string content]
  | .array [] => [.openArray, .closeArray]
  | .array (v :: vs) => .openArray :: (tokens v ++ moreItems vs)
  | .object [] => [.openObject, .closeObject]
  | .object ((name, v) :: rest) => .openObject :: .string name :: .colon :: (tokens v ++ moreMembers rest)

def moreItems : List Json → List Token
  | [] => [.closeArray]
  | v :: vs => .comma :: (tokens v ++ moreItems vs)

def moreMembers : List (StringContent × Json) → List Token
  | [] => [.closeObject]
  | (name, v) :: rest => .comma :: .string name :: .colon :: (tokens v ++ moreMembers rest)

end

def write (v : Json) : String := String.ofList (v.tokens.flatMap Token.chars)

end RecordQuery.Json
