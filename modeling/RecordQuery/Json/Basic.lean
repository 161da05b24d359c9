import RecordQuery.Text.Numeral

/-!
JSON values. Objects keep their members in order and may repeat a name. The content of a string is
missing where its escapes leave a surrogate unpaired: it is a string, but no text.
-/

namespace RecordQuery

abbrev StringContent := Option String

inductive Json where
  | null
  | bool (b : Bool)
  | number (n : Numeral)
  | string (content : StringContent)
  | array (items : List Json)
  | object (members : List (StringContent × Json))
  deriving Inhabited

namespace Json

def text (s : String) : Json := .string (some s)

def int (n : Int) : Json := .number (.ofInt n)

def record (members : List (String × Json)) : Json := .object (members.map fun (name, v) => (some name, v))

mutual

def depth : Json → Nat
  | .array items => itemsDepth items + 1
  | .object members => membersDepth members + 1
  | _ => 0

def itemsDepth : List Json → Nat
  | [] => 0
  | v :: vs => max (depth v) (itemsDepth vs)

def membersDepth : List (StringContent × Json) → Nat
  | [] => 0
  | (_, v) :: rest => max (depth v) (membersDepth rest)

end

mutual

def all (number : Numeral → Bool) (string : StringContent → Bool) : Json → Bool
  | .null => true
  | .bool _ => true
  | .number n => number n
  | .string content => string content
  | .array items => allItems number string items
  | .object members => allMembers number string members

def allItems (number : Numeral → Bool) (string : StringContent → Bool) : List Json → Bool
  | [] => true
  | v :: vs => v.all number string && allItems number string vs

def allMembers (number : Numeral → Bool) (string : StringContent → Bool) : List (StringContent × Json) → Bool
  | [] => true
  | (name, v) :: rest => string name && v.all number string && allMembers number string rest

end

end RecordQuery.Json
