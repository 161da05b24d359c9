/-!
Blank characters: the code points with the Unicode property White_Space, and trimming them off a text.
-/

namespace RecordQuery.Text

def isBlank (c : Char) : Bool :=
  let n := c.toNat
  (0x09 ≤ n && n ≤ 0x0D) || n == 0x20 || n == 0x85 || n == 0xA0 || n == 0x1680 ||
    (0x2000 ≤ n && n ≤ 0x200A) || n == 0x2028 || n == 0x2029 || n == 0x202F || n == 0x205F || n == 0x3000

def skipBlanks (cs : List Char) : List Char := cs.dropWhile isBlank

def trimChars (cs : List Char) : List Char := (skipBlanks (skipBlanks cs).reverse).reverse

def trim (s : String) : String := String.ofList (trimChars s.toList)

end RecordQuery.Text
