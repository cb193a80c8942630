/-!
White space as Unicode defines it, and text without white space at its ends. Letter case is
folded for ASCII letters only; the other letters keep the case that they have.
-/
namespace StoreBridge.Text

/-- The characters with the Unicode property White_Space. -/
def isBlank (c : Char) : Bool :=
  let n := c.toNat
  (9 ≤ n && n ≤ 13) || n == 0x20 || n == 0x85 || n == 0xA0 || n == 0x1680 ||
    (0x2000 ≤ n && n ≤ 0x200A) || n == 0x2028 || n == 0x2029 || n == 0x202F ||
    n == 0x205F || n == 0x3000

def dropBlanks (s : List Char) : List Char := s.dropWhile isBlank

def trimmed (s : List Char) : List Char := (dropBlanks (dropBlanks s).reverse).reverse

def trim (s : String) : String := String.ofList (trimmed s.toList)

/-- ASCII capitals become small letters. -/
def lower (s : String) : String := s.map Char.toLower

/-- The lines of a text. A line ends before a newline, and a carriage return in front of
    that newline belongs to neither line. -/
def lines (s : List Char) : List (List Char) :=
  let close (line : List Char) : List Char :=
    match line with
    | '\r' :: rest => rest.reverse
    | line => line.reverse
  let rec go : List Char → List Char → List (List Char)
    | [], [] => []
    | [], line => [line.reverse]
    | '\n' :: rest, line => close line :: go rest []
    | c :: rest, line => go rest (c :: line)
  go s []

def hasPart (part : List Char) : List Char → Bool
  | [] => part.isEmpty
  | c :: rest => part.isPrefixOf (c :: rest) || hasPart part rest

end StoreBridge.Text
