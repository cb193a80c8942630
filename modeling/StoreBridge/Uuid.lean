import StoreBridge.Text.Hex

/-!
Universally unique identifiers as sixteen bytes. Four forms are read: bare digits, digits in five
groups, the groups between braces, and the groups behind `urn:uuid:`. One is written.
-/
namespace StoreBridge.Uuid
open Text

/-- Digits in groups of eight, four, four, four and twelve, with a hyphen between the groups. -/
def ungroup? (s : List Char) : Option (List Char) :=
  let hyphens := [8, 13, 18, 23].map fun i => s[i]?
  if s.length = 36 ∧ hyphens = List.replicate 4 (some '-') then
    some (s.take 8 ++ (s.drop 9).take 4 ++ (s.drop 14).take 4 ++ (s.drop 19).take 4 ++ s.drop 24)
  else none

def digits? (s : List Char) : Option (List Char) :=
  if s.length = 32 then some s
  else if s.length = 36 then ungroup? s
  else if s.length = 38 then
    if s.head? = some '\x7b' ∧ s.getLast? = some '\x7d' then ungroup? ((s.drop 1).take 36) else none
  else if s.take 9 = "urn:uuid:".toList then ungroup? (s.drop 9)
  else none

def ofText? (s : List Char) : Option (List UInt8) := do
  let digits ← digits? s
  Hex.toBytes? digits

def text (bytes : List UInt8) : String :=
  let d := Hex.ofBytes bytes
  String.ofList (d.take 8 ++ '-' :: (d.drop 8).take 4 ++ '-' :: (d.drop 12).take 4 ++
    '-' :: (d.drop 16).take 4 ++ '-' :: d.drop 20)

end StoreBridge.Uuid
