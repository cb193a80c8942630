/-!
LIKE patterns as regular expressions. Literal characters are gathered until a wildcard or the end
of the pattern comes, and are escaped together where they would mean something to the expression.
-/
namespace StoreBridge.LikePattern

/-- The characters that mean something outside a class of characters or inside one. -/
def metacharacters : List Char :=
  ['\\', '.', '+', '*', '?', '(', ')', '|', '[', ']', '\x7b', '\x7d', '^', '$', '#', '&', '-', '~']

def escape (text : String) : String :=
  String.ofList (text.toList.flatMap fun c => if metacharacters.contains c then ['\\', c] else [c])

/-- An expression as far as it is written, and the literal characters behind it that are not. -/
structure Spelling where
  written : String
  pending : String

namespace Spelling

def flushed (s : Spelling) : String := s.written ++ escape s.pending

def next (s : Spelling) (c : Char) : Spelling :=
  if c = '%' then ⟨s.flushed ++ ".*", ""⟩
  else if c = '_' then ⟨s.flushed ++ ".", ""⟩
  else { s with pending := s.pending.push c }

end Spelling

def toRegex (pattern : String) : String :=
  (pattern.toList.foldl Spelling.next ⟨"^", ""⟩).flushed ++ "$"

end StoreBridge.LikePattern
