import StoreBridge.Text.Hex
import StoreBridge.Text.Printable

/-!
Text as a listing quotes it: between double quotes, with a backslash before what would end or
hide it. Hidden characters are written by their code point.
-/
namespace StoreBridge.Text.Quoted

def encodeChar (c : Char) : List Char :=
  if c = '\x00' then ['\\', '0']
  else if c = '\t' then ['\\', 't']
  else if c = '\r' then ['\\', 'r']
  else if c = '\n' then ['\\', 'n']
  else if c = '"' then ['\\', '"']
  else if c = '\\' then ['\\', '\\']
  else if isHidden c then ['\\', 'u', '\x7b'] ++ Hex.shortest c.toNat ++ ['\x7d']
  else [c]

def encode (s : String) : String :=
  String.ofList ('"' :: s.toList.flatMap encodeChar ++ ['"'])

end StoreBridge.Text.Quoted
