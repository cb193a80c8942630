/-!
Values of TOML documents. A number with a fraction or an exponent is kept as it is written, and
so are dates and times of day.
-/
namespace StoreBridge

inductive Toml where
  | string (value : String)
  | integer (value : Int)
  | float (text : String)
  | boolean (value : Bool)
  /-- A date, a time of day, or both. -/
  | moment (text : String)
  | array (items : List Toml)
  | table (fields : List (String × Toml))
  deriving Inhabited, Repr

namespace Toml

def isBlank (c : Char) : Bool := c == ' ' || c == '\t'

/-- What may stand in a line as it is: no control characters but the tab. -/
def isPlain (c : Char) : Bool := c == '\t' || (0x20 ≤ c.toNat && c.toNat != 0x7F)

/-- What a key needs no quotes for. -/
def isBare (c : Char) : Bool := c.isAlphanum || c == '_' || c == '-'

end Toml
end StoreBridge
