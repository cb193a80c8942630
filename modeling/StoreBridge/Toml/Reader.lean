import StoreBridge.Toml.Scalar
import StoreBridge.Toml.Table
import StoreBridge.Toml.Text

/-!
Reads TOML documents. Both spellings of a line end are made newlines first, so a carriage return
that is left over is a control character. Nesting and the length of dotted keys are limited.
-/
namespace StoreBridge.Toml

/-- Values are nested in one another less deep than this, and a key has fewer parts. -/
def nestingLimit : Nat := 80

def unifyLineEnds : List Char → List Char
  | [] => []
  | '\r' :: '\n' :: rest => '\n' :: unifyLineEnds rest
  | c :: rest => c :: unifyLineEnds rest

def skipBlanks (s : List Char) : List Char := s.dropWhile isBlank

def skipComment : List Char → List Char
  | '#' :: rest => rest.dropWhile isPlain
  | s => s

def lineEnd? (s : List Char) : Option (List Char) :=
  match skipComment (skipBlanks s) with
  | [] => some []
  | '\n' :: rest => some rest
  | _ => none

def skipSpace (inComment : Bool) : List Char → List Char
  | [] => []
  | '\n' :: rest => skipSpace false rest
  | c :: rest =>
    if inComment then if isPlain c then skipSpace true rest else c :: rest
    else if isBlank c then skipSpace false rest
    else if c = '#' then skipSpace true rest
    else c :: rest

def simpleKey? (s : List Char) : Option (String × List Char) :=
  let bare := s.takeWhile isBare
  if bare.isEmpty then quoted? s else some (String.ofList bare, s.dropWhile isBare)

/-- A key, perhaps dotted, with the blanks around it: its first parts and its last one. -/
def key? : Nat → List Char → Option ((List String × String) × List Char)
  | 0, _ => none
  | fuel + 1, s =>
    match simpleKey? (skipBlanks s) with
    | none => none
    | some (part, rest) =>
      match skipBlanks rest with
      | '.' :: rest => (key? fuel rest).map fun r => ((part :: r.1.1, r.1.2), r.2)
      | rest => some (([], part), rest)

def dottedKey? (s : List Char) : Option ((List String × String) × List Char) :=
  key? (nestingLimit - 1) s

mutual

/-- A value without blanks in front of it. `depth` is how deep it may be nested, and `fuel` exceeds
    the number of steps that the text allows. -/
def value? (fuel depth : Nat) (s : List Char) : Option (Toml × List Char) :=
  match fuel with
  | 0 => none
  | fuel + 1 =>
    match s with
    | '[' :: rest =>
      if depth ≤ 1 then none
      else (items? fuel (depth - 1) rest).map fun r => (.array r.1, r.2)
    | '\x7b' :: rest =>
      if depth ≤ 1 then none
      else
        match skipBlanks rest with
        | '\x7d' :: rest => some (.table [], rest)
        | rest =>
          match assignments? fuel (depth - 1) rest with
          | none => none
          | some (assignments, rest) => (inlineTable? assignments).map fun table => (table, rest)
    | '"' :: _ => (text? s).map fun r => (.string r.1, r.2)
    | '\'' :: _ => (text? s).map fun r => (.string r.1, r.2)
    | s => scalar? s

/-- The items of an array up to its closing bracket. A comma may follow the last one. -/
def items? (fuel depth : Nat) (s : List Char) : Option (List Toml × List Char) :=
  match fuel with
  | 0 => none
  | fuel + 1 =>
    match skipSpace false s with
    | ']' :: rest => some ([], rest)
    | s =>
      match value? fuel depth s with
      | none => none
      | some (item, rest) =>
        match skipSpace false rest with
        | ']' :: rest => some ([item], rest)
        | ',' :: rest => (items? fuel depth rest).map fun r => (item :: r.1, r.2)
        | _ => none

/-- The keys and values between braces; there is at least one, and no comma behind the last. -/
def assignments? (fuel depth : Nat) (s : List Char) : Option (List Assignment × List Char) :=
  match fuel with
  | 0 => none
  | fuel + 1 =>
    match dottedKey? s with
    | some ((path, key), '=' :: rest) =>
      match value? fuel depth (skipBlanks rest) with
      | none => none
      | some (value, rest) =>
        match skipBlanks rest with
        | '\x7d' :: rest => some ([⟨path, key, value⟩], rest)
        | ',' :: rest =>
          (assignments? fuel depth rest).map fun r => (⟨path, key, value⟩ :: r.1, r.2)
        | _ => none
    | _ => none

end

inductive Line where
  | header (isItem : Bool) (path : List String) (key : String)
  | assignment (a : Assignment)
  deriving Repr

def line? (s : List Char) : Option (Line × List Char) :=
  match s with
  | '[' :: '[' :: rest => do
    let ((path, key), rest) ← dottedKey? rest
    match rest with
    | ']' :: ']' :: rest => (lineEnd? rest).map fun rest => (.header true path key, rest)
    | _ => none
  | '[' :: rest => do
    let ((path, key), rest) ← dottedKey? rest
    match rest with
    | ']' :: rest => (lineEnd? rest).map fun rest => (.header false path key, rest)
    | _ => none
  | s => do
    let ((path, key), rest) ← dottedKey? s
    match rest with
    | '=' :: rest =>
      let (value, rest) ← value? (2 * rest.length + 2) nestingLimit (skipBlanks rest)
      (lineEnd? rest).map fun rest => (.assignment ⟨path, key, value⟩, rest)
    | _ => none

def lines? : Nat → List Char → Option (List Line)
  | 0, _ => none
  | fuel + 1, s =>
    match lineEnd? s with
    | some [] => some []
    | some rest => lines? fuel rest
    | none =>
      match line? (skipBlanks s) with
      | none => none
      | some (l, rest) => (lines? fuel rest).map (l :: ·)

def sections : List Line → List Assignment × List Section
  | [] => ([], [])
  | .assignment a :: rest =>
    let (above, below) := sections rest
    (a :: above, below)
  | .header isItem path key :: rest =>
    let (above, below) := sections rest
    ([], ⟨isItem, path, key, above⟩ :: below)

/-- The fields of a document. A byte order mark may stand in front. -/
def ofText? (s : String) : Option (Entries Toml) := do
  let s := match s.toList with
    | '\uFEFF' :: rest => rest
    | s => s
  let lines ← lines? (s.length + 2) (unifyLineEnds s)
  let (top, below) := sections lines
  document? top below

end StoreBridge.Toml
