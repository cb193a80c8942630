import StoreBridge.Error

/-!
Certificates in a PEM file. A certificate goes from a line that holds the begin marker to the next
line that holds the end marker, both included. What stands outside does not count, and a begin
marker inside starts anew.
-/
namespace StoreBridge.Postgres.Certificates
open Text

def beginMarker : String := "-----BEGIN CERTIFICATE-----"

def endMarker : String := "-----END CERTIFICATE-----"

/-- The lines of the certificate that is being read, the last one first; none outside of one. -/
abbrev Current := Option (List (List Char))

def extend (current : Current) (line : List Char) : Current :=
  let current := if hasPart beginMarker.toList line then some [] else current
  current.map fun lines => trimmed line :: lines

def joined (lines : List (List Char)) : String :=
  String.ofList (lines.reverse.flatMap fun line => line ++ ['\n'])

/-- The certificates of lines, in order. One that is not ended is left out. -/
def ofLines (current : Current) : List (List Char) → List String
  | [] => []
  | line :: rest =>
    match extend current line with
    | some lines =>
      if hasPart endMarker.toList line then joined lines :: ofLines none rest
      else ofLines (some lines) rest
    | none => ofLines none rest

/-- The certificates of a file; there has to be one. -/
def ofBytes (bytes : List UInt8) : Except Error (List String) :=
  match String.fromUTF8? (ByteArray.mk bytes.toArray) with
  | none => .error (.config .certificatesNotText)
  | some text =>
    match ofLines none (lines text.toList) with
    | [] => .error (.config .noCertificates)
    | certificates => .ok certificates

end StoreBridge.Postgres.Certificates
