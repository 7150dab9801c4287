import SvgPage.Payload.Base64
import SvgPage.Text.Chars

/-!
# Data URIs

The media type stands before the first semicolon or comma, the payload after the first comma. The
payload is Base64, white space allowed, when one of the parts before the comma says so; otherwise
it is the text itself, byte for byte.
-/

namespace SvgPage

structure DataUri where
  mime : String
  bytes : List UInt8
  deriving DecidableEq, Repr

namespace DataUri

def utf8 (cs : List Char) : List UInt8 := cs.flatMap String.utf8EncodeChar

def body? (cs : List Char) : Option (List Char) := Text.after? "data:".toList (Text.trim cs)

def parts? (cs : List Char) : Option (List (List Char) × List Char) :=
  (body? cs).bind fun rest =>
    (Text.splitFirst? (· == ',') rest).map fun (header, payload) =>
      (Text.pieces (· == ';') header, payload)

/-- Plain text where no type is given. -/
def mimeOf (cs : List Char) : String :=
  let name := Text.trim cs
  if name.isEmpty then "text/plain" else String.ofList (Text.lower name)

def read? (cs : List Char) : Option DataUri := do
  let (header, payload) ← parts? cs
  let mime := mimeOf (header.headD [])
  if header.any (fun part => Text.trim part == "base64".toList) then
    let bytes ← Base64.decode? (payload.filter (!Text.isBlank ·))
    some ⟨mime, bytes⟩
  else some ⟨mime, utf8 payload⟩

/-- The media type alone, empty where none is given; the payload need not be readable. -/
def mime? (cs : List Char) : Option String := do
  let rest ← body? cs
  let (name, _) ← Text.splitFirst? (fun c => c == ';' || c == ',') rest
  some (String.ofList (Text.lower (Text.trim name)))

end DataUri

end SvgPage
