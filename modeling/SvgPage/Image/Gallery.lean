import SvgPage.Image.Handle

/-!
# Kept pictures

A gallery keeps the pictures embedded so far, each content once: the same bytes give the picture
that is already there, in whatever format they are offered.
-/

namespace SvgPage

structure Picture where
  handle : ImageHandle
  bytes : List UInt8

/-- Tells the size in pixels of the picture that a file holds in a format, if it holds one. -/
abbrev ImageDecoder := ImageFormat → List UInt8 → Option (Nat × Nat)

/-- Pictures in the order of embedding. -/
structure Gallery where
  pictures : List Picture := []

namespace Gallery

def find? (g : Gallery) (key : ResourceKey) : Option Picture :=
  g.pictures.find? fun p => p.handle.identity == key

/-- The picture of a file, and the gallery that holds it; nothing changes for an unusable file. -/
def embed (decode : ImageDecoder) (g : Gallery) (format : ImageFormat) (bytes : List UInt8) :
    Option ImageHandle × Gallery :=
  let key := ResourceKey.ofContent bytes
  match g.find? key with
  | some p => (some p.handle, g)
  | none =>
    match decode format bytes with
    | none => (none, g)
    | some (width, height) =>
      let handle : ImageHandle := ⟨key, format, width, height⟩
      (some handle, ⟨g.pictures ++ [⟨handle, bytes⟩]⟩)

end Gallery

end SvgPage
