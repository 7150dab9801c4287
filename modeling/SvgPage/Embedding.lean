import SvgPage.Image.Gallery
import SvgPage.Image.Raster
import SvgPage.Type.TrueType

/-!
# Embedding fonts and images

What a document brings along is handed to an embedder, which keeps a state of its own. An embedder
that answers by its arguments alone gives the same document the same scene at any time.
-/

namespace SvgPage

/-- Makes fonts and images of their files, or refuses a file. -/
structure Embedder (σ : Type) where
  /-- A font from its file, with a hint at its name. -/
  font : List UInt8 → String → σ → Option Font × σ
  image : ImageFormat → List UInt8 → σ → Option ImageHandle × σ

inductive EmbedCall where
  | font (bytes : List UInt8) (hint : String)
  | image (format : ImageFormat) (bytes : List UInt8)
  deriving DecidableEq, Repr

namespace Embedder

variable {σ : Type}

/-- An embedder that also keeps its requests, the latest one last. -/
def logged (e : Embedder σ) : Embedder (List EmbedCall × σ) where
  font bytes hint s :=
    let (answer, t) := e.font bytes hint s.2
    (answer, s.1 ++ [.font bytes hint], t)
  image format bytes s :=
    let (answer, t) := e.image format bytes s.2
    (answer, s.1 ++ [.image format bytes], t)

end Embedder

structure Workshop where
  fonts : List Font := []
  gallery : Gallery := {}

namespace Workshop

def embedFont (bytes : List UInt8) (hint : String) (w : Workshop) : Option Font × Workshop :=
  match TrueType.font? bytes hint with
  | some font => (some font, { w with fonts := w.fonts ++ [font] })
  | none => (none, w)

/-- A picture, if its header can be read; each content is kept once. -/
def embedImage (format : ImageFormat) (bytes : List UInt8) (w : Workshop) :
    Option ImageHandle × Workshop :=
  let (answer, gallery) := w.gallery.embed Raster.size? format bytes
  (answer, { w with gallery := gallery })

def embedder : Embedder Workshop := ⟨embedFont, embedImage⟩

end Workshop

end SvgPage
