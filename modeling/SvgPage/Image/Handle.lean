import SvgPage.Type.Font

/-!
# Images

The page places an image by its identity and its size in pixels.
-/

namespace SvgPage

inductive ImageFormat where
  | png
  | jpeg
  deriving DecidableEq, Repr

structure ImageHandle where
  identity : ResourceKey
  format : ImageFormat
  width : Nat
  height : Nat
  deriving DecidableEq, Repr

end SvgPage
