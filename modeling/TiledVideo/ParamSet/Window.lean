import TiledVideo.Bitstream.Code
import TiledVideo.Bitstream.Reader

/-!
# Windows

The part of a picture that is output or displayed, by what is cut off at each side.
-/

namespace TiledVideo

/-- What is cut off at each side of a picture, in units of chroma samples. -/
structure Window where
  left : Nat
  right : Nat
  top : Nat
  bottom : Nat
  deriving DecidableEq, Repr, Inhabited

namespace Window

/-- Reads the four offsets (in `Window::read`). -/
def parse : Reader ReadError Window := do
  let left ← Reader.ue "win_left_offset"
  let right ← Reader.ue "win_right_offset"
  let top ← Reader.ue "win_top_offset"
  let bottom ← Reader.ue "win_bottom_offset"
  pure { left, right, top, bottom }

/-- Reads a window that may be absent, after the element that says so (`Window::read`). -/
def parseOptional (element : String) : Reader ReadError (Option Window) := do
  let present ← Reader.flag element
  Reader.optional present parse

/-- The code of the four offsets (in `Window::write`). -/
def encode (w : Window) : Code := .concat [
  .ue w.left,
  .ue w.right,
  .ue w.top,
  .ue w.bottom]

/-- The code of a window that may be absent (`Window::write`). -/
def encodeOptional (w : Option Window) : Code := .concat [
  .flag w.isSome,
  .option encode w]

end Window

end TiledVideo
