/-
# Writer.Shuffle -- the byte shuffle before compression

`shuffled_range` of `writer.cpp`: a range of the shuffled string is computed from
the unshuffled one, so that a block can be compressed subblock by subblock.
-/
import Mmxisf.Base

namespace Mmxisf.Writer

set_option autoImplicit false

/-- The byte of the input that byte `globalOffset` of the shuffled string is. -/
def shuffledSource (itemSize size globalOffset : Nat) : Nat :=
  let itemCount := size / itemSize
  let shuffledPrefixSize := itemCount * itemSize
  if globalOffset < shuffledPrefixSize then
    let byteIndex := globalOffset / itemCount
    let itemIndex := globalOffset % itemCount
    itemIndex * itemSize + byteIndex
  else globalOffset

def shuffledRange (input : Bytes) (itemSize shuffledOffset shuffledSize : Nat) : Result Bytes := do
  reject (itemSize = 0 ∨ shuffledOffset > input.length ∨
      shuffledSize > input.length - shuffledOffset) .invalidArgument
    "Writer byte shuffle has invalid item geometry"
  return (List.range shuffledSize).map fun localOffset =>
    input.getD (shuffledSource itemSize input.length (shuffledOffset + localOffset)) 0

end Mmxisf.Writer
