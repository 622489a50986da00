import TiledVideo.Bitstream.Code
import TiledVideo.Bitstream.Reader

/-!
# Buffering and reordering per sub-layer

How many pictures a decoder must hold back, for each temporal sub-layer. If the values are not coded
for each sub-layer, those of the highest are coded and hold for all.
-/

namespace TiledVideo

/-- Buffering and reordering in one sub-layer (`SubLayerOrderingInfo`). -/
structure OrderingInfo where
  maxDecPicBufferingMinus1 : Nat
  maxNumReorderPics : Nat
  maxLatencyIncreasePlus1 : Nat
  deriving DecidableEq, Repr, Inhabited

namespace OrderingInfo

/-- Reads the values of one sub-layer. -/
def parse : Reader ReadError OrderingInfo := do
  let maxDecPicBufferingMinus1 ← Reader.ue "max_dec_pic_buffering_minus1"
  let maxNumReorderPics ← Reader.ue "max_num_reorder_pics"
  let maxLatencyIncreasePlus1 ← Reader.ue "max_latency_increase_plus1"
  pure { maxDecPicBufferingMinus1, maxNumReorderPics, maxLatencyIncreasePlus1 }

/-- The code of the values of one sub-layer. -/
def encode (o : OrderingInfo) : Code := .concat [
  .ue o.maxDecPicBufferingMinus1,
  .ue o.maxNumReorderPics,
  .ue o.maxLatencyIncreasePlus1]

end OrderingInfo

/-- Buffering and reordering in all sub-layers. -/
structure SubLayerOrdering where
  /-- Whether the values are coded for each sub-layer. -/
  perSubLayer : Bool
  /-- One entry for each sub-layer, the lowest first. -/
  infos : List OrderingInfo
  deriving DecidableEq, Repr, Inhabited

namespace SubLayerOrdering

/-- Reads the values of `maxSubLayersMinus1 + 1` sub-layers, after the element that says whether they are
coded for each (`SubLayerOrderingInfo::read_all`). -/
def parse (element : String) (maxSubLayersMinus1 : Nat) : Reader ReadError SubLayerOrdering := do
  let perSubLayer ← Reader.flag element
  let infos ←
    if perSubLayer then Reader.times (maxSubLayersMinus1 + 1) OrderingInfo.parse
    else List.replicate (maxSubLayersMinus1 + 1) <$> OrderingInfo.parse
  pure { perSubLayer, infos }

/-- The code of the values of all sub-layers (`SubLayerOrderingInfo::write_all`). -/
def encode (o : SubLayerOrdering) : Code := .concat [
  .flag o.perSubLayer,
  .each OrderingInfo.encode
    (if o.perSubLayer then o.infos else o.infos.drop (o.infos.length - 1))]

end SubLayerOrdering

end TiledVideo
