import TiledVideo.Engine.Relay
import TiledVideo.Proofs.Bitstream.Scripts
import TiledVideo.Proofs.Bitstream.Unescaping
import TiledVideo.Proofs.Engine.AnnouncedSizes
import TiledVideo.Proofs.Engine.InertUnits
import TiledVideo.Proofs.Engine.LostPictures
import TiledVideo.Proofs.Engine.ReportedErrors
import TiledVideo.Proofs.Engine.SendReceive
import TiledVideo.Proofs.Extradata.ArrayOrder
import TiledVideo.Proofs.Mosaic.Restore
import TiledVideo.Proofs.Nal.Decomposition
import TiledVideo.Proofs.Nal.FailedWrites
import TiledVideo.Proofs.Nal.WrittenStreams
import TiledVideo.Proofs.ParamSet.Bounds
import TiledVideo.Proofs.ParamSet.ExactSets
import TiledVideo.Proofs.RefPics.Accepted
import TiledVideo.Proofs.Slice.InPlace
import TiledVideo.Proofs.Tiling.KeptLayouts
