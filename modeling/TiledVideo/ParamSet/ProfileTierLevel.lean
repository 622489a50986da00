import TiledVideo.Bitstream.Code
import TiledVideo.Bitstream.Reader

/-!
# Profile, tier and level

What a decoder must be able to do to decode a sequence, for the whole of it and optionally for the
temporal sub-layers below the highest. The flags that say which sub-layers have a profile or a level
of their own come first, padded to eight pairs; the profiles and levels follow.
-/

namespace TiledVideo

/-- The 88 bits that describe a profile. -/
structure ProfileInfo where
  space : Nat
  tier : Bool
  idc : Nat
  /-- The 32 compatibility flags as a number. -/
  compatibility : Nat
  progressive : Bool
  interlaced : Bool
  nonPacked : Bool
  frameOnly : Bool
  /-- The 43 flags whose meaning hangs on the profile, as a number. -/
  constraints : Nat
  inbld : Bool
  deriving DecidableEq, Repr, Inhabited

namespace ProfileInfo

/-- Reads a profile (`ProfileInfo::read`). -/
def parse : Reader ReadError ProfileInfo := do
  let space ← Reader.uint 2 "profile_space"
  let tier ← Reader.flag "tier_flag"
  let idc ← Reader.uint 5 "profile_idc"
  let compatibility ← Reader.uint 32 "profile_compatibility_flag"
  let progressive ← Reader.flag "progressive_source_flag"
  let interlaced ← Reader.flag "interlaced_source_flag"
  let nonPacked ← Reader.flag "non_packed_constraint_flag"
  let frameOnly ← Reader.flag "frame_only_constraint_flag"
  let high ← Reader.uint 11 "reserved_zero_43bits"
  let low ← Reader.uint 32 "reserved_zero_43bits"
  let inbld ← Reader.flag "inbld_flag"
  pure {
    space, tier, idc, compatibility, progressive, interlaced, nonPacked, frameOnly
    constraints := high * 2 ^ 32 + low
    inbld }

/-- The code of a profile (`ProfileInfo::write`). -/
def encode (p : ProfileInfo) : Code := .concat [
  .uint 2 p.space,
  .flag p.tier,
  .uint 5 p.idc,
  .uint 32 p.compatibility,
  .flag p.progressive,
  .flag p.interlaced,
  .flag p.nonPacked,
  .flag p.frameOnly,
  .uint 11 (p.constraints / 2 ^ 32),
  .uint 32 (p.constraints % 2 ^ 32),
  .flag p.inbld]

end ProfileInfo

/-- What is stated of one sub-layer (`SubLayerInfo`). -/
structure SubLayerProfile where
  profile : Option ProfileInfo
  level : Option Nat
  deriving DecidableEq, Repr, Inhabited

namespace SubLayerProfile

/-- Reads the two flags that say what is stated of a sub-layer. -/
def parsePresence : Reader ReadError (Bool × Bool) := do
  let profile ← Reader.flag "sub_layer_profile_present_flag"
  let level ← Reader.flag "sub_layer_level_present_flag"
  pure (profile, level)

/-- Reads what is stated of a sub-layer (in `ProfileTierLevel::read`). -/
def parse (present : Bool × Bool) : Reader ReadError SubLayerProfile := do
  let profile ← Reader.optional present.1 ProfileInfo.parse
  let level ← Reader.optional present.2 (Reader.uint 8 "sub_layer_level_idc")
  pure { profile, level }

/-- The two flags that say what is stated of a sub-layer. -/
def encodePresence (s : SubLayerProfile) : Code := .concat [
  .flag s.profile.isSome,
  .flag s.level.isSome]

/-- The code of what is stated of a sub-layer (in `ProfileTierLevel::write`). -/
def encode (s : SubLayerProfile) : Code := .concat [
  .option ProfileInfo.encode s.profile,
  .option (.uint 8) s.level]

end SubLayerProfile

/-- Profile, tier and level of a sequence. -/
structure ProfileTierLevel where
  profile : ProfileInfo
  level : Nat
  /-- One entry for each sub-layer below the highest. -/
  subLayers : List SubLayerProfile
  deriving DecidableEq, Repr, Inhabited

namespace ProfileTierLevel

/-- The number of reserved bits after the presence flags of `n` sub-layers. -/
def paddingBits (n : Nat) : Nat :=
  if n = 0 then 0 else 2 * (8 - n)

/-- Reads profile, tier and level of a sequence with `maxSubLayersMinus1` sub-layers below the highest
(`ProfileTierLevel::read`). -/
def parse (maxSubLayersMinus1 : Nat) : Reader ReadError ProfileTierLevel := do
  let profile ← ProfileInfo.parse
  let level ← Reader.uint 8 "general_level_idc"
  let present ← Reader.times maxSubLayersMinus1 SubLayerProfile.parsePresence
  Reader.skip (paddingBits maxSubLayersMinus1) "reserved_zero_2bits"
  let subLayers ← Reader.each SubLayerProfile.parse present
  pure { profile, level, subLayers }

/-- The code of profile, tier and level (`ProfileTierLevel::write`). -/
def encode (p : ProfileTierLevel) : Code := .concat [
  p.profile.encode,
  .uint 8 p.level,
  .each SubLayerProfile.encodePresence p.subLayers,
  .uint (paddingBits p.subLayers.length) 0,
  .each SubLayerProfile.encode p.subLayers]

end ProfileTierLevel

end TiledVideo
