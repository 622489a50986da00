import TiledVideo.ParamSet.ScalingList
import TiledVideo.Proofs.Bitstream.Elements

/-!
# Reading back scaling lists

Results:

* `ScalingLists.reads`: all lists, each in the form in which it was coded.
-/

namespace TiledVideo.ScalingLists

open Reader

theorem reads_dc {dc : Int} (h : parseDc.Produces dc) : parseDc.Reads (.se dc) dc := by
  obtain ⟨dc, hdc, h⟩ := h.bind
  obtain ⟨_, hrange, h⟩ := h.bind
  obtain rfl := h.pure
  exact (hdc.mapError.reads_se.mapError _).bind_empty <|
    Reads.ensure_bind hrange.ensure <| reads_pure _

theorem reads_entry {position : Nat × Nat} {entry : ScalingListEntry}
    (h : (parseEntry position).Produces entry) :
    (parseEntry position).Reads (encodeEntry entry) entry := by
  obtain ⟨explicit, -, h⟩ := h.bind
  cases explicit with
  | true =>
    obtain ⟨dc, hdc, h⟩ := h.bind
    obtain ⟨deltas, hdeltas, h⟩ := h.bind
    obtain rfl := h.pure
    obtain ⟨hpresent, hdcRead⟩ := hdc.optional
    obtain ⟨hlen, hmem⟩ := hdeltas.times
    have hdcCode := Reads.optional fun a ha => reads_dc (hdcRead a ha)
    rw [← hpresent] at hdcCode
    exact ((reads_flag _ true).mapError _).cons <|
      hdcCode.cons <|
      (Reads.times hlen fun a ha => (hmem a ha).mapError.reads_se.mapError _).cons <|
      reads_nil _
  | false =>
    obtain ⟨delta, hdelta, h⟩ := h.bind
    obtain ⟨_, hmax, h⟩ := h.bind
    obtain rfl := h.pure
    exact ((reads_flag _ false).mapError _).cons <|
      (hdelta.mapError.reads_ue.mapError _).cons <|
      Reads.ensure_bind hmax.ensure <|
      reads_nil _

/-- Scaling lists that a reader gives are read back. There are as many as are written. -/
theorem reads {s : ScalingLists} (h : parse.Produces s) : parse.Reads s.encode s := by
  obtain ⟨entries, hentries, h⟩ := h.bind
  obtain rfl := h.pure
  have hlen : (entries.length == positions.length) = true := by
    rw [beq_iff_eq, hentries.each.length_eq]
  exact Reads.ensure_cons hlen <|
    (Reads.each <| hentries.each.imp fun _ _ => reads_entry).cons <|
    reads_nil _

end TiledVideo.ScalingLists
