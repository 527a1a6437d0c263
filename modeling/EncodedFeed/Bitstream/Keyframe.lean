import EncodedFeed.Bitstream.Av1
import EncodedFeed.Bitstream.Vp9
import EncodedFeed.Codec

/-!
# Keyframes of IVF frames

Whether a frame out of an IVF file is a keyframe, read off its uncompressed header.
-/

namespace EncodedFeed

/-- The frame is a keyframe of its codec.  The H.26x codecs do not occur in IVF files. -/
def isKeyframe : Codec → Octets → Bool
  | .vp8, data => vp8IsKey data
  | .vp9, data => vp9IsKey data
  | .av1, data => Av1.hasSequenceHeader data
  | .h264, _ | .h265, _ => false

end EncodedFeed
