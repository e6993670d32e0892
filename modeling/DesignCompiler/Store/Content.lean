import DesignCompiler.Base64
import DesignCompiler.Failure
import DesignCompiler.Text.Class

/-!
The bytes of pictures as exports ship them, and the formats that the store takes.
-/
namespace DesignCompiler.Store

/-- A format that the store takes. -/
inductive PictureFormat where
  | png
  | jpeg
  | gif
  | webp
  | bmp
  | tga
deriving DecidableEq, Repr

namespace PictureFormat

def contentType : PictureFormat → String
  | png => "image/png"
  | jpeg => "image/jpeg"
  | gif => "image/gif"
  | webp => "image/webp"
  | bmp => "image/bmp"
  | tga => "image/tga"

def extension : PictureFormat → String
  | png => "png"
  | jpeg => "jpg"
  | gif => "gif"
  | webp => "webp"
  | bmp => "bmp"
  | tga => "tga"

end PictureFormat

/-- A picture that is ready to be stored. -/
structure Content where
  bytes : List UInt8
  contentType : String
  extension : String
deriving DecidableEq, Repr

/-- What the first bytes of a picture tell: a format to take, or the name of one to refuse. -/
inductive Signature where
  | accepted (format : PictureFormat)
  | refused (name : String)
deriving DecidableEq, Repr

/-- The first bytes of each known format; the first that fits counts. -/
def signatures : List (List UInt8 × Signature) :=
  [([0x89, 0x50, 0x4e, 0x47, 0x0d, 0x0a, 0x1a, 0x0a], .accepted .png),
    ([0xff, 0xd8, 0xff], .accepted .jpeg),
    ("GIF89a".toUTF8.toList, .accepted .gif),
    ("GIF87a".toUTF8.toList, .accepted .gif),
    ("RIFF".toUTF8.toList, .accepted .webp),
    ([0x4d, 0x4d, 0x00, 0x2a], .refused "Tiff"),
    ([0x49, 0x49, 0x2a, 0x00], .refused "Tiff"),
    ("DDS ".toUTF8.toList, .refused "Dds"),
    ("BM".toUTF8.toList, .accepted .bmp),
    ([0, 0, 1, 0], .refused "Ico"),
    ("#?RADIANCE".toUTF8.toList, .refused "Hdr"),
    ("P1".toUTF8.toList, .refused "Pnm"),
    ("P2".toUTF8.toList, .refused "Pnm"),
    ("P3".toUTF8.toList, .refused "Pnm"),
    ("P4".toUTF8.toList, .refused "Pnm"),
    ("P5".toUTF8.toList, .refused "Pnm"),
    ("P6".toUTF8.toList, .refused "Pnm"),
    ("P7".toUTF8.toList, .refused "Pnm"),
    ("farbfeld".toUTF8.toList, .refused "Farbfeld"),
    ([0, 0, 0, 0x20] ++ "ftypavif".toUTF8.toList, .refused "Avif"),
    ([0, 0, 0, 0x1c] ++ "ftypavif".toUTF8.toList, .refused "Avif"),
    ([0x76, 0x2f, 0x31, 0x01], .refused "OpenExr"),
    ("qoif".toUTF8.toList, .refused "Qoi")]

def signature? (bytes : List UInt8) : Option Signature :=
  (signatures.find? fun entry => entry.1.isPrefixOf bytes).map (·.2)

def Content.decode (encoded : String) : Except PictureFault Content :=
  match Base64.decode (Text.trim encoded) with
  | .error fault => .error (.base64 fault.message)
  | .ok bytes =>
    match signature? bytes with
    | none => .error .unknownFormat
    | some (.refused name) => .error (.unsupportedFormat name)
    | some (.accepted format) => .ok ⟨bytes, format.contentType, format.extension⟩

end DesignCompiler.Store
