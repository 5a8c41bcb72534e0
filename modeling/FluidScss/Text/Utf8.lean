/-
FluidScss/Text/Utf8.lean

The bytes of a text file.  Files hold bytes; a text is written as UTF-8
without a byte order mark and with its newlines as they are.  Reading is
strict (no overlong forms, no surrogates) and may fail.

Main facts: what was written decodes to the same text (`decode_encode`), and
read as a text file it comes back with its newlines unified
(`read_encode`).
-/
import FluidScss.Text.Lines

namespace FluidScss

namespace Text

/-- The UTF-8 bytes of a text. -/
def encode (text : Text) : ByteArray := (String.ofList text).toUTF8

/-- The text that the bytes spell in UTF-8. -/
def decode? (bytes : ByteArray) : Option Text := (String.fromUTF8? bytes).map String.toList

theorem decode_encode (text : Text) : decode? (encode text) = some text := by
  have h : String.fromUTF8? (String.ofList text).toUTF8 = some (String.ofList text) := by
    unfold String.fromUTF8? String.toUTF8
    rw [dif_pos (String.ofList text).isValidUTF8]
    rfl
  rw [decode?, encode, h, Option.map_some, String.toList_ofList]

/-- The text of a file: decoded, with its newlines unified. -/
def read? (bytes : ByteArray) : Option Text := (decode? bytes).map unifyNewlines

theorem read_encode (text : Text) : read? (encode text) = some (unifyNewlines text) := by
  simp [read?, decode_encode]

/-- The text without a byte order mark in front. -/
def dropByteOrderMark : Text → Text
  | '\uFEFF' :: rest => rest
  | text => text

/-- The bytes of a byte order mark. -/
def byteOrderMark : List UInt8 := [0xef, 0xbb, 0xbf]

/-- Whether a file is the beginning of a byte order mark and nothing else. -/
def isCutMark (bytes : ByteArray) : Bool :=
  bytes.size < byteOrderMark.length && bytes.toList.isPrefixOf byteOrderMark

/-- The text of a source file: as `read?`, without a byte order mark.  A mark
that the end of the file cuts off is no text either. -/
def readSource? (bytes : ByteArray) : Option Text :=
  if isCutMark bytes then some []
  else (decode? bytes).map fun text => unifyNewlines (dropByteOrderMark text)

end Text

end FluidScss
