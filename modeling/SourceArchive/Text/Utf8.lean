import SourceArchive.Text.Basic

/-!
# Texts as bytes

Files hold bytes.  Those of a text are its UTF-8 encoding, and bytes that are no such encoding are no text.
-/

namespace SourceArchive

namespace Text

/-- The text that bytes encode. -/
def ofBytes? (bytes : ByteArray) : Option Text := (String.fromUTF8? bytes).map String.toList

def toBytes (t : Text) : ByteArray := (String.ofList t).toUTF8

end Text

end SourceArchive
