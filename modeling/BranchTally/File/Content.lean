-- SUMMARY: The text of a file: UTF-8 where the bytes are that, and one character a byte otherwise.

/-! # File content

Source files come in more than one encoding. Bytes that are UTF-8 throughout are read as that, a byte
order mark included; all others give one character for each byte, so every file has a text.
-/

namespace BranchTally.Content

/-- One character for each byte. -/
def byteChars (bytes : ByteArray) : List Char := bytes.toList.map fun b => Char.ofNat b.toNat

/-- The text that UTF-8 bytes encode. -/
def strictText? (bytes : ByteArray) : Option (List Char) := (String.fromUTF8? bytes).map (·.toList)

/-- The text of a source file. -/
def text (bytes : ByteArray) : List Char := (strictText? bytes).getD (byteChars bytes)

/-- The bytes of a text. -/
def ofText (text : List Char) : ByteArray := (String.ofList text).toUTF8

end BranchTally.Content
