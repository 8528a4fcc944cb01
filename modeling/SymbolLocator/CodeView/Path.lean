import SymbolLocator.Buffer
import SymbolLocator.Text.Utf8
import SymbolLocator.CodeView.Signature

/-!
# Symbol Paths

The path of a symbol file, as a window of the file that names it.

A path is bytes, not text: nothing says in which encoding it was written. It
is kept with its terminator and with the offset it was found at. The name is
what lies in front of the first NUL byte, and its text can be asked for
strictly or with replacement characters.

## Main definitions

* `SymbolPath`: The bytes of a path, where they were, and under what signature.
* `SymbolPath.name`: The bytes in front of the first NUL.
* `SymbolPath.text`, `SymbolPath.display`: The name as text, strictly or not.
* `SymbolPath.isWindowOf`: Whether a buffer has the path's bytes at its offset.
-/

namespace SymbolLocator

/-- The path of a symbol file. -/
structure SymbolPath where
  /-- The bytes of the path, with the terminator. -/
  bytes : Buffer
  /-- Where in the file the path begins. -/
  offset : UInt32
  /-- The signature of the record the path was found in. -/
  signature : Signature

namespace SymbolPath

/-- The number of bytes, with the terminator. -/
def size (path : SymbolPath) : Nat := path.bytes.size

/-- Whether there are no bytes at all, not even a terminator. -/
def isEmpty (path : SymbolPath) : Bool := path.bytes.size == 0

/-- The bytes in front of the first NUL byte, and none if there is no NUL. -/
def name (path : SymbolPath) : List UInt8 :=
  let content := path.bytes.bytes
  if content.contains 0 then content.takeWhile fun byte => byte != 0 else []

/-- The name as text, or where it stops being text. -/
def text (path : SymbolPath) : Except Utf8.Fault String := Utf8.check path.name

/-- The name as text, with replacement characters where it is none. -/
def display (path : SymbolPath) : String := Utf8.lossy path.name

/-- Whether the bytes of the path are those of `buffer` at its offset. -/
def isWindowOf (path : SymbolPath) (buffer : Buffer) : Bool :=
  buffer.slice? path.offset.toNat path.size == some path.bytes

end SymbolPath

end SymbolLocator
