import SymbolLocator.Failure
import SymbolLocator.Image.Load
import SymbolLocator.CodeView.Record

/-!
# Lookup

From a buffer to the path of its symbol file.

## Main definitions

* `Image.debugDirectory`: The debug directory of an image.
* `DebugDirectory.codeViewEntry`: The first CodeView entry, or its absence.
* `Image.symbolPath`: The path that an image names.
* `locate`: The path that a buffer names.
-/

namespace SymbolLocator

/-- The debug directory of an image. -/
def Image.debugDirectory (image : Image) (options : Options) :
    Except LookupError DebugDirectory := do
  ensure options.debugSupport (.absent .supportDisabled)
  let range ← image.announcedRange options
  range.checkDirectory image.sizeOfImage
  let placement ← image.place range options
  image.directoryAt placement.fileOffset range.size

/-- The first CodeView entry of a directory, with its index. Later ones do not
    count. -/
def DebugDirectory.codeViewEntry (directory : DebugDirectory) :
    Except LookupError (Nat × DebugEntry) :=
  require (.absent .noCodeViewEntry) directory.codeView?

/-- The path that an image names. -/
def Image.symbolPath (image : Image) (options : Options) : Except LookupError SymbolPath := do
  let directory ← image.debugDirectory options
  let (_, entry) ← directory.codeViewEntry
  image.recordPath entry options

/-- The path that a buffer names. With debug data switched off, the buffer is
    not looked at. -/
def locate (buffer : Buffer) (options : Options) : Except Failure SymbolPath := do
  ensure options.debugSupport (.lookup (.absent .supportDisabled))
  let image ← (Image.load buffer options).mapError .load
  (image.symbolPath options).mapError .lookup

end SymbolLocator
