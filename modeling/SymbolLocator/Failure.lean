import SymbolLocator.Failure.Load
import SymbolLocator.Failure.Lookup

/-!
# Failures

Everything that can go wrong between a buffer and a path.

## Main definitions

* `Failure`: A failure to load, a failed lookup, or options that do not read.
* `Failure.message`: Its text.
-/

namespace SymbolLocator

/-- A failure of any part of the library. -/
inductive Failure where
  /-- The buffer is not accepted as an image. -/
  | load (error : LoadError)
  /-- The image gives no path. -/
  | lookup (error : LookupError)
  /-- The text of the options does not read. -/
  | options (detail : String)
deriving DecidableEq, Repr

/-- The text of a failure. Failures to load and failed lookups keep the text
    they have on their own. -/
def Failure.message : Failure → String
  | load error => error.message
  | lookup error => error.message
  | options detail => "Configuration error: " ++ detail

end SymbolLocator
