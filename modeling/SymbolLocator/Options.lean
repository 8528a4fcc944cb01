/-!
# Lookup Options

What a caller can switch off.

## Main definitions

* `Options`: The two switches.
* `Options.standard`: Everything on.
* `Options.withoutDebugSupport`, `Options.withoutTe`: One switch off.
-/

namespace SymbolLocator

/-- What a lookup may look at. -/
structure Options where
  /-- Whether debug data is looked at. -/
  debugSupport : Bool := true
  /-- Whether TE images are accepted, and their file offsets compensated. -/
  allowTe : Bool := true
deriving DecidableEq, Repr

namespace Options

/-- Everything is looked at. -/
def standard : Options := {}

/-- Debug data is not looked at. -/
def withoutDebugSupport : Options := { debugSupport := false }

/-- TE images are prohibited. -/
def withoutTe : Options := { allowTe := false }

end Options

end SymbolLocator
