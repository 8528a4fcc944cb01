import SymbolLocator.Options
import SymbolLocator.Json.Value

/-!
# Option Documents

Options as JSON texts.

A document is an object whose members `debug_support` and `allow_te` hold
booleans. Either may be missing, and stands for `true` then; neither may occur
twice. Other members are of no consequence, whatever they hold, but every key
must be text. A document may also be an array of the two booleans in that
order, of which the last or both may be missing.

## Main definitions

* `Options.field?`: One option among the members of an object.
* `Options.ofValue?`, `Options.ofJson?`: The options of a document.
* `Options.toJson`: The document of options.
-/

namespace SymbolLocator

namespace Options

/-- The key of the first option. -/
def debugSupportKey : String := "debug_support"

/-- The key of the second option. -/
def allowTeKey : String := "allow_te"

/-- The boolean under `key`, or `true` if there is none. It must not occur
    twice. -/
def field? (key : String) (members : List (String × Json.Value)) : Option Bool :=
  match members.filter fun member => member.1 == key with
  | [] => some true
  | [(_, .bool value)] => some value
  | _ => none

/-- The members of an object with their keys as text. -/
def keyed? (members : List (List UInt16 × Json.Value)) : Option (List (String × Json.Value)) :=
  members.mapM fun (units, value) =>
    (Utf16.decode? units).map fun key => (String.ofList key, value)

/-- The options that a document holds. -/
def ofValue? : Json.Value → Option Options
  | .object members => do
    let members ← keyed? members
    let debugSupport ← field? debugSupportKey members
    let allowTe ← field? allowTeKey members
    return { debugSupport, allowTe }
  | .array [] => some {}
  | .array [.bool debugSupport] => some { debugSupport }
  | .array [.bool debugSupport, .bool allowTe] => some { debugSupport, allowTe }
  | _ => none

/-- The options that a text holds. -/
def ofJson? (text : String) : Option Options := do
  let value ← Json.parse? text
  ofValue? value

/-- The document of options, with both members and no blanks. -/
def toJson (options : Options) : String :=
  "\x7b\"" ++ debugSupportKey ++ "\":" ++ toString options.debugSupport ++
    ",\"" ++ allowTeKey ++ "\":" ++ toString options.allowTe ++ "\x7d"

end Options

end SymbolLocator
