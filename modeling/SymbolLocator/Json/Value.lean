import SymbolLocator.Json.Token

/-!
# JSON Values

The value that a sequence of tokens stands for.

The reader is a machine that takes one token at a time. What it has read and
not yet closed is a stack of frames, one for each open array or object, so a
value may be nested to any depth and the machine needs no recursion. A text
has a value if the machine, started with an empty stack, ends with a complete
value and an empty stack.

## Main definitions

* `Json.Value`: Values.
* `Json.Frame`, `Json.State`: Open containers, and what is expected next.
* `Json.State.step`: The effect of one token.
* `Json.ofTokens?`, `Json.parse?`: The value of tokens and of a text.
-/

namespace SymbolLocator

namespace Json

/-- A JSON value. Numbers are kept as they are written, strings as the code
    units they denote, and members in order, however often a key occurs. -/
inductive Value where
  | null
  | bool (value : Bool)
  | number (literal : List Char)
  | string (units : List UInt16)
  | array (items : List Value)
  | object (members : List (List UInt16 × Value))

/-- An array or object that is open, with what was read of it, last first. -/
inductive Frame where
  /-- An array of which the next item is being read. -/
  | item (before : List Value)
  /-- An object of which the value for `key` is being read. -/
  | member (before : List (List UInt16 × Value)) (key : List UInt16)

/-- What was read, and what is expected next. -/
inductive State where
  /-- A value. -/
  | awaitsValue (stack : List Frame)
  /-- The first item of an array, or its end. -/
  | awaitsFirstItem (stack : List Frame)
  /-- The first key of an object, or its end. -/
  | awaitsFirstKey (stack : List Frame)
  /-- A key of an object. -/
  | awaitsKey (before : List (List UInt16 × Value)) (stack : List Frame)
  /-- The colon behind a key. -/
  | awaitsColon (before : List (List UInt16 × Value)) (key : List UInt16) (stack : List Frame)
  /-- A comma or the end of the innermost container, behind a complete
      value. -/
  | complete (value : Value) (stack : List Frame)

namespace State

/-- The effect of a token that begins a value. -/
def begin (stack : List Frame) : Token → Option State
  | .null => some (.complete .null stack)
  | .bool value => some (.complete (.bool value) stack)
  | .number literal => some (.complete (.number literal) stack)
  | .string units => some (.complete (.string units) stack)
  | .openArray => some (.awaitsFirstItem stack)
  | .openObject => some (.awaitsFirstKey stack)
  | _ => none

/-- The effect of one token. -/
def step : State → Token → Option State
  | .awaitsValue stack, token => begin stack token
  | .awaitsFirstItem stack, .closeArray => some (.complete (.array []) stack)
  | .awaitsFirstItem stack, token => begin (.item [] :: stack) token
  | .awaitsFirstKey stack, .closeObject => some (.complete (.object []) stack)
  | .awaitsFirstKey stack, .string key => some (.awaitsColon [] key stack)
  | .awaitsKey before stack, .string key => some (.awaitsColon before key stack)
  | .awaitsColon before key stack, .colon => some (.awaitsValue (.member before key :: stack))
  | .complete value (.item before :: stack), .comma =>
    some (.awaitsValue (.item (value :: before) :: stack))
  | .complete value (.item before :: stack), .closeArray =>
    some (.complete (.array (value :: before).reverse) stack)
  | .complete value (.member before key :: stack), .comma =>
    some (.awaitsKey ((key, value) :: before) stack)
  | .complete value (.member before key :: stack), .closeObject =>
    some (.complete (.object ((key, value) :: before).reverse) stack)
  | _, _ => none

/-- The value that was read, if it is complete and nothing is open. -/
def result? : State → Option Value
  | .complete value [] => some value
  | _ => none

end State

/-- The value that a sequence of tokens stands for. -/
def ofTokens? (tokens : List Token) : Option Value := do
  let last ← tokens.foldlM State.step (.awaitsValue [])
  last.result?

/-- The value of a JSON text. -/
def parse? (text : String) : Option Value := do
  let tokens ← tokens? text.toList
  ofTokens? tokens

end Json

end SymbolLocator
