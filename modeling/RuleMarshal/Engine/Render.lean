import RuleMarshal.Error
import RuleMarshal.Text.EngineString
import RuleMarshal.Text.SafeSymbol
/-!
Engine values as text that the engine reads back. Names that are no safe symbols are spelled by
an expression that makes them from a string literal. Non-finite floats, addresses of facts and of
foreign data, and the bare value have no text.
-/

set_option autoImplicit false
set_option relaxedAutoImplicit false

namespace RuleMarshal

/-- The text of an instance name. -/
def renderInstanceName (name : String) : String :=
  if Text.SafeSymbol.accepts name then "[" ++ name ++ "]"
  else "(symbol-to-instance-name (sym-cat " ++ Text.EngineString.quote name ++ "))"

/-- The text of a symbol. -/
def renderSymbol (name : String) : String :=
  if Text.SafeSymbol.accepts name then name
  else "(sym-cat " ++ Text.EngineString.quote name ++ ")"

namespace EngineValue

mutual

/-- The text of a value. -/
def render : EngineValue → Except Error String
  | .integer n _ => .ok (toString n)
  | .float x => if x.isFinite then .ok x.text else .error (.unsupported (.noFloatLiteral x))
  | .string text => .ok (Text.EngineString.quote text)
  | .symbol name => .ok (renderSymbol name)
  | .instanceName name => .ok (renderInstanceName name)
  | .multifield items => do
    let texts ← renderEach items
    return "(create$" ++ String.join texts ++ ")"
  | .instanceAddress handle => .ok ("(instance-address " ++ renderInstanceName handle.name ++ ")")
  | v => .error (.unsupported (.noText v.kind?))

/-- The texts of the items of a multifield, a space in front of each. -/
def renderEach : List EngineValue → Except Error (List String)
  | [] => .ok []
  | v :: rest => do
    let text ← render v
    let texts ← renderEach rest
    return (" " ++ text) :: texts

end

end EngineValue

/-- A value together with its text. -/
structure Term where
  value : EngineValue
  text : String
  spells : value.render = .ok text

/-- The term of a value that has a text. -/
def EngineValue.term (v : EngineValue) : Except Error Term :=
  match h : v.render with
  | .ok text => .ok ⟨v, text, h⟩
  | .error e => .error e

end RuleMarshal
