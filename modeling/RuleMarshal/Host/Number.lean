import RuleMarshal.Host.Heap
import RuleMarshal.Text.Numeral
/-!
Numbers out of host values. A number may be written in a text. A float gives its whole part as an
integer; an integer gives the float that is nearest to it.
-/

set_option autoImplicit false
set_option relaxedAutoImplicit false

namespace RuleMarshal

namespace Value

/-- A text that no number is written in. -/
def malformed (what : String) (v : Value) : HostFault :=
  let shown := ((v.hostText?.map HostText.shown).getD "b''").toList.take 200
  .value (what ++ ": " ++ String.ofList shown)

/-- The integer that a value gives. -/
def toInteger (v : Value) : Except HostFault Int :=
  let unreadable := malformed "invalid literal for int() with base 10" v
  match v with
  | .float .nan => .error (.value "cannot convert float NaN to integer")
  | .float (.infinite _) => .error (.overflow "cannot convert float infinity to integer")
  | .float x => .ok x.truncated
  | .stranger .bytes => .error unreadable
  | v =>
    match v.integer?, v.text? with
    | some n, _ => .ok n
    | Option.none, some s => (Text.integer? s).elim (.error unreadable) .ok
    | Option.none, Option.none => .error (.typing
        ("int() argument must be a string, a bytes-like object or a real number, not '" ++
          v.typeName ++ "'"))

/-- The float that a value gives. -/
def toFloat (v : Value) : Except HostFault Binary64 :=
  let unreadable := malformed "could not convert string to float" v
  match v with
  | .float x => .ok x
  | .stranger .bytes => .error unreadable
  | v =>
    match v.integer?, v.text? with
    | some n, _ => (Binary64.ofInt? n).elim (.error .beyondFloats) .ok
    | Option.none, some s => (Text.float? s).elim (.error unreadable) .ok
    | Option.none, Option.none => .error (.typing
        ("float() argument must be a string or a real number, not '" ++ v.typeName ++ "'"))

end Value

end RuleMarshal
