import RuleMarshal.Hint.Basic
import RuleMarshal.Surroundings
import RuleMarshal.Text.Shown
/-!
Failures of the host program itself, such as a missing key, a value of a wrong type or a name that
nothing is known by. Each has a class and was raised with a text.
-/

set_option autoImplicit false
set_option relaxedAutoImplicit false

namespace RuleMarshal

/-- Failures of the host program itself. -/
inductive HostFault where
  | raised (type : ExceptionClass) (text : String)
  | index (text : String)
  | key (name : String)
  | typing (text : String)
  | noAttribute (text : String)
  | value (text : String)
  | overflow (text : String)
  | expression (text : String)
  | recursion
  | undefined (name : String)
  | unbound (name : String)

namespace HostFault

/-- The name of the class of a fault. -/
def className : HostFault → String
  | .raised type _ => type.name
  | .index _ => "IndexError"
  | .key _ => "KeyError"
  | .typing _ => "TypeError"
  | .noAttribute _ => "AttributeError"
  | .value _ => "ValueError"
  | .overflow _ => "OverflowError"
  | .expression _ => "SyntaxError"
  | .recursion => "RecursionError"
  | .undefined _ => "NameError"
  | .unbound _ => Surroundings.scripted.unboundName

/-- What a fault was raised with. -/
def argument : HostFault → String
  | .raised _ text | .index text | .key text | .typing text | .noAttribute text | .value text
  | .overflow text | .expression text | .unbound text => text
  | .recursion => "maximum recursion depth exceeded"
  | .undefined name => "name " ++ Text.shown name ++ " is not defined"

/-- The text of a fault. A missing key is shown rather than written. -/
def message : HostFault → String
  | .raised .key text | .key text => Text.shown text
  | fault => fault.argument

/-- The failure of an integer that no float is near. -/
def beyondFloats : HostFault := .overflow "int too large to convert to float"

end HostFault

end RuleMarshal
