/-!
The ways in which functions take their parameters, those of the host program and those that are
written out inside a type.
-/

set_option autoImplicit false
set_option relaxedAutoImplicit false

namespace RuleMarshal

/-- Ways in which a function takes a parameter. -/
inductive ParameterKind where
  | positionalOnly | positional | variadic | keywordOnly | keywordVariadic
  deriving DecidableEq, Repr

namespace ParameterKind

/-- Whether an argument can be given to the parameter by its position. -/
def takesPosition : ParameterKind → Bool
  | .positionalOnly | .positional => true
  | _ => false

/-- Whether an argument can be given to the parameter by its name. -/
def takesName : ParameterKind → Bool
  | .positional | .keywordOnly => true
  | _ => false

end ParameterKind

end RuleMarshal
