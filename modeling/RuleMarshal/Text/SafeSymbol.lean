/-!
Which names may be written into engine text without quoting. A safe symbol starts with an ASCII
letter or an underscore and goes on with ASCII letters, digits and the marks `_ - . * : / !`; one
line feed at the very end is let through.
-/

set_option autoImplicit false
set_option relaxedAutoImplicit false

namespace RuleMarshal.Text.SafeSymbol

/-- Characters that a safe symbol may start with. -/
def isHead (c : Char) : Bool := c.isAlpha || c = '_'

/-- Characters that a safe symbol may go on with. -/
def isTail (c : Char) : Bool := c.isAlphanum || c ∈ ['_', '-', '.', '*', ':', '/', '!']

/-- What may follow the first character. -/
def tail : List Char → Bool
  | [] => true
  | c :: rest => (isTail c && tail rest) || (c = '\n' && rest.isEmpty)

/-- Whether a text is accepted as an unquoted name. -/
def accepts (text : String) : Bool :=
  match text.toList with
  | [] => false
  | c :: rest => isHead c && tail rest

end RuleMarshal.Text.SafeSymbol
