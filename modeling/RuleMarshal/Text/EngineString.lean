/-!
String literals of the engine. A literal stands between double quotes; inside it a backslash and
a double quote are each written behind a backslash, and every other character stands for itself,
so that texts one behind the other are escaped one by one (`escape_append`).
-/

set_option autoImplicit false
set_option relaxedAutoImplicit false

namespace RuleMarshal.Text.EngineString

/-- The inside of a literal: a backslash goes in front of each backslash and each quote. -/
def escape : List Char → List Char
  | [] => []
  | c :: rest => if c = '\\' ∨ c = '"' then '\\' :: c :: escape rest else c :: escape rest

/-- The literal of a text. -/
def quote (text : String) : String :=
  String.ofList ('"' :: escape text.toList ++ ['"'])

end RuleMarshal.Text.EngineString
