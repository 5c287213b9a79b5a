import RuleMarshal.Binary64.Basic
/-!
What crosses the border to the engine: plain data, and references to constructs. A host program may
hand over plain data where a text is expected, and the engine sees it as it is.
-/

set_option autoImplicit false
set_option relaxedAutoImplicit false

namespace RuleMarshal

/-- What the engine's binding hands over and takes: plain data, and references to constructs. -/
inductive Native where
  | null
  | bool (b : Bool)
  | int (n : Int)
  | float (x : Binary64)
  | text (s : String)
  | symbol (s : String)
  | instanceName (s : String)
  | list (items : List Native)
  | inst (name : String)
  | fact (index : Int) (ofTemplate : Bool)
  | external (label : String)

instance : Inhabited Native := ⟨.null⟩

end RuleMarshal
