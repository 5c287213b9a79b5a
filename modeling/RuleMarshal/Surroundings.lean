/-!
Names that the bridge does not give but finds in its surroundings: the program that uses it has its
struct types in some module, and the binding of the engine has types of its own for the constructs
that it hands over as they are. They only show in the texts of messages.
-/

set_option autoImplicit false
set_option relaxedAutoImplicit false

namespace RuleMarshal

/-- The names that the surroundings of the bridge give. -/
structure Surroundings where
  /-- The module that the struct types are declared in. -/
  home : String
  /-- The type of an instance as the engine's binding hands it over. -/
  instanceType : String
  /-- The type of an ordered fact as the engine's binding hands it over. -/
  orderedFactType : String
  /-- The type of a fact with slots as the engine's binding hands it over. -/
  templateFactType : String
  /-- The class of the failure of a step whose name nothing was bound to. -/
  unboundName : String
  deriving DecidableEq, Repr

/-- The surroundings of a session that is replayed from a script, which stands in for the program
and for the engine's binding: these names are the script's and not the bridge's. -/
def Surroundings.scripted : Surroundings where
  home := "model"
  instanceType := "FakeInstance"
  orderedFactType := "FakeImplied"
  templateFactType := "FakeTemplateFact"
  unboundName := "NoVar"

end RuleMarshal
