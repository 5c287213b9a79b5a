import RuleMarshal.Binary64.Basic
import RuleMarshal.Function.ParameterKind
import RuleMarshal.Host.Fault
/-!
Host programs as data. A literal is an expression for a host value; a step calls an operation of
an environment or of something that a variable holds; the body of a host function raises, runs
steps and answers. Literals, steps and functions contain each other.
-/

set_option autoImplicit false
set_option relaxedAutoImplicit false

namespace RuleMarshal

/-- A parameter of a host function. -/
structure Parameter where
  name : String
  hint : Option Hint
  kind : ParameterKind
  hasDefault : Bool

/-- Values of types that no conversion knows; a bare one is of the root of all classes. -/
inductive StrangerKind where
  | bytes | set | complex | object | bare
  deriving DecidableEq, Repr

mutual

/-- An expression for a host value. -/
inductive Literal where
  | none
  | bool (b : Bool)
  | int (width : IntType) (n : Int)
  | float (x : Binary64)
  | text (s : String)
  | symbol (s : String)
  | instanceName (s : String)
  | list (items : List Literal)
  | tuple (items : List Literal)
  | mapping (entries : List (Literal × Literal))
  | engine (value : EngineLiteral)
  | object (struct : String) (label : Option String) (fields : List (String × Literal))
  | again (label : String)
  | hint (h : Hint)
  | exception (kind : ExceptionClass) (text : String)
  | external (label : String)
  | stranger (kind : StrangerKind)
  | instanceHandle (name : String)
  | factHandle (index : Int)
  | var (name : String) (item : Option Int)
  | function (f : FunctionLiteral)
  /-- An expression that fails when it is read. -/
  | fault (f : HostFault)

/-- An expression for an engine value. What an integer is given as is checked when it is read. -/
inductive EngineLiteral where
  | integer (content : Literal)
  | float (x : Binary64)
  | string (text : String)
  | symbol (text : String)
  | instanceName (text : String)
  | multifield (items : List EngineLiteral)
  | instanceAddress (name : String)
  | factAddress (index : Int)
  | externalAddress (label : String)
  | bare

/-- What a function answers after its steps. -/
inductive Answer where
  | argument (i : Int)
  | arguments
  | count
  | value (v : Literal)

/-- A call of an operation by its word, on the environment or on what a variable holds. -/
inductive Step where
  | mk (word : String) (args : List Literal) (keywords : List (String × Literal))
    (receiver : Option (String × Option Int)) (store : Option String)

/-- What a function does when it is called. -/
inductive Body where
  | mk (raises : Option (ExceptionClass × String)) (steps : List Step) (swallow : Bool)
    (answer : Answer)

/-- A host function. -/
inductive FunctionLiteral where
  | mk (name : Option String) (params : List Parameter) (returns : Option Hint)
    (inspectable : Bool) (body : Body)

end

instance : Inhabited Literal := ⟨.none⟩
instance : Inhabited EngineLiteral := ⟨.bare⟩

namespace Literal

/-- The name of the type of a literal whose value can be changed. -/
def changeable? : Literal → Option String
  | .list _ => some "list"
  | .mapping _ => some "dict"
  | .stranger .set => some "set"
  | _ => Option.none

mutual

/-- Whether a copy of a literal's value is the value itself, as nothing in it can be changed. -/
def isFixed : Literal → Bool
  | .none | .bool _ | .int .unsized _ | .float _ | .text _ | .hint _ | .function _ => true
  | .stranger .bytes | .stranger .complex => true
  | .tuple items => eachFixed items
  | _ => false

/-- Whether copies of the values of literals are the values themselves. -/
def eachFixed : List Literal → Bool
  | [] => true
  | l :: rest => l.isFixed && eachFixed rest

end

end Literal

namespace FunctionLiteral

/-- The name of a function, if it has one. -/
def name : FunctionLiteral → Option String
  | .mk name .. => name

/-- The parameters of a function in order. -/
def params : FunctionLiteral → List Parameter
  | .mk _ params .. => params

/-- The declared return type. -/
def returns : FunctionLiteral → Option Hint
  | .mk _ _ returns .. => returns

/-- Whether the parameters of a function can be looked at. -/
def inspectable : FunctionLiteral → Bool
  | .mk _ _ _ inspectable _ => inspectable

/-- What a function does. -/
def body : FunctionLiteral → Body
  | .mk _ _ _ _ body => body

end FunctionLiteral

end RuleMarshal
