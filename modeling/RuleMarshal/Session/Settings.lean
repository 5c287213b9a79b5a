import RuleMarshal.Host.Read
/-!
Settings as a host program supplies them: by name, as literals. A list is handed over as a tuple,
and a name that no setting has is refused.
-/

set_option autoImplicit false
set_option relaxedAutoImplicit false

namespace RuleMarshal

open MonadExcept (ofExcept)

/-- Another value for the setting of a name. -/
def Supplied.supply (s : Supplied) (name : String) (v : Value) : Except Error Supplied :=
  let v := match v with
    | .list items => .tuple items
    | v => v
  match name with
  | "binding_tag" => .ok { s with bindingTag := v }
  | "serialization_tag" => .ok { s with serializationTag := v }
  | "superclass" => .ok { s with superclass := v }
  | "pattern_match" => .ok { s with patternMatch := v }
  | "auto_synthesize" => .ok { s with autoSynthesize := v }
  | "load_paths" => .ok { s with loadPaths := v }
  | _ => .error (.host (.typing ("unexpected keyword argument '" ++ name ++ "'")))

/-- The settings that literals supply. -/
def Config.read (fields : List (String × Literal)) : Act Config := do
  let values ← fields.mapM fun p ↦ do
    let v ← p.2.read
    return (p.1, (← get).heap.content v)
  let supplied ← ofExcept (values.foldlM (fun s p ↦ Supplied.supply s p.1 p.2) {})
  ofExcept (Config.check (← MonadReader.read).types (← get).heap supplied)

end RuleMarshal
