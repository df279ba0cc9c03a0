/-!
# Registries

Things kept by name, in the order in which they were registered.  A name is taken once.
-/

namespace CodeIndex.Tool

variable {α : Type}

structure Registry (α : Type) where
  entries : List (String × α) := []

namespace Registry

def get? (r : Registry α) (name : String) : Option α :=
  r.entries.lookup name

/-- Registers a thing; a name that is taken is refused with a message. -/
def register (r : Registry α) (name : String) (thing : α) : Except String (Registry α) :=
  if (r.get? name).isSome then .error ("Tool already registered: " ++ name)
  else .ok { entries := r.entries ++ [(name, thing)] }

/-- The things in the order in which they were registered. -/
def all (r : Registry α) : List (String × α) :=
  r.entries

def names (r : Registry α) : List String :=
  (r.entries.map (·.1)).mergeSort fun a b => a ≤ b

end Registry

end CodeIndex.Tool
