import CodeIndex.Value.Basic

/-!
# Log events

What is logged is an event: a name, a level and values.
-/

namespace CodeIndex.Log

inductive Level where
  | debug
  | info
  | warning
  | error
  | critical
  deriving Repr, DecidableEq

def Level.label : Level → String
  | .debug => "debug"
  | .info => "info"
  | .warning => "warning"
  | .error => "error"
  | .critical => "critical"

def Level.all : List Level :=
  [.debug, .info, .warning, .error, .critical]

def Level.ofLabel? (s : String) : Option Level :=
  all.find? (·.label == s)

def Level.number : Level → Nat
  | .debug => 10
  | .info => 20
  | .warning => 30
  | .error => 40
  | .critical => 50

structure Event where
  level : Level
  name : String
  members : Value.Members := []

/-- The members of an event with its name and level, which take the place of values of theirs. -/
def Event.toMembers (e : Event) : Value.Members :=
  Value.Members.set (Value.Members.set e.members "event" (.text e.name)) "level" (.text e.level.label)

/-- Names that no value of an event can have, whether or not events of its level are written. -/
def ownNames : List String :=
  ["self", "event"]

/-- Names that no value of a written event can have. -/
def reservedNames : List String :=
  ownNames ++ ["method_name"]

def Event.toValue (e : Event) : Value :=
  .map e.toMembers

end CodeIndex.Log
