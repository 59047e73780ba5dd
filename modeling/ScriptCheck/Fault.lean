import ScriptCheck.ItemId

/-!
# Broken promises

A fault is not a mistake in a script: it says that a value was put together against the rules of this library, such as a
type with the wrong number of arguments. A fault ends the work at hand, while a mistake in a script is a diagnostic and the
analysis goes on.
-/

namespace ScriptCheck

/-- The promises that can be broken, with what is needed to say which. -/
inductive Fault where
  /-- The argument levels given to a declaration are not those that its id asks for. -/
  | arity (id : ItemId)
  /-- Argument levels were asked for at a module's root, which has none. -/
  | rootArguments
  /-- A record names `declared` type parameters where its id says `expected`. -/
  | parameterCount (id : ItemId) (declared expected : Nat)
  /-- A record was added to a module that its id does not belong to. -/
  | foreignRecord (id : ItemId) (moduleName : String)
  /-- A variable is referred to that no module declares. -/
  | unknownVariable (id : ItemId)
  /-- A function is referred to that no module declares. -/
  | unknownFunction (id : ItemId)
  /-- A slot, a type parameter, a candidate or an expected type was asked for at a position that is not there. -/
  | outOfRange
  /-- An analysis without diagnostics left a body without a definite element type. -/
  | unresolvedTemplate
  /-- An analysis without diagnostics left a node without a definite type. -/
  | unresolvedType
  deriving DecidableEq, Repr

/-- What a fault says, after the words that all of them start with. -/
def Fault.detail : Fault → String
  | arity id => "type arguments do not match the arity of " ++ id.display
  | rootArguments => "type arguments for a module root"
  | parameterCount id declared expected =>
    id.display ++ " declares " ++ toString declared ++ " type parameters but its id says " ++ toString expected
  | foreignRecord id moduleName => id.display ++ " added to metadata of module " ++ moduleName
  | unknownVariable id => "no metadata for variable " ++ id.display
  | unknownFunction id => "no metadata for function " ++ id.display
  | outOfRange => "a position out of range"
  | unresolvedTemplate => "unresolved type reached a template"
  | unresolvedType => "unresolved type in an error-free analysis"

/-- The text of a fault. -/
def Fault.message (f : Fault) : String := "INTERNAL ERROR: " ++ f.detail

/-- What stands at a position that has to be there. -/
def Fault.require {α : Type} : Option α → Except Fault α
  | some a => .ok a
  | none => .error .outOfRange

/-- A value is there just where requiring it gives it. -/
@[simp] theorem Fault.require_eq_ok {α : Type} {x : Option α} {a : α} : Fault.require x = .ok a ↔ x = some a := by
  cases x <;> simp [Fault.require]

end ScriptCheck
