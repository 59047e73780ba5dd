import ScriptCheck.Ty.Basic

/-!
# Records of declarations

What a module says about each of its declarations. A record lists the type parameters that its declaration itself
introduces, not those of the declarations around it, and its types are written in terms of all of them. The number of
names agrees with the arity in the id: `TypeRecord.check` and its companions refuse a record where it does not.
-/

namespace ScriptCheck

/-- The kinds of declared types. -/
inductive TypeKind where
  | primitive
  | classType
  | structType
  | enumType
  deriving DecidableEq, Repr

/-- Whether other types can be derived from a type of this kind. -/
def TypeKind.derivable : TypeKind → Bool
  | classType => true
  | structType => true
  | _ => false

/-- A declared type. -/
structure TypeRecord where
  id : ItemId
  kind : TypeKind
  typeParams : List Name
  base : Option Ty
  cases : List Name
  deriving DecidableEq, Repr

/-- A parameter of a declared function. -/
structure ParamRecord where
  name : Name
  ty : Ty
  deriving DecidableEq, Repr

/-- A declared function; for a sequence function `ret` is the type of one element. -/
structure FuncRecord where
  id : ItemId
  typeParams : List Name
  params : List ParamRecord
  ret : Ty
  isSequence : Bool
  isStatic : Bool
  deriving DecidableEq, Repr

/-- A declared variable. -/
structure VarRecord where
  id : ItemId
  ty : Ty
  isStatic : Bool
  deriving DecidableEq, Repr

/-- Refuses a number of type parameters that differs from the arity in the id. -/
def checkParameterCount (id : ItemId) (count : Nat) : Except Fault Unit :=
  if id.arity = count then .ok () else .error (.parameterCount id count id.arity)

/-- The record itself, refused where it names more or fewer type parameters than its id says. -/
def TypeRecord.check (r : TypeRecord) : Except Fault TypeRecord := do
  checkParameterCount r.id r.typeParams.length
  return r

/-- The record itself, refused where it names more or fewer type parameters than its id says. -/
def FuncRecord.check (r : FuncRecord) : Except Fault FuncRecord := do
  checkParameterCount r.id r.typeParams.length
  return r

/-- The record itself, refused where its id says that it takes type parameters. -/
def VarRecord.check (r : VarRecord) : Except Fault VarRecord := do
  checkParameterCount r.id 0
  return r

end ScriptCheck
