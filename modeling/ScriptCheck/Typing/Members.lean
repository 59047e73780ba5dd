import ScriptCheck.Declaration.Builtin
import ScriptCheck.Typing.Bases

/-!
# Types of variables and functions, and members by name

A member is looked for on the receiver's type and then up its bases; the first type that declares any function of the name
decides, and no base further up is asked. Among functions of one name the number of type arguments chooses: an exact
match, or else the only function with room for more, whose open type parameters then stand for themselves.
-/

namespace ScriptCheck

/-- Why a member look-up has no answer. -/
inductive LookupError where
  | notFound
  | ambiguous (count : Nat)
  | typeArgCount (expected found : Nat)
  deriving DecidableEq, Repr

/-- The function's own type parameters from position `given` on, standing for themselves; there have to be so many. -/
def FuncRecord.openParams (r : FuncRecord) (given : Nat) : Except Fault (List Ty) :=
  if given ≤ r.typeParams.length then .ok ((r.typeParams.drop given).map fun name => .param ⟨r.id, name⟩)
  else .error .outOfRange

/-- The signature in the declaration's own parameters; a sequence function gives a sequence of what it yields. -/
def FuncRecord.signature (r : FuncRecord) : Signature :=
  ⟨if r.isSequence then Builtin.seq r.ret else r.ret, r.params.map (·.ty)⟩

/-- The function that `count` type arguments choose: one that takes exactly so many, or else the only one that takes
more. Where there is none, the first candidate says how many were expected. -/
def pickByArity (candidates : List FuncRecord) (count : Nat) : Except Fault (Except LookupError FuncRecord) :=
  match candidates.filter fun r => r.typeParams.length = count with
  | [only] => .ok (.ok only)
  | [] =>
    match candidates.filter fun r => count < r.typeParams.length with
    | [only] => .ok (.ok only)
    | [] => return .error (.typeArgCount (← Fault.require candidates.head?).typeParams.length count)
    | many => .ok (.error (.ambiguous many.length))
  | many => .ok (.error (.ambiguous many.length))

namespace Registry

/-- The record of a function that some module declares. -/
def funcRecord (reg : Registry) (id : ItemId) : Except Fault FuncRecord :=
  match reg.func? id with
  | some r => .ok r
  | none => .error (.unknownFunction id)

/-- The signature of a function with all its arguments in place. -/
def funcType (reg : Registry) (f : FuncRef) : Except Fault Signature := do
  let record ← reg.funcRecord f.id
  return reg.applyFunc f record.signature

/-- The type of a variable with the arguments of the types around it in place. -/
def varType (reg : Registry) (v : VarRef) : Except Fault Ty :=
  match reg.var? v.id with
  | some r => .ok (reg.applyIn v.id v.levels r.ty)
  | none => .error (.unknownVariable v.id)

/-- Goes on to the base of a declared type, which its arguments must fit. -/
def passOver {α : Type} (id : ItemId) (levels : Levels) : Option (Except Fault α) :=
  if levels.fits id then none else some (.error (.arity id))

/-- The function that type arguments choose among those that a type with these levels declares under one name. -/
def choose (levels : Levels) (candidates : List FuncRecord) (explicit : List Ty) :
    Except Fault (Except LookupError FuncRef) := do
  match ← pickByArity candidates explicit.length with
  | .error e => return .error e
  | .ok r => return .ok (← FuncRef.make r.id (Levels.nest levels (explicit ++ (← r.openParams explicit.length))))

/-- What a type itself says about a member function of this name: nothing where it declares none. -/
def ownFunc (reg : Registry) (name : Name) (explicit : List Ty) :
    Ty → Option (Except Fault (Except LookupError FuncRef))
  | .nominal id levels =>
    match reg.memberFuncs id name with
    | [] => passOver id levels
    | candidates => some (choose levels candidates explicit)
  | _ => none

/-- The member function of this name on the receiver's type or the nearest base that declares one. Type arguments that are
not given are left open. -/
def memberFunc [Patience] (reg : Registry) (receiver : Ty) (name : Name) (explicit : List Ty) :
    Except Fault (Except LookupError FuncRef) :=
  (reg.climb (reg.ownFunc name explicit) receiver).getD (.ok (.error .notFound))

/-- What a type itself says about a member variable of this name: nothing where it declares none. -/
def ownVar (reg : Registry) (name : Name) : Ty → Option (Except Fault (Except LookupError VarRef))
  | .nominal id levels =>
    match reg.var? (id.child name 0) with
    | none => passOver id levels
    | some _ => some ((VarRef.make (id.child name 0) (Levels.nest levels [])).map .ok)
  | _ => none

/-- The member variable of this name on the receiver's type or the nearest base that declares it. A variable takes no type
arguments. -/
def memberVar [Patience] (reg : Registry) (receiver : Ty) (name : Name) (explicit : List Ty) :
    Except Fault (Except LookupError VarRef) :=
  if explicit.isEmpty then (reg.climb (reg.ownVar name) receiver).getD (.ok (.error .notFound))
  else .ok (.error (.typeArgCount 0 explicit.length))

end Registry

end ScriptCheck
