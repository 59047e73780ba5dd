import ScriptCheck.Analysis.Identifier

/-!
# Members and elements

A member is reached through a value or through the name of a type, and which of the two decides whether it has to be
static. Variables come before functions of the same name. An element of an object is read and written by the functions that
the object's type declares as its indexer.
-/

namespace ScriptCheck

/-- What stands before the dot. -/
inductive Receiver where
  | type (ty : Ty)
  | value (ty : Ty)

/-- What a member access reaches. -/
inductive MemberUse where
  | storage (storage : Storage) (ty : Ty)
  /-- A function, and the node of the object it is called on. -/
  | func (func : FuncRef) (object : Option Nat)
  /-- Nothing, and the reason has been reported. -/
  | unresolved

/-- A member of either sort. -/
inductive MemberRef where
  | var (var : VarRef)
  | func (func : FuncRef)

/-- How a failed look-up is put to the writer of the script. -/
def LookupError.problem (ty : Ty) (member : Name) : LookupError → Problem
  | .notFound => .unknownMember ty member
  | .ambiguous count => .ambiguousMember ty member count
  | .typeArgCount expected found => .memberTypeArgs member expected found

namespace Registry

/-- The member of this name: a variable, or else a function. A variable takes no type arguments. -/
def member [Patience] (reg : Registry) (receiver : Ty) (name : Name) (args : List Ty) :
    Except Fault (Except LookupError MemberRef) := do
  match ← reg.memberVar receiver name [] with
  | .ok var => return if args.isEmpty then .ok (.var var) else .error (.typeArgCount 0 args.length)
  | .error _ => return (← reg.memberFunc receiver name args).map .func

/-- Whether a member belongs to its type and not to each value of it. -/
def isStatic (reg : Registry) : MemberRef → Except Fault Bool
  | .var var => .ok ((reg.var? var.id).any (·.isStatic))
  | .func func => return (← reg.funcRecord func.id).isStatic

/-- Whether the member is a case of the enum that the receiver is. -/
def isEnumCase (reg : Registry) (id : ItemId) (name : Name) : Bool :=
  (reg.type? id).any fun r => r.kind = .enumType && r.cases.contains name

/-- The member function of this name, where there is exactly one to choose. -/
def method? [Patience] (reg : Registry) (receiver : Ty) (name : Name) : Except Fault (Option FuncRef) :=
  return (← reg.memberFunc receiver name []).toOption

end Registry

namespace Context

/-- The member of this name, as it is looked for here. -/
def member (ctx : Context) (receiver : Ty) (name : Name) (args : List Ty) : Except Fault (Except LookupError MemberRef) :=
  letI := ctx.patience
  ctx.registry.member receiver name args

/-- The only member function of this name, as it is looked for here. -/
def method? (ctx : Context) (receiver : Ty) (name : Name) : Except Fault (Option FuncRef) :=
  letI := ctx.patience
  ctx.registry.method? receiver name

end Context

namespace Check

/-- What stands before the dot: an identifier that names a type, or a value. -/
def receiver (ctx : Context) (object : Expr) (asValue : Check Ty) : Check Receiver :=
  match object with
  | .identifier node name typeArgs => do
    let args ← typeExprs ctx typeArgs
    match ← lookup ctx name args false with
    | .type ty =>
      noteInfo node (.type ty)
      return .type ty
    | meaning =>
      let ty ← typed node (identifierValue ctx node name meaning)
      return .value ty
  | _ => return .value (← valued object.node asValue)

/-- A member that was found on the receiver `ty`; `object` is the node of the value it is reached through. -/
def useMember (ctx : Context) (node : Node) (object : Option Nat) (ty : Ty) (name : Name) (found : MemberRef) :
    Check MemberUse := do
  let isStatic ← ctx.registry.isStatic found
  if isStatic = object.isSome then
    report (.staticInstanceMismatch name isStatic) node
    return .unresolved
  else
    match found with
    | .var var =>
      let varTy ← ctx.registry.varType var
      match object with
      | some object => return .storage (.instanceMember object ty name) varTy
      | none => return .storage (.staticMember none var) varTy
    | .func func => return .func func object

/-- The member of this name on a receiver of type `ty`. -/
def memberOf (ctx : Context) (node : Node) (object : Option Nat) (ty : Ty) (name : Name) (args : List Ty) :
    Check MemberUse := do
  match ty with
  | .unresolved => return .unresolved
  | .nominal id _ =>
    if object.isNone && args.isEmpty && ctx.registry.isEnumCase id name then
      return .storage (.enumCase name) ty
    else
      match ← ctx.member ty name args with
      | .ok found => useMember ctx node object ty name found
      | .error e =>
        report (e.problem ty name) node
        return .unresolved
  | _ =>
    report (.unknownMember ty name) node
    return .unresolved

/-- A member access, given how what stands before the dot is analysed. -/
def memberUse (ctx : Context) (node object : Node) (receiver : Check Receiver) (name : String)
    (typeArgs : List TypeExpr) : Check MemberUse := do
  let receiver ← receiver
  let args ← typeExprs ctx typeArgs
  match receiver with
  | .type ty => memberOf ctx node none ty (.text name) args
  | .value ty => memberOf ctx node (some object.id) ty (.text name) args

/-- A member that is read. -/
def memberValue (ctx : Context) (node : Node) (use : Check MemberUse) : Check Ty := do
  match ← use with
  | .storage storage ty =>
    noteInfo node (.storage storage)
    return ty
  | .func func _ => funcValue ctx node func
  | .unresolved => return .unresolved

/-- The functions that read and write elements of an object of type `ty`. There is no answer where the type is not known or
where it has neither. -/
def indexerOf (ctx : Context) (node : Node) (ty : Ty) : Check (Option (Option FuncRef × Option FuncRef)) := do
  match ty with
  | .unresolved => return none
  | .nominal _ _ =>
    match ← ctx.method? ty .indexerGet, ← ctx.method? ty .indexerSet with
    | none, none =>
      report (.indexerNotFound ty) node
      return none
    | getter, setter => return some (getter, setter)
  | _ =>
    report (.indexerNotFound ty) node
    return none

end Check

end ScriptCheck
