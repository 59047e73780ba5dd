import ScriptCheck.Analysis.Member
import ScriptCheck.Ty.Matching

/-!
# Calls

A call of a named function first analyses the arguments, each with the type of its parameter as a hint unless that type is
still open, then finds the open type arguments by matching, and then checks the arguments against the finished signature.
A call of a value needs a function type. The arguments of a call that goes nowhere are analysed for their own sake.
-/

namespace ScriptCheck

/-- What is called. -/
inductive Callable where
  /-- A named function, and the node of the object it is called on. -/
  | func (func : FuncRef) (object : Option Nat)
  | value (ty : Ty)
  /-- Nothing, and the reason has been reported. -/
  | unresolved

/-- An argument that has been analysed. -/
structure Argument where
  ty : Ty
  node : Node

/-- The arguments at these nodes, with the types found for them. -/
def Argument.zip (nodes : List Node) (types : List Ty) : List Argument := nodes.zipWith (fun n t => ⟨t, n⟩) types

/-- The function with its open type parameters replaced by what the arguments show them to be. -/
def FuncRef.inferFrom (f : FuncRef) (params args : List Ty) : Except Fault FuncRef :=
  let env := Ty.unifyList f.id params args .empty
  FuncRef.make f.id (Levels.withOwn f.levels ((Levels.own f.levels).map (·.substitute env)))

/-- What the parameters hint at for the arguments: a type that mentions the function's own parameters is no hint. -/
def FuncRef.hints (f : FuncRef) (params : List Ty) : List (Option Ty) :=
  params.map fun p => if p.mentions f.id then none else some p

namespace Check

/-- Checks each argument against its parameter and says whether all fit. -/
def checkEach (ctx : Context) : List Ty → List Argument → Check Bool
  | p :: ps, a :: as => do
    let fits ← checkAssignable ctx p a.ty a.node
    let rest ← checkEach ctx ps as
    return fits && rest
  | _, _ => return true

/-- Checks the number of arguments, and then each against its parameter. -/
def checkArgs (ctx : Context) (node : Node) (params : List Ty) (args : List Argument) : Check Bool := do
  if params.length = args.length then
    checkEach ctx params args
  else
    report (.wrongArgumentCount params.length args.length) node
    return false

/-- The function with its open type arguments found, or nothing where one stays open. That is reported unless an argument
is at fault already. -/
def inferTypeArgs (node : Node) (f : FuncRef) (params : List Ty) (args : List Argument) :
    Check (Option FuncRef) := do
  match f.openParam? with
  | none => return some f
  | some _ =>
    let inferred ← f.inferFrom params (args.map (·.ty))
    match inferred.openParam? with
    | none => return some inferred
    | some param =>
      if !args.any (·.ty.isUnresolved) then
        report (.cannotInferTypeArgs f param) node
      return none

/-- A call of a named function. -/
def callFunc (ctx : Context) (node callee : Node) (f : FuncRef) (object : Option Nat) (argNodes : List Node)
    (analyse : List (Option Ty) → Check (List Ty)) : Check Ty := do
  let written ← ctx.registry.funcType f
  let args := Argument.zip argNodes (← analyse (f.hints written.params))
  match ← inferTypeArgs node f written.params args with
  | none =>
    noteType callee .unresolved
    return .unresolved
  | some f =>
    let signature ← ctx.registry.funcType f
    let _ ← checkArgs ctx node signature.params args
    noteType callee signature.ty
    noteInfo callee (.func f)
    noteInfo node (.call f object)
    return signature.ret

/-- A call of a value of type `ty`. -/
def callValue (ctx : Context) (node : Node) (ty : Ty) (argNodes : List Node)
    (analyse : List (Option Ty) → Check (List Ty)) : Check Ty := do
  match ty with
  | .unresolved =>
    let _ ← analyse []
    return .unresolved
  | .func ret params =>
    let args := Argument.zip argNodes (← analyse (params.map some))
    let _ ← checkArgs ctx node params args
    noteInfo node .callValue
    return ret
  | _ =>
    report (.notCallable ty) node
    let _ ← analyse []
    return .unresolved

/-- What an identifier calls; a function may be named with fewer type arguments than it takes. -/
def identifierCallable (ctx : Context) (node : Node) (name : String) (typeArgs : List TypeExpr) : Check Callable := do
  let args ← typeExprs ctx typeArgs
  match ← lookup ctx name args true with
  | .func f => return .func f none
  | meaning =>
    let ty ← typed node (identifierValue ctx node name meaning)
    return .value ty

/-- What a member calls. -/
def memberCallable (node : Node) (use : Check MemberUse) : Check Callable := do
  match ← use with
  | .func f object => return .func f object
  | .storage storage ty =>
    noteInfo node (.storage storage)
    noteType node ty
    return .value ty
  | .unresolved =>
    noteType node .unresolved
    return .unresolved

/-- A call, given how what is called and the arguments are analysed. The arguments get hints. -/
def call (ctx : Context) (node callee : Node) (callable : Check Callable) (argNodes : List Node)
    (analyse : List (Option Ty) → Check (List Ty)) : Check Ty := do
  match ← callable with
  | .func f object => callFunc ctx node callee f object argNodes analyse
  | .value ty => callValue ctx node ty argNodes analyse
  | .unresolved =>
    let _ ← analyse []
    return .unresolved

/-- An element that is read, given how the object and the index are analysed. -/
def elementValue (ctx : Context) (node indexNode : Node) (object index : Check Ty) : Check Ty := do
  let objectTy ← object
  let indexTy ← index
  match ← indexerOf ctx node objectTy with
  | none => return .unresolved
  | some (none, _) => reject (.writeOnlyIndexer objectTy) node
  | some (some getter, _) =>
    let signature ← ctx.registry.funcType getter
    let _ ← checkArgs ctx node signature.params [⟨indexTy, indexNode⟩]
    noteInfo node (.indexer getter)
    return signature.ret

end Check

end ScriptCheck
