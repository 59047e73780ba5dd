import ScriptCheck.Analysis.Call
import ScriptCheck.Analysis.Operator

/-!
# Assignments and steps

What is assigned to is a place, or an element that a pair of functions reads and writes. A value is checked against the
type that the place is declared with, not the one it has been narrowed to, and an assignment drops the narrowing. `++` and
`--` need a member of the target's type that takes nothing and returns what can be stored back.
-/

namespace ScriptCheck

/-- The type of what can be stored: that of a place, or the last parameter of the function that writes an element. -/
def Registry.storedType (reg : Registry) : Target → Except Fault Ty
  | .direct _ ty => .ok ty
  | .callBased _ _ _ setter _ _ => return (← reg.funcType setter).params.getLastD .unresolved

/-- The number of parameters and the result of a step operator. Where no level has arguments the record says it as it
stands. -/
def Registry.operatorSignature (reg : Registry) (operator : FuncRef) : Except Fault (Nat × Ty) := do
  let record ← reg.funcRecord operator.id
  if operator.nonGeneric && !record.isSequence then
    return (record.params.length, record.ret)
  else
    let signature ← reg.funcType operator
    return (signature.params.length, signature.ret)

/-- Whether a step operator that returns `ret` can step the target, whose type is `ty`. -/
def Registry.stepFits (reg : Registry) (target : Target) (ty ret : Ty) : Except Fault Bool := do
  match target with
  | .direct _ _ => return ret = ty
  | .callBased _ _ getter setter _ _ =>
    let stored := (← reg.funcType setter).params.getLast?
    let read := (← reg.funcType getter).ret
    return stored = some ret && read = ty

namespace Check

/-- Drops what is known about a place that has been written. -/
def written (target : Target) : Check Unit :=
  match target with
  | .direct storage _ => modifyFrame (·.widen storage)
  | .callBased .. => return

/-- Reports something that cannot be assigned to. -/
def notAssignable (node : Node) : Check (Option Target) := do
  report .notAssignable node
  return none

/-- An identifier that is assigned to. -/
def identifierTarget (ctx : Context) (node : Node) (name : String) (typeArgs : List TypeExpr) :
    Check (Option Target) := do
  let args ← typeExprs ctx typeArgs
  match ← lookup ctx name args false with
  | .var storage ty declared =>
    noteInfo node (.storage storage)
    noteType node ty
    return some (.direct storage declared)
  | .func _ | .type _ =>
    noteType node .unresolved
    notAssignable node
  | meaning =>
    let _ ← typed node (identifierValue ctx node name meaning)
    return none

/-- A member that is assigned to. -/
def memberTarget (node : Node) (use : Check MemberUse) : Check (Option Target) := do
  match ← use with
  | .storage storage ty =>
    if storage.writable then
      noteInfo node (.storage storage)
      noteType node ty
      return some (.direct storage ty)
    else
      noteType node .unresolved
      notAssignable node
  | .func _ _ =>
    noteType node .unresolved
    notAssignable node
  | .unresolved =>
    noteType node .unresolved
    return none

/-- An element that is assigned to: it is read by `getter` and written by `setter`, which takes one parameter more. -/
def accessorTarget (ctx : Context) (node objectNode indexNode : Node) (objectTy indexTy : Ty)
    (getter setter : FuncRef) : Check (Option Target) := do
  let reads ← ctx.registry.funcType getter
  let writes ← ctx.registry.funcType setter
  if !(← checkArgs ctx node reads.params [⟨indexTy, indexNode⟩]) then
    return none
  else if writes.params.length ≠ reads.params.length + 1 then
    report (.operatorSignatureMismatch objectTy .indexerSet (.parameters (reads.params.length + 1))) node
    return none
  else
    noteType node reads.ret
    return some (.callBased objectNode.id objectTy getter setter [indexNode.id] reads.ret)

/-- An element that is assigned to, given how the object and the index are analysed. -/
def elementTarget (ctx : Context) (node objectNode indexNode : Node) (object index : Check Ty) :
    Check (Option Target) := do
  let objectTy ← object
  let indexTy ← index
  noteType node .unresolved
  match ← indexerOf ctx node objectTy with
  | none => return none
  | some (some getter, some setter) => accessorTarget ctx node objectNode indexNode objectTy indexTy getter setter
  | some (some _, none) =>
    report (.readOnlyIndexer objectTy) node
    return none
  | some (none, _) =>
    report (.writeOnlyIndexer objectTy) node
    return none

/-- An assignment, given how its target and its value are analysed. The value gets a hint. -/
def assign (ctx : Context) (node valueNode : Node) (target : Check (Option Target)) (value : Option Ty → Check Ty) :
    Check Ty := do
  match ← target with
  | none =>
    let _ ← value none
    return .unresolved
  | some target =>
    let expected ← ctx.registry.storedType target
    let found ← value (some expected)
    let _ ← checkAssignable ctx expected found valueNode
    written target
    noteInfo node (.assign target)
    return target.ty

/-- `++` or `--` on a target that has been found. -/
def stepTarget (ctx : Context) (node : Node) (op : StepOp) (before : Bool) (target : Target) : Check Ty := do
  let ty := target.ty
  if ty.isUnresolved then
    return .unresolved
  else
    match ← ctx.method? ty op.member with
    | none => reject (.operatorNotFound ty op.member) node
    | some operator =>
      let (count, ret) ← ctx.registry.operatorSignature operator
      if count ≠ 0 then
        reject (.operatorSignatureMismatch ty op.member .noParameters) node
      else if ← ctx.registry.stepFits target ty ret then
        written target
        noteInfo node (.step target operator before)
        return ty
      else
        reject (.operatorSignatureMismatch ty op.member (.returns ret)) node

/-- `++` or `--`, given how its target is analysed. -/
def step (ctx : Context) (node : Node) (op : StepOp) (before : Bool) (target : Check (Option Target)) : Check Ty := do
  match ← target with
  | none => return .unresolved
  | some target => stepTarget ctx node op before target

/-- A unary operator, given how its operand is analysed as a target and as a value. -/
def unary (ctx : Context) (node : Node) (op : UnaryOp) (target : Check (Option Target)) (operand : Check Ty) :
    Check Ty :=
  match op with
  | .step op before => step ctx node op before target
  | op => plainUnary node op operand

end Check

end ScriptCheck
