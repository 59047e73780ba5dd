import ScriptCheck.Analysis.Identifier

/-!
# Operators on the built-in types

Arithmetic and order are for `int`, `+` also joins strings, `&&`, `||` and `!` are for `bool`. Two values can be compared
for equality when one of them could stand where the other is expected. An operator that gives a `bool` gives one also when
an operand is wrong, so that a single mistake is reported once.
-/

namespace ScriptCheck

/-- Whether an operator takes these operands, and what it gives. -/
def BinaryOp.rule (ctx : Context) (op : BinaryOp) (left right : Ty) : Bool × Ty :=
  let both (ty : Ty) : Bool := left = ty && right = ty
  match op with
  | .add => if both Builtin.string then (true, Builtin.string) else (both Builtin.int, Builtin.int)
  | .sub | .mul | .div | .rem => (both Builtin.int, Builtin.int)
  | .lt | .gt | .le | .ge => (both Builtin.int, Builtin.bool)
  | .and | .or => (both Builtin.bool, Builtin.bool)
  | .eq | .ne => (ctx.assignable left right || ctx.assignable right left, Builtin.bool)

/-- The type that `-` and `!` take and give. -/
def UnaryOp.operandType : UnaryOp → Ty
  | .not => Builtin.bool
  | _ => Builtin.int

namespace Check

/-- A binary operator, given how its operands are analysed. -/
def binary (ctx : Context) (node : Node) (op : BinaryOp) (left right : Check Ty) : Check Ty := do
  let left ← left
  let right ← right
  let (valid, result) := op.rule ctx left right
  if left.isUnresolved || right.isUnresolved then
    return if result = Builtin.bool then result else .unresolved
  else if valid then
    return result
  else
    report (.invalidOperand op.symbol [left, right]) node
    return result

/-- `-` or `!`, given how its operand is analysed. -/
def plainUnary (node : Node) (op : UnaryOp) (operand : Check Ty) : Check Ty := do
  let ty ← operand
  if !ty.isUnresolved && ty ≠ op.operandType then
    report (.invalidOperand op.symbol [ty]) node
  return op.operandType

/-- A test for a type, given how the tested value is analysed. Only a declared type can be tested for. -/
def isTest (ctx : Context) (node : Node) (value : Check Ty) (ty : TypeExpr) : Check Ty := do
  let _ ← value
  let tested ← typeExpr ctx ty
  match tested with
  | .nominal _ _ => noteInfo node (.isTest tested)
  | .unresolved => pure ()
  | _ => report (.invalidTypeTest tested) ty.node
  return Builtin.bool

end Check

end ScriptCheck
