import ScriptCheck.Analysis.Check

/-!
# What a written type means

A plain name is looked for among the type parameters of the declarations around it, innermost first, then among the types
nested in them, and then among the top-level types of all modules. A type nested in an enclosing declaration is taken with
that declaration's own parameters as arguments. Only the skeleton is asked about the script's own types, so a written type
means the same before and after the script's records are made.
-/

namespace ScriptCheck

namespace Context

/-- Whether a type of this id is declared. -/
def typeExists (ctx : Context) (id : ItemId) : Bool :=
  ctx.skeleton.types.contains id || (ctx.registry.type? id).isSome

/-- The kind of a declared type. -/
def typeKind? (ctx : Context) (id : ItemId) : Option TypeKind :=
  match ctx.skeleton.types.find? id with
  | some t => some t.kind
  | none => (ctx.registry.type? id).map (·.kind)

/-- The type parameters that a declaration introduces. -/
def typeParamsOf (ctx : Context) (id : ItemId) : List Name :=
  match ctx.skeleton.types.find? id with
  | some t => t.typeParams
  | none => (ctx.registry.typeParams? id).getD []

/-- The arguments with which a declaration is seen from inside: its own parameters on each level. -/
def selfLevels (ctx : Context) (id : ItemId) : Levels :=
  id.enclosing.map fun scope => (ctx.typeParamsOf scope).map fun name => .param ⟨scope, name⟩

/-- The top-level types of this name and arity: the script's own, then those of the other modules. -/
def globalTypeIds (ctx : Context) (name : Name) (arity : Nat) : List ItemId :=
  let own := ctx.root.child name arity
  (if ctx.skeleton.types.contains own then [own] else []) ++
    ((ctx.registry.globalTypes name arity).map (·.id)).filter fun id => id.moduleName ≠ ctx.moduleName

/-- The innermost declaration around this place that introduces a type parameter of this name. -/
def paramOwner? (ctx : Context) (name : String) : Option ItemId :=
  (ctx.enclosing.find? fun scope => scope.typeParams.contains (.text name)).map (·.id)

/-- The innermost type around this place that has a nested type of this name and arity. -/
def nestedOwner? (ctx : Context) (name : String) (arity : Nat) : Option ItemId :=
  (ctx.enclosing.find? fun scope => scope.isType && ctx.typeExists (scope.id.child (.text name) arity)).map (·.id)

/-- What a top-level name with these arguments means. -/
def globalType (ctx : Context) (name : String) (args : List Ty) : Except Fault (Except Problem Ty) :=
  match ctx.globalTypeIds (.text name) args.length with
  | [id] => (Ty.make id [args]).map .ok
  | [] => .ok (if name = "void" ∧ args = [] then .ok .void else .error (.unknownType name))
  | many => .ok (.error (.ambiguousType name many.length))

/-- What a plain name with these arguments means. -/
def namedType (ctx : Context) (name : String) (args : List Ty) : Except Fault (Except Problem Ty) :=
  match if args.isEmpty then ctx.paramOwner? name else none with
  | some owner => .ok (.ok (.param ⟨owner, .text name⟩))
  | none =>
    match ctx.nestedOwner? name args.length with
    | some outer =>
      (Ty.make (outer.child (.text name) args.length) (Levels.nest (ctx.selfLevels outer) args)).map .ok
    | none => ctx.globalType name args

/-- What a name after a dot means, given the type before the dot. -/
def memberType (ctx : Context) (parent : Ty) (name : String) (args : List Ty) : Except Fault (Except Problem Ty) :=
  let unknown := Problem.unknownType (parent.display ++ "." ++ name)
  match parent with
  | .unresolved => .ok (.ok .unresolved)
  | .nominal id levels =>
    let nested := id.child (.text name) args.length
    if ctx.typeExists nested then (Ty.make nested (Levels.nest levels args)).map .ok else .ok (.error unknown)
  | _ => .ok (.error unknown)

end Context

namespace Check

/-- The type that was found, or a report of why there is none. -/
def settle (node : Node) (found : Except Fault (Except Problem Ty)) : Check Ty := do
  match ← (found : Except Fault (Except Problem Ty)) with
  | .ok ty => return ty
  | .error problem => reject problem node

/-- Notes the type that a type expression turned out to mean. -/
def resolved (node : Node) (step : Check Ty) : Check Ty := do
  let ty ← step
  noteInfo node (.type ty)
  return ty

mutual

/-- What a written type means; `var` means nothing here. -/
def typeExpr (ctx : Context) : TypeExpr → Check Ty
  | .named node name args => resolved node do
    let args ← typeExprs ctx args
    settle node (ctx.namedType name args)
  | .member node parent name args => resolved node do
    let parent ← typeExpr ctx parent
    let args ← typeExprs ctx args
    settle node (ctx.memberType parent name args)
  | .func node ret params => resolved node do
    let ret ← typeExpr ctx ret
    let params ← typeExprs ctx params
    return .func ret params
  | .void node => resolved node (return .void)
  | .var node => resolved node (reject .invalidVarType node)

/-- What several written types mean, in order. -/
def typeExprs (ctx : Context) : List TypeExpr → Check (List Ty)
  | [] => return []
  | t :: ts => do
    let ty ← typeExpr ctx t
    let tys ← typeExprs ctx ts
    return ty :: tys

end

end Check

end ScriptCheck
