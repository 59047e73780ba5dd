import ScriptCheck.Analysis.TypeName

/-!
# What an identifier means

The first of these that has the name decides: the active frame, the script's own variables, and then all modules at once.
Only an identifier without type arguments can name a variable. Among the modules exactly one variable, function or type
may match; a call may also name the only function that takes more type arguments than were written, and leaves the rest to
be found from the arguments.
-/

namespace ScriptCheck

/-- What an identifier refers to. -/
inductive Meaning where
  /-- A variable, the type it is read with here and the type it is declared with. -/
  | var (storage : Storage) (ty declared : Ty)
  | func (func : FuncRef)
  | type (ty : Ty)
  | notFound
  | ambiguous (count : Nat)
  deriving DecidableEq, Repr

/-- A variable as it is read in this frame. -/
def Frame.read (frame : Frame) (storage : Storage) (declared : Ty) : Meaning :=
  .var storage (frame.readType storage declared) declared

namespace Context

/-- The variables, functions and types of all modules that match a name and its type arguments. -/
def globalMeanings (ctx : Context) (frame : Frame) (name : Name) (args : List Ty) : Except Fault (List Meaning) := do
  let vars := if args.isEmpty then ctx.registry.globalVars name else []
  let funcs := (ctx.registry.globalFuncs name).filter fun r => r.typeParams.length = args.length
  let funcs ← funcs.mapM fun r => FuncRef.make r.id [args]
  let types ← (ctx.globalTypeIds name args.length).mapM fun id => Ty.make id [args]
  return vars.map (fun r => frame.read (.moduleGlobal r.id) r.ty) ++ funcs.map .func ++ types.map .type

/-- The only function of all modules that takes more type arguments than are given, with the rest left open. -/
def partialMeaning (ctx : Context) (name : Name) (args : List Ty) : Except Fault Meaning :=
  match (ctx.registry.globalFuncs name).filter fun r => args.length < r.typeParams.length with
  | [] => .ok .notFound
  | [r] => return .func (← FuncRef.make r.id [args ++ (← r.openParams args.length)])
  | many => .ok (.ambiguous many.length)

/-- What a name means to all modules together. -/
def globalMeaning (ctx : Context) (frame : Frame) (name : Name) (args : List Ty) (allowPartial : Bool) :
    Except Fault Meaning := do
  match ← ctx.globalMeanings frame name args with
  | [only] => return only
  | [] => if allowPartial then ctx.partialMeaning name args else return .notFound
  | many => return .ambiguous many.length

/-- What an identifier with these type arguments means. With `allowPartial` a function may be named with fewer type
arguments than it takes. -/
def lookup (ctx : Context) (frame : Frame) (globals : PrivateGlobals) (name : String) (args : List Ty)
    (allowPartial : Bool) : Except Fault Meaning := do
  match ← if args.isEmpty then frame.lookup name else .ok none with
  | some (slot, declared) => return frame.read (.localSlot slot) declared
  | none =>
    match ← if args.isEmpty then globals.lookup name else .ok none with
    | some (slot, declared) => return frame.read (.privateGlobal slot) declared
    | none => ctx.globalMeaning frame (.text name) args allowPartial

end Context

/-- The first of a function's own type parameters that is still open. -/
def FuncRef.openParam? (f : FuncRef) : Option Name :=
  (Levels.own f.levels).findSome? fun
    | .param ref => if ref.owner = f.id then some ref.name else none
    | _ => none

namespace Check

/-- What an identifier means at this point. -/
def lookup (ctx : Context) (name : String) (args : List Ty) (allowPartial : Bool) : Check Meaning := do
  let s ← get
  ctx.lookup s.frame s.globals name args allowPartial

/-- The type of a function that is used as a value: none of its type parameters may be open. -/
def funcValue (ctx : Context) (node : Node) (f : FuncRef) : Check Ty :=
  match f.openParam? with
  | some param => reject (.cannotInferTypeArgs f param) node
  | none => do
    let signature ← ctx.registry.funcType f
    noteInfo node (.func f)
    return signature.ty

/-- The type of an identifier that is used as a value. -/
def identifierValue (ctx : Context) (node : Node) (name : String) : Meaning → Check Ty
  | .var storage ty _ => do
    noteInfo node (.storage storage)
    return ty
  | .func f => funcValue ctx node f
  | .type _ => reject (.typeNotValue name) node
  | .notFound => reject (.undefinedIdentifier name) node
  | .ambiguous count => reject (.ambiguousIdentifier name count) node

/-- An identifier that is read. -/
def identifier (ctx : Context) (node : Node) (name : String) (typeArgs : List TypeExpr) : Check Ty := do
  let args ← typeExprs ctx typeArgs
  let meaning ← lookup ctx name args false
  identifierValue ctx node name meaning

end Check

end ScriptCheck
