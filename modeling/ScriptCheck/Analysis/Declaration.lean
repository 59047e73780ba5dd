import ScriptCheck.Analysis.TypeName

/-!
# The records of a script's own declarations

The types that declarations mention are looked up, and a record is made of each declaration. A base has to be a class or a
struct. Bases must not go round in circles: each type that leads back to itself is reported, in the order of declaration,
and then there is no module.
-/

namespace ScriptCheck

namespace Check

/-- The base of a type, if it is one that can be derived from. -/
def baseType (ctx : Context) (written : TypeExpr) : Check (Option Ty) := do
  let ty ← typeExpr ctx written
  match ty with
  | .unresolved => return none
  | .nominal id _ =>
    if (ctx.typeKind? id).any TypeKind.derivable then
      return some ty
    else
      report (.invalidBaseType ty) written.node
      return none
  | _ =>
    report (.invalidBaseType ty) written.node
    return none

/-- The base that a type is declared with, if there is one. -/
def declaredBase (ctx : Context) : Option TypeExpr → Check (Option Ty)
  | none => return none
  | some written => baseType ctx written

/-- The parameters of a function as its record has them. -/
def paramRecords (ctx : Context) : List FuncParam → Check (List ParamRecord)
  | [] => return []
  | p :: ps => do
    let ty ← typeExpr ctx p.ty
    let rest ← paramRecords ctx ps
    return ⟨.text p.name, ty⟩ :: rest

/-- Adds the record of a function under `outer`. -/
def declareFunc (ctx : Context) (outer : ItemId) (decl : FuncDecl) (isStatic : Bool) (m : Module) : Check Module := do
  let id := decl.idUnder outer
  let typeParams := decl.typeParams.map Name.text
  let inside := ctx.within ⟨id, typeParams, false⟩
  let params ← paramRecords inside decl.params
  let ret ← typeExpr inside decl.ret
  let record ← FuncRecord.check ⟨id, typeParams, params, ret, decl.isSequence, isStatic⟩
  m.addFunc record

/-- Adds the record of a variable under `outer`. -/
def declareField (ctx : Context) (outer : ItemId) (decl : FieldDecl) (m : Module) : Check Module := do
  let ty ← typeExpr ctx decl.ty
  let record ← VarRecord.check ⟨decl.idUnder outer, ty, decl.isStatic⟩
  m.addVar record

/-- The cases that a type declares. -/
def enumCases (members : List Member) : List Name :=
  members.filterMap fun
    | .case decl => some (.text decl.name)
    | _ => none

mutual

/-- Adds the records of a type under `outer` and of everything in it. -/
def declareType (ctx : Context) (outer : ItemId) : TypeDecl → Module → Check Module
  | .mk _ kind name typeParams base members, m => do
    let id := outer.child (.text name) typeParams.length
    let inside := ctx.within ⟨id, typeParams.map .text, true⟩
    let base ← declaredBase inside base
    let m ← declareMembers inside id members m
    let record ← TypeRecord.check ⟨id, kind.typeKind, typeParams.map .text, base, enumCases members⟩
    m.addType record

/-- Adds the records of the members of a type. -/
def declareMembers (ctx : Context) (id : ItemId) : List Member → Module → Check Module
  | [], m => return m
  | member :: members, m => do
    let m ← declareMember ctx id member m
    declareMembers ctx id members m

/-- Adds the records of one member of a type. -/
def declareMember (ctx : Context) (id : ItemId) : Member → Module → Check Module
  | .type decl, m => declareType ctx id decl m
  | .func decl, m => declareFunc ctx id decl decl.isStatic m
  | .field decl, m => declareField ctx id decl m
  | .case _, m => return m

end

/-- Adds the records of the declarations at the top level; a function there is always static. -/
def declareElements (ctx : Context) : Script → Module → Check Module
  | [], m => return m
  | .type decl :: rest, m => do
    let m ← declareType ctx ctx.root decl m
    declareElements ctx rest m
  | .func decl :: rest, m => do
    let m ← declareFunc ctx ctx.root decl true m
    declareElements ctx rest m
  | .stmt _ :: rest, m => declareElements ctx rest m

end Check

/-! ### Circles among bases -/

namespace Module

/-- The id of each type's declared base, where the base is a declared type. -/
def baseIds (m : Module) : List (ItemId × ItemId) :=
  m.types.entries.filterMap fun e => do
    let base ← e.2.base
    let (id, _) ← base.nominal?
    return (e.1, id)

/-- Whether the way up from `current` comes to `start` within a number of steps. -/
def leadsTo (bases : Table ItemId ItemId) (start : ItemId) : Nat → Option ItemId → Bool
  | 0, _ => false
  | _ + 1, none => false
  | n + 1, some id => if id = start then true else leadsTo bases start n (bases.find? id)

/-- The types that are derived from themselves. -/
def cyclicTypes (m : Module) : List ItemId :=
  let bases : Table ItemId ItemId := ⟨m.baseIds⟩
  bases.keys.filter fun id => leadsTo bases id bases.size (bases.find? id)

end Module

/-- Puts an entry before the first one whose node's number is not smaller. -/
def insertByNode (e : ItemId × Node) : List (ItemId × Node) → List (ItemId × Node)
  | [] => [e]
  | f :: rest => if e.2.id ≤ f.2.id then e :: f :: rest else f :: insertByNode e rest

/-- The types of the script among these, with their nodes, in the order of the nodes' numbers. -/
def Skeleton.inOrder (s : Skeleton) (ids : List ItemId) : List (ItemId × Node) :=
  (ids.filterMap fun id => (s.types.find? id).map fun t => (id, t.node)).foldr insertByNode []

/-- Reports each type that is derived from itself, and says whether there is none. -/
def Check.rejectCycles (ctx : Context) (m : Module) : Check Bool := do
  (ctx.skeleton.inOrder m.cyclicTypes).forM fun e => report (.cyclicBaseType e.1) e.2
  return m.cyclicTypes.isEmpty

end ScriptCheck
