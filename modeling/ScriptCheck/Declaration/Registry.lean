import ScriptCheck.Declaration.Module

/-!
# Look-ups over several modules

A registry is the list of modules that are searched, in order. A look-up by id answers with the first module that has the
id. A look-up by name answers with every candidate, for it is the asker who says what more than one of them means.
-/

namespace ScriptCheck

/-- The modules that are searched, in order. -/
abbrev Registry := List Module

namespace Registry

/-- The record of a type, from the first module that has it. -/
def type? (reg : Registry) (id : ItemId) : Option TypeRecord := reg.findSome? (·.types.find? id)

/-- The record of a function, from the first module that has it. -/
def func? (reg : Registry) (id : ItemId) : Option FuncRecord := reg.findSome? (·.funcs.find? id)

/-- The record of a variable, from the first module that has it. -/
def var? (reg : Registry) (id : ItemId) : Option VarRecord := reg.findSome? (·.vars.find? id)

/-- The records of a type in all modules. -/
def typesAt (reg : Registry) (id : ItemId) : List TypeRecord := reg.filterMap (·.types.find? id)

/-- The records of a function in all modules. -/
def funcsAt (reg : Registry) (id : ItemId) : List FuncRecord := reg.filterMap (·.funcs.find? id)

/-- The records of a variable in all modules. -/
def varsAt (reg : Registry) (id : ItemId) : List VarRecord := reg.filterMap (·.vars.find? id)

/-- The type parameters that a known declaration introduces; a variable introduces none. -/
def typeParams? (reg : Registry) (id : ItemId) : Option (List Name) :=
  match reg.type? id with
  | some r => some r.typeParams
  | none =>
    match reg.func? id with
    | some r => some r.typeParams
    | none => (reg.var? id).map fun _ => []

/-- The functions directly under `outer` of this name, of any arity. -/
def memberFuncs (reg : Registry) (outer : ItemId) (name : Name) : List FuncRecord :=
  reg.flatMap (·.funcsNamed outer name)

/-- The top-level types of this name and arity. -/
def globalTypes (reg : Registry) (name : Name) (arity : Nat) : List TypeRecord :=
  reg.filterMap fun m => m.types.find? (m.root.child name arity)

/-- The top-level functions of this name, of any arity. -/
def globalFuncs (reg : Registry) (name : Name) : List FuncRecord := reg.flatMap fun m => m.funcsNamed m.root name

/-- The top-level variables of this name. -/
def globalVars (reg : Registry) (name : Name) : List VarRecord :=
  reg.filterMap fun m => m.vars.find? (m.root.child name 0)

end Registry

end ScriptCheck
