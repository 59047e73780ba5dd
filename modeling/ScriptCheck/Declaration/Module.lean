import ScriptCheck.Declaration.Record
import ScriptCheck.Table

/-!
# Modules

The declarations of one module, each under its id. Functions can also be found by the declaration around them and their
name alone, for a call does not say how many type parameters the function has: the index behind that look-up gains one
entry per function added, so a function added twice is listed twice, each time with its latest record.
-/

namespace ScriptCheck

/-- The declarations of one module. -/
structure Module where
  name : String
  types : Table ItemId TypeRecord
  funcs : Table ItemId FuncRecord
  vars : Table ItemId VarRecord
  /-- The ids of the functions of one name under one declaration, in the order of adding. -/
  funcIndex : Table (ItemId × Name) (List ItemId)

namespace Module

/-- A module without declarations. -/
def empty (name : String) : Module := ⟨name, .empty, .empty, .empty, .empty⟩

/-- The id that the module's top-level declarations are children of. -/
def root (m : Module) : ItemId := .root m.name

/-- Lists a function id under its enclosing declaration and name; a module's root is listed nowhere. -/
def indexFunc (index : Table (ItemId × Name) (List ItemId)) (id : ItemId) : Table (ItemId × Name) (List ItemId) :=
  match id.outer?, id.last? with
  | some outer, some last =>
    index.insert (outer, last.name) ((index.find? (outer, last.name)).getD [] ++ [id])
  | _, _ => index

/-- Puts a type's record under its id. -/
def putType (m : Module) (r : TypeRecord) : Module := { m with types := m.types.insert r.id r }

/-- Puts a function's record under its id and lists it once more by name. -/
def putFunc (m : Module) (r : FuncRecord) : Module :=
  { m with funcs := m.funcs.insert r.id r, funcIndex := indexFunc m.funcIndex r.id }

/-- Puts a variable's record under its id. -/
def putVar (m : Module) (r : VarRecord) : Module := { m with vars := m.vars.insert r.id r }

/-- Refuses an id of another module. -/
def checkHome (m : Module) (id : ItemId) : Except Fault Unit :=
  if id.moduleName = m.name then .ok () else .error (.foreignRecord id m.name)

/-- Adds a type of this module; an earlier record of the same id is replaced. -/
def addType (m : Module) (r : TypeRecord) : Except Fault Module := do
  m.checkHome r.id
  return m.putType r

/-- Adds a function of this module; an earlier record of the same id is replaced. -/
def addFunc (m : Module) (r : FuncRecord) : Except Fault Module := do
  m.checkHome r.id
  return m.putFunc r

/-- Adds a variable of this module; an earlier record of the same id is replaced. -/
def addVar (m : Module) (r : VarRecord) : Except Fault Module := do
  m.checkHome r.id
  return m.putVar r

/-- The functions directly under `outer` of this name, of any arity, one entry per adding. -/
def funcsNamed (m : Module) (outer : ItemId) (name : Name) : List FuncRecord :=
  ((m.funcIndex.find? (outer, name)).getD []).filterMap m.funcs.find?

end Module

end ScriptCheck
