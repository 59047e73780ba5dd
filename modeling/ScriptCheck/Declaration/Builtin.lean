import ScriptCheck.Declaration.Module

/-!
# The built-in module

Every script refers to one module without saying so: it declares the three primitive types, lists, the sequences that
sequence functions produce, and `print`. Only `int` has step operators, and only a list has an indexer.
-/

namespace ScriptCheck.Builtin

/-- The name of the built-in module. -/
def moduleName : String := "System.Runtime"

/-- A top-level declaration of the built-in module. -/
def item (name : String) (arity : Nat) : ItemId := (ItemId.root moduleName).child (.text name) arity

def intId : ItemId := item "int" 0

def boolId : ItemId := item "bool" 0

def stringId : ItemId := item "string" 0

def listId : ItemId := item "List" 1

def seqId : ItemId := item "Seq" 1

def int : Ty := .nominal intId [[]]

def bool : Ty := .nominal boolId [[]]

def string : Ty := .nominal stringId [[]]

/-- Lists of a type. -/
def list (elem : Ty) : Ty := .nominal listId [[elem]]

/-- Sequences of a type: what a call of a sequence function gives. -/
def seq (elem : Ty) : Ty := .nominal seqId [[elem]]

/-- The element type of `List<T>` as its own members write it. -/
def listElem : Ty := .param ⟨listId, .text "T"⟩

/-- A type without a base. -/
def plainType (id : ItemId) (kind : TypeKind) (typeParams : List Name) : TypeRecord := ⟨id, kind, typeParams, none, []⟩

/-- A function without type parameters that is called on an object. -/
def method (id : ItemId) (params : List (String × Ty)) (ret : Ty) : FuncRecord :=
  ⟨id, [], params.map fun p => ⟨.text p.1, p.2⟩, ret, false, false⟩

/-- The declarations of the built-in module. -/
def declarations : Module :=
  Module.empty moduleName
    |>.putType (plainType intId .primitive [])
    |>.putFunc (method (intId.child .increment 0) [] int)
    |>.putFunc (method (intId.child .decrement 0) [] int)
    |>.putType (plainType boolId .primitive [])
    |>.putType (plainType stringId .primitive [])
    |>.putType (plainType listId .classType [.text "T"])
    |>.putFunc (method (listId.child .indexerGet 0) [("index", int)] listElem)
    |>.putFunc (method (listId.child .indexerSet 0) [("index", int), ("value", listElem)] .void)
    |>.putFunc (method (listId.child (.text "Add") 0) [("item", listElem)] .void)
    |>.putVar ⟨listId.child (.text "Count") 0, int, false⟩
    |>.putType (plainType seqId .classType [.text "T"])
    |>.putFunc { method (item "print" 0) [("text", string)] .void with isStatic := true }

end ScriptCheck.Builtin
