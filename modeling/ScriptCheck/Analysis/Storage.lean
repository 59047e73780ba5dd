import ScriptCheck.Syntax.FreeUse

/-!
# Where values live

The analysis says of every variable it meets where its value is kept: in a slot of the frame, in a slot of the script, in a
module, in an object or in a type. A target of an assignment is such a place, or a pair of functions that read and write an
element of an object.
-/

namespace ScriptCheck

/-- Where a value is kept. -/
inductive Storage where
  /-- A top-level variable of a module. -/
  | moduleGlobal (id : ItemId)
  /-- A top-level variable of the script, by slot. -/
  | privateGlobal (slot : Nat)
  /-- A slot of the frame that is active. -/
  | localSlot (slot : Nat)
  | enumCase (name : Name)
  /-- A variable of a type; `object` is the type and node of the value it is reached through, if it is reached so. -/
  | staticMember (object : Option (Ty × Nat)) (var : VarRef)
  /-- A variable of the object that the node `object` gives. -/
  | instanceMember (object : Nat) (objectType : Ty) (name : Name)
  deriving DecidableEq, Repr

namespace Storage

/-- Whether the value is kept in the active frame. -/
def isLocal : Storage → Bool
  | localSlot _ => true
  | _ => false

/-- Whether a value can be stored there; the cases of an enum are fixed. -/
def writable : Storage → Bool
  | enumCase _ => false
  | _ => true

end Storage

/-- What is assigned to, or stepped by `++` and `--`. -/
inductive Target where
  /-- A place, with the type that it is declared with. -/
  | direct (storage : Storage) (ty : Ty)
  /-- An element that `getter` reads and `setter` writes; object and arguments are evaluated once. -/
  | callBased (object : Nat) (objectType : Ty) (getter setter : FuncRef) (args : List Nat) (ty : Ty)
  deriving DecidableEq, Repr

namespace Target

/-- The type of what is read from the target. -/
def ty : Target → Ty
  | direct _ ty => ty
  | callBased _ _ _ _ _ ty => ty

/-- The place of a direct target. -/
def storage? : Target → Option Storage
  | direct storage _ => some storage
  | callBased .. => none

end Target

/-- A variable of the enclosing frame that a body carries in. -/
structure CaptureInfo where
  name : String
  kind : CaptureKind
  /-- Where the enclosing frame keeps it. -/
  storage : Storage
  ty : Ty
  /-- The slot it has in the frame of the body. -/
  slot : Nat
  deriving DecidableEq, Repr

end ScriptCheck
