import ScriptCheck.Table
import ScriptCheck.Ty.Basic

/-!
# Replacing type parameters

An environment binds type parameters, each told apart by the declaration that introduces it. `Ty.subst` replaces the bound
ones in a single pass: what is put in is not looked at again. `Ty.changed?` does the same but says `none` where nothing was
bound, so that an unchanged type need not be built a second time; `Ty.substitute` is the form the library uses.
-/

namespace ScriptCheck

/-- What type parameters stand for. -/
abbrev Env := Table ParamRef Ty

mutual

/-- Replaces every bound parameter of a type, all at once. -/
def Ty.subst (env : Env) : Ty → Ty
  | .void => .void
  | .unresolved => .unresolved
  | .nominal id levels => .nominal id (Ty.substLevels env levels)
  | .func ret params => .func (Ty.subst env ret) (Ty.substList env params)
  | .param ref => (env.find? ref).getD (.param ref)

/-- Replaces every bound parameter of the types of a list. -/
def Ty.substList (env : Env) : List Ty → List Ty
  | [] => []
  | t :: ts => Ty.subst env t :: Ty.substList env ts

/-- Replaces every bound parameter of the types of all levels. -/
def Ty.substLevels (env : Env) : List (List Ty) → List (List Ty)
  | [] => []
  | l :: ls => Ty.substList env l :: Ty.substLevels env ls

end

/-- A list whose head or tail may have changed: `none` where neither did. -/
def consChanged? {α : Type} (head : α) (head? : Option α) (tail : List α) (tail? : Option (List α)) :
    Option (List α) :=
  match head?, tail? with
  | none, none => none
  | _, _ => some (head?.getD head :: tail?.getD tail)

mutual

/-- The type with its bound parameters replaced, or `none` where none of them occurs. -/
def Ty.changed? (env : Env) : Ty → Option Ty
  | .void => none
  | .unresolved => none
  | .nominal id levels => (Ty.changedLevels? env levels).map (.nominal id)
  | .func ret params =>
    match Ty.changed? env ret, Ty.changedList? env params with
    | none, none => none
    | ret?, params? => some (.func (ret?.getD ret) (params?.getD params))
  | .param ref => env.find? ref

/-- The types of a list with their bound parameters replaced, or `none` where none occurs. -/
def Ty.changedList? (env : Env) : List Ty → Option (List Ty)
  | [] => none
  | t :: ts => consChanged? t (Ty.changed? env t) ts (Ty.changedList? env ts)

/-- The types of all levels with their bound parameters replaced, or `none` where none occurs. -/
def Ty.changedLevels? (env : Env) : List (List Ty) → Option (List (List Ty))
  | [] => none
  | l :: ls => consChanged? l (Ty.changedList? env l) ls (Ty.changedLevels? env ls)

end

/-- Replaces every bound parameter of a type; a type without bound parameters comes back as it is. -/
def Ty.substitute (t : Ty) (env : Env) : Ty := if env.isEmpty then t else (t.changed? env).getD t

/-- Replaces every bound parameter of a signature. -/
def Signature.substitute (s : Signature) (env : Env) : Signature :=
  ⟨s.ret.substitute env, s.params.map (·.substitute env)⟩

end ScriptCheck
