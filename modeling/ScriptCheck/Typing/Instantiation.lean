import ScriptCheck.Declaration.Registry
import ScriptCheck.Ty.Substitution

/-!
# Declarations with their arguments

A declaration is written in terms of the type parameters of every declaration on its path. Given one level of arguments
per segment, each parameter is bound from the level of the declaration that introduces it, so a nested declaration may
reuse a name without harm. A declaration that no module knows binds nothing.
-/

namespace ScriptCheck.Registry

/-- Binds the parameters that one declaration introduces to the arguments of its level. -/
def bindLevel (reg : Registry) (env : Env) (owner : ItemId) (args : List Ty) : Env :=
  ((reg.typeParams? owner).getD []).zip args |>.foldl (fun env b => env.insert ⟨owner, b.1⟩ b.2) env

/-- The bindings of all parameters on the path of `id`, outermost declaration first. -/
def bindings (reg : Registry) (id : ItemId) (levels : Levels) : Env :=
  (id.enclosing.zip levels).foldl (fun env b => reg.bindLevel env b.1 b.2) .empty

/-- A type written inside the declaration `id`, as seen through these arguments. -/
def applyIn (reg : Registry) (id : ItemId) (levels : Levels) (target : Ty) : Ty :=
  target.substitute (reg.bindings id levels)

/-- A type written inside the declaration of `context`, as seen through its arguments; only a declared type binds
anything. -/
def apply (reg : Registry) (context : Option Ty) (target : Ty) : Ty :=
  match context with
  | some (.nominal id levels) => reg.applyIn id levels target
  | _ => target

/-- A signature written inside the function `f`, as seen through its arguments. -/
def applyFunc (reg : Registry) (f : FuncRef) (target : Signature) : Signature :=
  target.substitute (reg.bindings f.id f.levels)

end ScriptCheck.Registry
