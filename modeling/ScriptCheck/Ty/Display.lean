import ScriptCheck.Ty.Basic

/-!
# How types are shown

A declared type is shown as its path, each name followed by the arguments of its level, without the module:
`X<int, bool>.Y<string>`. A function type is shown as `func<R, P, Q>`, a type parameter by its name alone.
-/

namespace ScriptCheck

/-- A path shown from its names and what stands on each level; it ends where either runs out. -/
def displayPathWith (names : List Name) (levels : List (List String)) : String :=
  ".".intercalate <| names.zipWith
    (fun name level => name.display ++ if level.isEmpty then "" else "<" ++ ", ".intercalate level ++ ">") levels

mutual

/-- How a type is shown. -/
def Ty.display : Ty → String
  | .void => "void"
  | .unresolved => "<unresolved>"
  | .nominal id levels => displayPathWith (id.path.map (·.name)) (Ty.displayLevels levels)
  | .func ret params => "func<" ++ ", ".intercalate (ret.display :: Ty.displayList params) ++ ">"
  | .param ref => ref.name.display

/-- How each type of a list is shown. -/
def Ty.displayList : List Ty → List String
  | [] => []
  | t :: ts => t.display :: Ty.displayList ts

/-- How each type of each level is shown. -/
def Ty.displayLevels : List (List Ty) → List (List String)
  | [] => []
  | l :: ls => Ty.displayList l :: Ty.displayLevels ls

end

/-- A function is shown as its path with the arguments of each level. -/
def FuncRef.display (f : FuncRef) : String :=
  displayPathWith (f.id.path.map (·.name)) (Ty.displayLevels f.levels)

end ScriptCheck
