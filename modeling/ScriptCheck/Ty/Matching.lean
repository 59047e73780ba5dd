import ScriptCheck.Ty.Substitution

/-!
# Finding type arguments by matching

A parameter type is laid beside the type of an argument, and each parameter of `owner` met on the way is bound to what
stands opposite it. The first binding stays: whether later occurrences agree is left to the check of the call. Matching
never fails; where the two shapes part, nothing below is bound.
-/

namespace ScriptCheck

mutual

/-- Binds the parameters of `owner` in `pattern` to what stands opposite them in `actual`. -/
def Ty.unify (owner : ItemId) : (pattern actual : Ty) → Env → Env
  | _, .unresolved, env => env
  | .param ref, actual, env => if ref.owner = owner then env.insertNew ref actual else env
  | .nominal id levels, .nominal id' levels', env =>
    if id = id' then Ty.unifyLevels owner levels levels' env else env
  | .func ret params, .func ret' params', env =>
    if params.length = params'.length then
      Ty.unifyList owner params params' (Ty.unify owner ret ret' env)
    else env
  | _, _, env => env

/-- Matches two lists pairwise, as far as both go. -/
def Ty.unifyList (owner : ItemId) : (patterns actuals : List Ty) → Env → Env
  | p :: ps, a :: as, env => Ty.unifyList owner ps as (Ty.unify owner p a env)
  | _, _, env => env

/-- Matches two lists of levels pairwise, as far as both go. -/
def Ty.unifyLevels (owner : ItemId) : (patterns actuals : List (List Ty)) → Env → Env
  | p :: ps, a :: as, env => Ty.unifyLevels owner ps as (Ty.unifyList owner p a env)
  | _, _, env => env

end

end ScriptCheck
