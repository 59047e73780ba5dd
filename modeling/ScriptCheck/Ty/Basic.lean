import ScriptCheck.Fault

/-!
# Types

A type is `void`, a declared type with its arguments, a function type or a type parameter; `unresolved` stands where a
type could not be found out and is only met beside a diagnostic. The arguments of a declared type come in levels, one per
segment of its id and the outermost first: `X<A, B>.Y<C>` has the levels `[[A, B], [C]]`, and a segment without type
parameters has an empty level. Equality of types is decidable (`Ty.same_iff`), and what a type is made of is listed by
`Ty.parts`, through which every "occurs in" question is asked.
-/

namespace ScriptCheck

/-- A type parameter: the declaration that introduces it and its name there. -/
structure ParamRef where
  owner : ItemId
  name : Name
  deriving DecidableEq, Repr

/-- The type of a value. -/
inductive Ty where
  | void
  /-- The type could not be found out; a diagnostic says why. -/
  | unresolved
  /-- A declared type with one level of arguments per segment of its id. -/
  | nominal (id : ItemId) (levels : List (List Ty))
  | func (ret : Ty) (params : List Ty)
  | param (ref : ParamRef)
  deriving Repr, Inhabited

/-- The arguments of a declaration, one list per segment of its id, outermost first. -/
abbrev Levels := List (List Ty)

/-- A function's signature. -/
structure Signature where
  ret : Ty
  params : List Ty
  deriving Repr

namespace Ty

/-! ### Equality -/

mutual

/-- Whether two types are built alike. -/
def same : Ty → Ty → Bool
  | void, void => true
  | unresolved, unresolved => true
  | nominal id levels, nominal id' levels' => decide (id = id') && sameLevels levels levels'
  | func ret params, func ret' params' => same ret ret' && sameList params params'
  | param ref, param ref' => decide (ref = ref')
  | _, _ => false

/-- Whether two lists of types are built alike. -/
def sameList : List Ty → List Ty → Bool
  | [], [] => true
  | a :: as, b :: bs => same a b && sameList as bs
  | _, _ => false

/-- Whether two lists of levels are built alike. -/
def sameLevels : List (List Ty) → List (List Ty) → Bool
  | [], [] => true
  | a :: as, b :: bs => sameList a b && sameLevels as bs
  | _, _ => false

end

mutual

/-- Types that are built alike are equal. -/
theorem same_iff : ∀ a b : Ty, same a b = true ↔ a = b
  | void, b => by cases b <;> simp [same]
  | unresolved, b => by cases b <;> simp [same]
  | nominal id levels, b => by
    cases b with
    | nominal id' levels' => simp [same, sameLevels_iff levels levels']
    | _ => simp [same]
  | func ret params, b => by
    cases b with
    | func ret' params' => simp [same, same_iff ret ret', sameList_iff params params']
    | _ => simp [same]
  | param ref, b => by cases b <;> simp [same]

theorem sameList_iff : ∀ as bs : List Ty, sameList as bs = true ↔ as = bs
  | [], bs => by cases bs <;> simp [sameList]
  | a :: as, bs => by
    cases bs with
    | nil => simp [sameList]
    | cons b bs => simp [sameList, same_iff a b, sameList_iff as bs]

theorem sameLevels_iff : ∀ as bs : List (List Ty), sameLevels as bs = true ↔ as = bs
  | [], bs => by cases bs <;> simp [sameLevels]
  | a :: as, bs => by
    cases bs with
    | nil => simp [sameLevels]
    | cons b bs => simp [sameLevels, sameList_iff a b, sameLevels_iff as bs]

end

end Ty

instance : DecidableEq Ty := fun a b => decidable_of_iff (Ty.same a b = true) (Ty.same_iff a b)

deriving instance DecidableEq for Signature

namespace Ty

/-! ### Parts -/

mutual

/-- Everything a type is made of, the type itself first. -/
def parts : Ty → List Ty
  | nominal id levels => nominal id levels :: partsOfLevels levels
  | func ret params => func ret params :: (parts ret ++ partsOfList params)
  | void => [void]
  | unresolved => [unresolved]
  | param ref => [param ref]

/-- Everything the types of a list are made of. -/
def partsOfList : List Ty → List Ty
  | [] => []
  | t :: ts => parts t ++ partsOfList ts

/-- Everything the types of all levels are made of. -/
def partsOfLevels : List (List Ty) → List Ty
  | [] => []
  | l :: ls => partsOfList l ++ partsOfLevels ls

end

/-- The number of parts of a type. -/
def size (t : Ty) : Nat := t.parts.length

/-- A type is one of its own parts. -/
theorem mem_parts_self (t : Ty) : t ∈ t.parts := by cases t <;> simp [parts]

/-- A list's parts are the parts of its members. -/
theorem mem_partsOfList {p : Ty} {ts : List Ty} : p ∈ partsOfList ts ↔ ∃ t ∈ ts, p ∈ t.parts := by
  induction ts with
  | nil => simp [partsOfList]
  | cons t ts ih => simp [partsOfList, ih]

/-- The parts of all levels are the parts of the arguments on them. -/
theorem mem_partsOfLevels {p : Ty} {ls : List (List Ty)} : p ∈ partsOfLevels ls ↔ ∃ l ∈ ls, ∃ t ∈ l, p ∈ t.parts := by
  induction ls with
  | nil => simp [partsOfLevels]
  | cons l ls ih => simp [partsOfLevels, ih, mem_partsOfList]

/-! ### Questions about a type -/

/-- Whether this is `void`. -/
def isVoid : Ty → Bool
  | void => true
  | _ => false

/-- Whether this is the placeholder itself. -/
def isUnresolved : Ty → Bool
  | unresolved => true
  | _ => false

/-- The id and levels of a declared type. -/
def nominal? : Ty → Option (ItemId × Levels)
  | nominal id levels => some (id, levels)
  | _ => none

/-- The signature of a function type. -/
def func? : Ty → Option Signature
  | func ret params => some ⟨ret, params⟩
  | _ => none

/-- The parameter a type is, where it is one. -/
def param? : Ty → Option ParamRef
  | param ref => some ref
  | _ => none

/-- Whether the placeholder occurs anywhere. -/
def hasUnresolved (t : Ty) : Bool := t.parts.any isUnresolved

/-- The type parameters that occur in a type, once per occurrence. -/
def paramRefs (t : Ty) : List ParamRef := t.parts.filterMap param?

/-- Whether a type parameter that `owner` introduces occurs. -/
def mentions (t : Ty) (owner : ItemId) : Bool := t.paramRefs.any fun ref => decide (ref.owner = owner)

theorem isUnresolved_eq_true_iff (t : Ty) : t.isUnresolved = true ↔ t = unresolved := by
  cases t <;> simp [isUnresolved]

theorem isVoid_eq_true_iff (t : Ty) : t.isVoid = true ↔ t = void := by
  cases t <;> simp [isVoid]

/-- The placeholder occurs in a type exactly when it is one of its parts. -/
theorem hasUnresolved_eq_true_iff (t : Ty) : t.hasUnresolved = true ↔ unresolved ∈ t.parts := by
  simp [hasUnresolved, List.any_eq_true, isUnresolved_eq_true_iff]

/-- A parameter occurs in a type exactly when it is one of its parts. -/
theorem mem_paramRefs {t : Ty} {ref : ParamRef} : ref ∈ t.paramRefs ↔ param ref ∈ t.parts := by
  simp only [paramRefs, List.mem_filterMap]
  constructor
  · rintro ⟨p, hp, h⟩
    cases p <;> simp_all [param?]
  · intro h
    exact ⟨_, h, rfl⟩

end Ty

/-- The type of functions with this signature. -/
def Signature.ty (s : Signature) : Ty := .func s.ret s.params

/-! ### Argument levels -/

namespace Levels

/-- The arguments of the innermost level. -/
def own (ls : Levels) : List Ty := ls.getLastD []

/-- The levels around the innermost one; a single level has none around it. -/
def outer? (ls : Levels) : Option Levels := if ls.length ≤ 1 then none else some ls.dropLast

/-- One more level, inside the others. -/
def nest (ls : Levels) (args : List Ty) : Levels := ls ++ [args]

/-- The same levels with other arguments on the innermost one. -/
def withOwn (ls : Levels) (args : List Ty) : Levels := nest (List.dropLast ls) args

/-- The levels of a declaration at this depth whose path introduces no type parameters. -/
def blank (depth : Nat) : Except Fault Levels :=
  if depth = 0 then .error .rootArguments else .ok (List.replicate depth [])

/-- Whether there is one level per segment of the id, each as long as the segment's arity. -/
def fits (ls : Levels) (id : ItemId) : Bool := decide (ls.map List.length = id.arities)

/-- The arguments in the order in which a search meets them: the innermost level first. -/
def searched (ls : Levels) : List Ty := (List.reverse ls).flatten

/-- The arguments that a search looks at: up to the first that passes the test, or all. -/
def visited (ls : Levels) (test : Ty → Bool) : List Ty :=
  match ls.searched.findIdx? test with
  | some n => ls.searched.take (n + 1)
  | none => ls.searched

/-- The levels with each argument replaced by what `f` makes of it and of the number of arguments before it, counted from
the outermost level. -/
def mapWithIndex (f : Nat → Ty → Ty) : Nat → Levels → Levels
  | _, [] => []
  | n, l :: ls => l.mapIdx (fun k t => f (n + k) t) :: mapWithIndex f (n + l.length) ls

end Levels

/-! ### Checked construction -/

/-- A declared type with its arguments, refused where the levels do not fit the id. -/
def Ty.make (id : ItemId) (levels : Levels) : Except Fault Ty :=
  if levels.fits id then .ok (.nominal id levels) else .error (.arity id)

/-- A function with arguments for every level of its path, its own type parameters included. -/
structure FuncRef where
  id : ItemId
  levels : Levels
  deriving DecidableEq, Repr

/-- A variable with arguments for every level of its path; its own level is empty. -/
structure VarRef where
  id : ItemId
  levels : Levels
  deriving DecidableEq, Repr

/-- A reference to a function, refused where the levels do not fit the id. -/
def FuncRef.make (id : ItemId) (levels : Levels) : Except Fault FuncRef :=
  if levels.fits id then .ok ⟨id, levels⟩ else .error (.arity id)

/-- A reference to a variable, refused where the levels do not fit the id. -/
def VarRef.make (id : ItemId) (levels : Levels) : Except Fault VarRef :=
  if levels.fits id then .ok ⟨id, levels⟩ else .error (.arity id)

/-- Whether no level carries an argument. -/
def FuncRef.nonGeneric (f : FuncRef) : Bool := f.levels.all List.isEmpty

end ScriptCheck
