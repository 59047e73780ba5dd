import ScriptCheck.Proofs.Lockstep
import Mathlib.Data.List.Perm.Basic

/-!
# Look-ups in two registries

Two registries are alike when a look-up by id gives the same in both and a look-up by name gives the same candidates, in any
order. No rule depends on the order of candidates: one of them is taken only if it is the only one that fits, and otherwise
their number is all that counts. There is one exception: where none fits a number of type arguments, the first candidate says
how many were expected. So what a look-up finds is the same in both registries, and if it finds nothing it does so in both,
for reasons that differ at most in that number.
-/

namespace ScriptCheck

/-! ### Candidates in any order -/

/-- Of two lists that differ in order, both are empty, both have the same only member, or both have more. -/
theorem sizes_of_perm {α : Type} {l l' : List α} (h : l.Perm l') : (l = [] ∧ l' = []) ∨ (∃ a, l = [a] ∧ l' = [a]) ∨
    ∃ a b r a' b' r', l = a :: b :: r ∧ l' = a' :: b' :: r' ∧ r.length = r'.length := by
  rcases l with _ | ⟨a, _ | ⟨b, r⟩⟩
  · exact .inl ⟨rfl, h.nil_eq.symm⟩
  · exact .inr (.inl ⟨a, rfl, List.perm_singleton.1 h.symm⟩)
  · have hlength := h.length_eq
    rcases l' with _ | ⟨a', _ | ⟨b', r'⟩⟩
    · simp at hlength
    · simp at hlength
    · exact .inr (.inr ⟨a, b, r, a', b', r', rfl, rfl, by simpa using hlength⟩)

/-- Look-ups in another order end alike. -/
theorem mapM_perm {α β : Type} (f : α → Except Fault β) {l l' : List α} (h : l.Perm l') :
    Together List.Perm (l.mapM f) (l'.mapM f) := by
  induction h with
  | nil => exact .ok .nil
  | cons a _ ih =>
    rw [List.mapM_cons, List.mapM_cons]
    refine (Together.refl (fun _ => rfl) (f a)).bind ?_
    rintro b _ rfl
    exact ih.bind fun bs bs' hb => .ok (hb.cons b)
  | swap a b l =>
    simp only [List.mapM_cons]
    cases f a with
    | error e =>
      cases f b with
      | error e' => exact .fault _ _
      | ok v => exact .fault _ _
    | ok u =>
      cases f b with
      | error e' => exact .fault _ _
      | ok v =>
        cases l.mapM f with
        | error e => exact .fault _ _
        | ok vs => exact .ok (.swap u v vs)
  | trans _ _ ih ih' => exact ih.trans ih' fun _ _ _ hr hr' => hr.trans hr'

/-- Both look-ups found the same, or both failed, for reasons that `E` relates. -/
inductive FoundSame (E : LookupError → LookupError → Prop) {α : Type} : Except LookupError α → Except LookupError α → Prop where
  | ok (a : α) : FoundSame E (.ok a) (.ok a)
  | error {e e' : LookupError} (h : E e e') : FoundSame E (.error e) (.error e')

/-- Which candidate a number of type arguments chooses does not depend on the order of the candidates. -/
theorem pickByArity_perm {candidates candidates' : List FuncRecord} (h : candidates.Perm candidates') (count : Nat) :
    Together (FoundSame fun _ _ => True) (pickByArity candidates count) (pickByArity candidates' count) := by
  unfold pickByArity
  rcases sizes_of_perm (h.filter fun r => decide (r.typeParams.length = count)) with
    ⟨h₁, h₂⟩ | ⟨r, h₁, h₂⟩ | ⟨a, b, r, a', b', r', h₁, h₂, -⟩
  · rw [h₁, h₂]
    dsimp only
    rcases sizes_of_perm (h.filter fun r => decide (count < r.typeParams.length)) with
      ⟨h₃, h₄⟩ | ⟨r, h₃, h₄⟩ | ⟨a, b, r, a', b', r', h₃, h₄, -⟩
    · rw [h₃, h₄]
      dsimp only
      rcases candidates with _ | ⟨c, cs⟩
      · rw [← h.nil_eq]
        exact .fault _ _
      · rcases candidates' with _ | ⟨c', cs'⟩
        · exact absurd h.length_eq (by simp)
        · exact .ok (.error trivial)
    · rw [h₃, h₄]
      exact .ok (.ok r)
    · rw [h₃, h₄]
      exact .ok (.error trivial)
  · rw [h₁, h₂]
    exact .ok (.ok r)
  · rw [h₁, h₂]
    exact .ok (.error trivial)

/-! ### Registries -/

/-- Look-ups by id give the same in both registries, and look-ups by name the same candidates. -/
structure Registry.Alike (E : LookupError → LookupError → Prop) (reg reg' : Registry) : Prop where
  reasons : ∀ e, E e e
  type? : ∀ id, reg'.type? id = reg.type? id
  func? : ∀ id, reg'.func? id = reg.func? id
  var? : ∀ id, reg'.var? id = reg.var? id
  weight : reg'.baseWeight = reg.baseWeight
  members : ∀ outer name, reg'.memberFuncs outer name = [] ↔ reg.memberFuncs outer name = []
  pick : ∀ outer name count, Together (FoundSame E) (pickByArity (reg.memberFuncs outer name) count)
    (pickByArity (reg'.memberFuncs outer name) count)
  globalTypes : ∀ name arity, (reg.globalTypes name arity).Perm (reg'.globalTypes name arity)
  globalFuncs : ∀ name, (reg.globalFuncs name).Perm (reg'.globalFuncs name)
  globalVars : ∀ name, (reg.globalVars name).Perm (reg'.globalVars name)

namespace Registry.Alike

variable {E : LookupError → LookupError → Prop} {reg reg' : Registry}

/-- Modules are like themselves. -/
theorem refl (hE : ∀ e, E e e) (reg : Registry) : reg.Alike E reg where
  reasons := hE
  type? _ := rfl
  func? _ := rfl
  var? _ := rfl
  weight := rfl
  members _ _ := .rfl
  pick _ _ _ := .refl (fun
    | .ok a => .ok a
    | .error e => .error (hE e)) _
  globalTypes _ _ := .refl _
  globalFuncs _ := .refl _
  globalVars _ := .refl _

section Answers

variable (h : reg.Alike E reg')

include h

theorem typeParams? : reg'.typeParams? = reg.typeParams? := by
  funext id
  simp only [Registry.typeParams?, h.type?, h.func?, h.var?]

/-- Type parameters are bound alike. -/
theorem bindings : reg'.bindings = reg.bindings := by
  funext id levels
  unfold Registry.bindings bindLevel
  rw [h.typeParams?]

/-- Types are instantiated alike. -/
theorem applyIn : reg'.applyIn = reg.applyIn := by
  funext id levels t
  rw [Registry.applyIn, Registry.applyIn, h.bindings]

/-- Bases are the same. -/
theorem baseOf : reg'.baseOf = reg.baseOf := by
  funext t
  cases t with
  | nominal id levels => rw [Registry.baseOf, Registry.baseOf, h.type?, h.applyIn]
  | _ => rfl

/-- Climbs are of the same length. -/
theorem reach [Patience] : reg'.reach = reg.reach := by
  funext t
  rw [Registry.reach, Registry.reach, climbLimit, climbLimit, h.weight]

/-- What a climb finds is related as what is found at each place is. -/
theorem climb [Patience] {α β : Type} {R : α → β → Prop} {visit : Ty → Option α} {visit' : Ty → Option β}
    (hv : ∀ t, Option.Rel R (visit t) (visit' t)) (t : Ty) : Option.Rel R (reg.climb visit t) (reg'.climb visit' t) := by
  unfold Registry.climb
  rw [h.reach]
  generalize reg.reach t = limit
  induction limit generalizing t with
  | zero =>
    rw [climbWithin, climbWithin]
    have hrel := hv t
    generalize visit t = found at hrel ⊢
    generalize visit' t = found' at hrel ⊢
    cases hrel with
    | none => exact .none
    | some hr => exact .some hr
  | succ limit ih =>
    rw [climbWithin, climbWithin, h.baseOf]
    have hrel := hv t
    generalize visit t = found at hrel ⊢
    generalize visit' t = found' at hrel ⊢
    cases hrel with
    | some hr => exact .some hr
    | none =>
      cases reg.baseOf t with
      | none => exact .none
      | some base => exact ih base

/-- The same is found on the way up. -/
theorem climb_eq [Patience] {α : Type} (visit : Ty → Option α) : reg'.climb visit = reg.climb visit := by
  funext t
  have hvisit : ∀ t, Option.Rel Eq (visit t) (visit t) := fun t => by cases visit t <;> constructor; rfl
  have hrel := h.climb hvisit t
  generalize reg.climb visit t = found at hrel ⊢
  generalize reg'.climb visit t = found' at hrel ⊢
  cases hrel with
  | none => rfl
  | some hr => rw [hr]

/-- The same types are assignable. -/
theorem assignable [Patience] : reg'.assignable = reg.assignable := by
  funext target source
  rw [Registry.assignable, Registry.assignable, h.climb_eq]

theorem funcRecord : reg'.funcRecord = reg.funcRecord := by
  funext id
  rw [Registry.funcRecord, Registry.funcRecord, h.func?]

/-- Functions have the same types. -/
theorem funcType : reg'.funcType = reg.funcType := by
  funext f
  unfold Registry.funcType applyFunc
  rw [h.funcRecord, h.bindings]

/-- Variables have the same types. -/
theorem varType : reg'.varType = reg.varType := by
  funext v
  rw [Registry.varType, Registry.varType, h.var?, h.applyIn]

theorem isStatic : reg'.isStatic = reg.isStatic := by
  funext m
  cases m with
  | var v => rw [Registry.isStatic, Registry.isStatic, h.var?]
  | func f => rw [Registry.isStatic, Registry.isStatic, h.funcRecord]

theorem isEnumCase : reg'.isEnumCase = reg.isEnumCase := by
  funext id name
  rw [Registry.isEnumCase, Registry.isEnumCase, h.type?]

/-- Places have the same types. -/
theorem storedType : reg'.storedType = reg.storedType := by
  funext target
  cases target with
  | direct storage ty => rfl
  | callBased _ _ _ _ _ _ => rw [Registry.storedType, Registry.storedType, h.funcType]

/-- Operators have the same signatures. -/
theorem operatorSignature : reg'.operatorSignature = reg.operatorSignature := by
  funext operator
  unfold Registry.operatorSignature
  rw [h.funcRecord, h.funcType]

/-- The same steps fit. -/
theorem stepFits : reg'.stepFits = reg.stepFits := by
  funext target ty ret
  unfold Registry.stepFits
  rw [h.funcType]

/-! ### Members -/

/-- The same function is chosen, or none for related reasons. -/
theorem choose (outer : ItemId) (name : Name) (levels : Levels) (explicit : List Ty) :
    Together (FoundSame E) (choose levels (reg.memberFuncs outer name) explicit)
      (Registry.choose levels (reg'.memberFuncs outer name) explicit) := by
  refine (h.pick outer name explicit.length).bind fun found found' hfound => ?_
  cases hfound with
  | ok r => exact .refl (fun
    | .ok a => .ok a
    | .error e => .error (h.reasons e)) _
  | error he => exact .ok (.error he)

/-- A type declares the same functions. -/
theorem ownFunc (name : Name) (explicit : List Ty) (t : Ty) :
    Option.Rel (Together (FoundSame E)) (reg.ownFunc name explicit t) (reg'.ownFunc name explicit t) := by
  cases t with
  | nominal id levels =>
    have hchoose := h.choose id name levels explicit
    have hempty := h.members id name
    rw [Registry.ownFunc, Registry.ownFunc]
    cases hc : reg.memberFuncs id name with
    | nil =>
      rw [hempty.2 hc]
      dsimp only
      unfold passOver
      split
      · exact .none
      · exact .some (.fault _ _)
    | cons r rs =>
      cases hc' : reg'.memberFuncs id name with
      | nil => exact absurd (hempty.1 hc') (by simp [hc])
      | cons r' rs' =>
        rw [hc, hc'] at hchoose
        exact .some hchoose
  | _ => exact .none

/-- The same function is found on the way up. -/
theorem memberFunc [Patience] (receiver : Ty) (name : Name) (explicit : List Ty) :
    Together (FoundSame E) (reg.memberFunc receiver name explicit) (reg'.memberFunc receiver name explicit) := by
  have hrel := h.climb (h.ownFunc name explicit) receiver
  unfold Registry.memberFunc
  generalize reg.climb (reg.ownFunc name explicit) receiver = found at hrel ⊢
  generalize reg'.climb (reg'.ownFunc name explicit) receiver = found' at hrel ⊢
  cases hrel with
  | none => exact .ok (.error (h.reasons _))
  | some hr => exact hr

/-- So is the same variable. -/
theorem memberVar [Patience] : reg'.memberVar = reg.memberVar := by
  have hown : reg'.ownVar = reg.ownVar := by
    funext name t
    cases t with
    | nominal id levels => rw [Registry.ownVar, Registry.ownVar, h.var?]
    | _ => rfl
  funext receiver name explicit
  rw [Registry.memberVar, Registry.memberVar, hown, h.climb_eq]

/-- So is the same member. -/
theorem member [Patience] (receiver : Ty) (name : Name) (args : List Ty) :
    Together (FoundSame E) (reg.member receiver name args) (reg'.member receiver name args) := by
  unfold Registry.member
  rw [h.memberVar]
  refine (Together.refl (fun _ => rfl) (reg.memberVar receiver name [])).bind ?_
  rintro found _ rfl
  cases found with
  | ok v =>
    dsimp only
    split
    · exact .ok (.ok _)
    · exact .ok (.error (h.reasons _))
  | error e =>
    refine (h.memberFunc receiver name args).bind fun found found' hfound => ?_
    cases hfound with
    | ok f => exact .ok (.ok _)
    | error he => exact .ok (.error he)

/-- So is the same method. -/
theorem method? [Patience] (receiver : Ty) (name : Name) :
    Together Eq (reg.method? receiver name) (reg'.method? receiver name) := by
  refine (h.memberFunc receiver name []).bind fun found found' hfound => ?_
  cases hfound with
  | ok f => exact .ok rfl
  | error he => exact .ok rfl

end Answers

end Registry.Alike

/-! ### Contexts -/

/-- The contexts are of one place in one script, and what is looked up in them is alike. -/
structure Context.Alike (E : LookupError → LookupError → Prop) (ctx ctx' : Context) : Prop where
  moduleName : ctx'.moduleName = ctx.moduleName
  capturer : ctx'.capturer = ctx.capturer
  enclosing : ctx'.enclosing = ctx.enclosing
  types : ∀ id, ctx'.skeleton.types.find? id = ctx.skeleton.types.find? id
  registry : ctx.registry.Alike E ctx'.registry
  patience : ctx'.patience = ctx.patience

namespace Context.Alike

variable {E : LookupError → LookupError → Prop} {ctx ctx' : Context}

theorem refl (hE : ∀ e, E e e) (ctx : Context) : ctx.Alike E ctx := ⟨rfl, rfl, rfl, fun _ => rfl, .refl hE _, rfl⟩

section Meanings

variable (h : ctx.Alike E ctx')

include h

/-- Contexts stay alike at another place. -/
theorem inside (around : List DeclScope) : Alike E { ctx with enclosing := around } { ctx' with enclosing := around } :=
  ⟨h.moduleName, h.capturer, rfl, h.types, h.registry, h.patience⟩

/-- So do they inside a declaration. -/
theorem within (scope : DeclScope) : (ctx.within scope).Alike E (ctx'.within scope) :=
  ⟨h.moduleName, h.capturer, congrArg (scope :: ·) h.enclosing, h.types, h.registry, h.patience⟩

theorem assignable : ctx'.assignable = ctx.assignable := by
  let _ := ctx.patience
  funext target source
  rw [Context.assignable, Context.assignable, h.patience, h.registry.assignable]

/-- Operators have the same rules. -/
theorem rule : BinaryOp.rule ctx' = BinaryOp.rule ctx := by
  funext op left right
  unfold BinaryOp.rule
  rw [h.assignable]

/-- The same members are found. -/
theorem member (receiver : Ty) (name : Name) (args : List Ty) :
    Together (FoundSame E) (ctx.member receiver name args) (ctx'.member receiver name args) := by
  let _ := ctx.patience
  rw [Context.member, Context.member, h.patience]
  exact h.registry.member receiver name args

theorem method? (receiver : Ty) (name : Name) : Together Eq (ctx.method? receiver name) (ctx'.method? receiver name) := by
  let _ := ctx.patience
  rw [Context.method?, Context.method?, h.patience]
  exact h.registry.method? receiver name

theorem root : ctx'.root = ctx.root := by rw [Context.root, Context.root, h.moduleName]

theorem contains (id : ItemId) : ctx'.skeleton.types.contains id = ctx.skeleton.types.contains id := by
  rw [Table.contains, Table.contains, h.types]

/-- The same types exist. -/
theorem typeExists : ctx'.typeExists = ctx.typeExists := by
  funext id
  rw [Context.typeExists, Context.typeExists, h.contains, h.registry.type?]

theorem typeKind? : ctx'.typeKind? = ctx.typeKind? := by
  funext id
  rw [Context.typeKind?, Context.typeKind?, h.types, h.registry.type?]

/-- A type stands for itself alike. -/
theorem selfLevels : ctx'.selfLevels = ctx.selfLevels := by
  have hparams : ctx'.typeParamsOf = ctx.typeParamsOf := by
    funext id
    rw [typeParamsOf, typeParamsOf, h.types, h.registry.typeParams?]
  funext id
  rw [Context.selfLevels, Context.selfLevels, hparams]

/-- The same types have a name, perhaps in another order. -/
theorem globalTypeIds (name : Name) (arity : Nat) : (ctx.globalTypeIds name arity).Perm (ctx'.globalTypeIds name arity) := by
  unfold Context.globalTypeIds
  rw [h.root, h.moduleName]
  dsimp only
  rw [h.contains]
  exact (((h.registry.globalTypes name arity).map _).filter _).append_left _

/-- A global name means the same type. -/
theorem globalType : ctx'.globalType = ctx.globalType := by
  funext name args
  unfold Context.globalType
  rcases sizes_of_perm (h.globalTypeIds (.text name) args.length) with
    ⟨h₁, h₂⟩ | ⟨id, h₁, h₂⟩ | ⟨a, b, r, a', b', r', h₁, h₂, hlength⟩
  · rw [h₁, h₂]
  · rw [h₁, h₂]
  · rw [h₁, h₂]
    simp [hlength]

/-- A plain name means the same type. -/
theorem namedType : ctx'.namedType = ctx.namedType := by
  have howner : ctx'.paramOwner? = ctx.paramOwner? := by
    funext name
    rw [paramOwner?, paramOwner?, h.enclosing]
  have hnested : ctx'.nestedOwner? = ctx.nestedOwner? := by
    funext name arity
    rw [nestedOwner?, nestedOwner?, h.enclosing, h.typeExists]
  funext name args
  rw [Context.namedType, Context.namedType, howner, hnested, h.selfLevels, h.globalType]

/-- So does a name after a dot. -/
theorem memberType : ctx'.memberType = ctx.memberType := by
  funext parent name args
  cases parent with
  | nominal id levels => simp only [Context.memberType, h.typeExists]
  | _ => rfl

/-! ### Identifiers -/

/-- A global name has the same meanings, perhaps in another order. -/
theorem globalMeanings (frame : Frame) (name : Name) (args : List Ty) :
    Together List.Perm (ctx.globalMeanings frame name args) (ctx'.globalMeanings frame name args) := by
  have hvars : (if args.isEmpty then ctx.registry.globalVars name else []).Perm
      (if args.isEmpty then ctx'.registry.globalVars name else []) := by
    split
    · exact h.registry.globalVars name
    · exact .nil
  refine (mapM_perm _ ((h.registry.globalFuncs name).filter _)).bind fun fs fs' hfs => ?_
  refine (mapM_perm _ (h.globalTypeIds name args.length)).bind fun ts ts' hts => ?_
  exact .ok (((hvars.map _).append (hfs.map _)).append (hts.map _))

/-- A name means the same functions whose arguments are inferred. -/
theorem partialMeaning (name : Name) (args : List Ty) : ctx'.partialMeaning name args = ctx.partialMeaning name args := by
  unfold Context.partialMeaning
  rcases sizes_of_perm ((h.registry.globalFuncs name).filter fun r => decide (args.length < r.typeParams.length)) with
    ⟨h₁, h₂⟩ | ⟨id, h₁, h₂⟩ | ⟨a, b, r, a', b', r', h₁, h₂, hlength⟩
  · rw [h₁, h₂]
  · rw [h₁, h₂]
  · rw [h₁, h₂]
    simp [hlength]

/-- A global name means the same. -/
theorem globalMeaning (frame : Frame) (name : Name) (args : List Ty) (allowPartial : Bool) :
    Together Eq (ctx.globalMeaning frame name args allowPartial) (ctx'.globalMeaning frame name args allowPartial) := by
  refine (h.globalMeanings frame name args).bind fun ms ms' hms => ?_
  rcases sizes_of_perm hms with ⟨rfl, rfl⟩ | ⟨m, rfl, rfl⟩ | ⟨a, b, r, a', b', r', rfl, rfl, hlength⟩
  · dsimp only
    rw [h.partialMeaning]
    exact .refl (fun _ => rfl) _
  · exact .ok rfl
  · exact .ok (by simp [hlength])

/-- A name means the same, wherever it is declared. -/
theorem lookup (frame : Frame) (globals : PrivateGlobals) (name : String) (args : List Ty) (allowPartial : Bool) :
    Together Eq (ctx.lookup frame globals name args allowPartial) (ctx'.lookup frame globals name args allowPartial) := by
  cases args with
  | cons t ts => exact h.globalMeaning frame (.text name) (t :: ts) allowPartial
  | nil =>
    unfold Context.lookup
    refine (Together.refl (fun _ => rfl) (frame.lookup name)).bind ?_
    rintro found _ rfl
    cases found with
    | some found => exact .ok rfl
    | none =>
      refine (Together.refl (fun _ => rfl) (globals.lookup name)).bind ?_
      rintro found _ rfl
      cases found with
      | some found => exact .ok rfl
      | none => exact h.globalMeaning frame (.text name) [] allowPartial

end Meanings

end Context.Alike

end ScriptCheck
