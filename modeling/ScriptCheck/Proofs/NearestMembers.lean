import ScriptCheck.Proofs.ClimbLimits
import ScriptCheck.Proofs.SafeRules

/-!
# Which declaration of a member is found

A member is looked for twice: as a variable on the whole way up the bases, and only then as a function. Each of the two looks
finds what the first type with such a member declares (`Registry.memberVar_first`, `Registry.memberFunc_first`). So the nearest
declaration of a name is found unless the first variable of that name stands behind a function: then the variable is found, also
where the receiver's own type declares the function.
-/

namespace ScriptCheck

namespace Registry

variable {reg : Registry} {receiver t : Ty} {name : Name} {k : Nat}
variable {id : ItemId} {levels : Levels} {explicit : List Ty}

/-! ### Declarations on the way up -/

/-- The type itself declares a variable of this name. -/
def DeclaresVar (reg : Registry) (name : Name) (t : Ty) : Prop := ∃ id, t.head? = some id ∧ reg.var? (id.child name 0) ≠ none

/-- The type itself declares a function of this name. -/
def DeclaresFunc (reg : Registry) (name : Name) (t : Ty) : Prop := ∃ id, t.head? = some id ∧ reg.memberFuncs id name ≠ []

/-- The type itself declares a variable or a function of this name. -/
def Declares (reg : Registry) (name : Name) (t : Ty) : Prop := reg.DeclaresVar name t ∨ reg.DeclaresFunc name t

/-- The first variable of this name is declared further up than the first function. -/
def VarBehind (reg : Registry) (receiver : Ty) (name : Name) : Prop :=
  ∃ j u k v, reg.First (reg.DeclaresFunc name) receiver j u ∧ reg.First (reg.DeclaresVar name) receiver k v ∧ j < k

theorem declaresVar_nominal : reg.DeclaresVar name (.nominal id levels) ↔ reg.var? (id.child name 0) ≠ none := by
  simp [DeclaresVar, Ty.head?, Ty.nominal?]

theorem declaresFunc_nominal : reg.DeclaresFunc name (.nominal id levels) ↔ reg.memberFuncs id name ≠ [] := by
  simp [DeclaresFunc, Ty.head?, Ty.nominal?]

/-- A look for a variable does not pass over a type that declares one. -/
theorem ownVar_ne_none (h : reg.DeclaresVar name t) : reg.ownVar name t ≠ none := by
  obtain ⟨id, hid, hvar⟩ := h
  obtain ⟨levels, rfl⟩ := Ty.eq_nominal_of_head? hid
  obtain ⟨r, hr⟩ := Option.ne_none_iff_exists'.1 hvar
  simp [ownVar, hr]

/-- What is found at a type is the variable that it declares. -/
theorem ownVar_eq_ok {found : Except LookupError VarRef} (h : reg.ownVar name t = some (.ok found)) :
    ∃ id levels, t = .nominal id levels ∧ reg.DeclaresVar name t ∧ found = .ok ⟨id.child name 0, Levels.nest levels []⟩ := by
  cases t with
  | nominal id levels =>
    rw [ownVar] at h
    split at h
    · unfold passOver at h
      split at h <;> cases h
    · rename_i r hr
      obtain ⟨v, hv, rfl⟩ := Except.map_eq_ok.1 (Option.some.inj h)
      obtain ⟨-, rfl⟩ := VarRef.make_eq_ok.1 hv
      exact ⟨id, levels, rfl, declaresVar_nominal.2 (by simp [hr]), rfl⟩
  | _ => cases h

/-- A look for a function does not pass over a type that declares one. -/
theorem ownFunc_ne_none (h : reg.DeclaresFunc name t) : reg.ownFunc name explicit t ≠ none := by
  obtain ⟨id, hid, hfuncs⟩ := h
  obtain ⟨levels, rfl⟩ := Ty.eq_nominal_of_head? hid
  rw [ownFunc]
  split
  · rename_i hnil
    exact absurd hnil hfuncs
  · simp

/-- What is found at a type is chosen among the functions that it declares. -/
theorem ownFunc_eq_ok {found : Except LookupError FuncRef}
    (h : reg.ownFunc name explicit t = some (.ok found)) :
    ∃ id levels, t = .nominal id levels ∧ reg.DeclaresFunc name t ∧
      choose levels (reg.memberFuncs id name) explicit = .ok found := by
  cases t with
  | nominal id levels =>
    rw [ownFunc] at h
    split at h
    · unfold passOver at h
      split at h <;> cases h
    · rename_i hne
      exact ⟨id, levels, rfl, declaresFunc_nominal.2 hne, Option.some.inj h⟩
  | _ => cases h

/-! ### The two looks -/

/-- A variable is found at the first type that declares one. -/
theorem memberVar_first {_ : Patience} {found : Except LookupError VarRef} (hends : ∃ n, follow reg.baseOf n receiver = none)
    (h : reg.memberVar receiver name [] = .ok found) :
    (∃ k id levels, reg.First (reg.DeclaresVar name) receiver k (.nominal id levels) ∧
      found = .ok ⟨id.child name 0, Levels.nest levels []⟩) ∨
    (∀ k t, follow reg.baseOf k receiver = some t → ¬reg.DeclaresVar name t) ∧ found = .error .notFound := by
  simp only [memberVar, List.isEmpty_nil, if_true] at h
  rcases climb_cases (reg.ownVar name) hends with ⟨k, t, a, hfirst, ha, hclimb⟩ | ⟨hnone, hclimb⟩
  · rw [hclimb, Option.getD_some] at h
    subst h
    obtain ⟨id, levels, rfl, hdecl, hfound⟩ := ownVar_eq_ok ha
    exact .inl ⟨k, id, levels, hfirst.mono hdecl fun v => ownVar_ne_none, hfound⟩
  · rw [hclimb, Option.getD_none] at h
    cases h
    exact .inr ⟨fun k t ht hdecl => ownVar_ne_none hdecl (hnone k t ht), rfl⟩

/-- A function is chosen among those of the first type that declares any. -/
theorem memberFunc_first {_ : Patience} {found : Except LookupError FuncRef}
    (hends : ∃ n, follow reg.baseOf n receiver = none) (h : reg.memberFunc receiver name explicit = .ok found) :
    (∃ k id levels, reg.First (reg.DeclaresFunc name) receiver k (.nominal id levels) ∧
      choose levels (reg.memberFuncs id name) explicit = .ok found) ∨
    (∀ k t, follow reg.baseOf k receiver = some t → ¬reg.DeclaresFunc name t) ∧ found = .error .notFound := by
  unfold memberFunc at h
  rcases climb_cases (reg.ownFunc name explicit) hends with ⟨k, t, a, hfirst, ha, hclimb⟩ | ⟨hnone, hclimb⟩
  · rw [hclimb, Option.getD_some] at h
    subst h
    obtain ⟨id, levels, rfl, hdecl, hfound⟩ := ownFunc_eq_ok ha
    exact .inl ⟨k, id, levels, hfirst.mono hdecl fun v => ownFunc_ne_none, hfound⟩
  · rw [hclimb, Option.getD_none] at h
    cases h
    exact .inr ⟨fun k t ht hdecl => ownFunc_ne_none hdecl (hnone k t ht), rfl⟩

theorem memberFuncs_id (hc : ∀ m ∈ reg, m.Consistent) {r : FuncRecord} (hr : r ∈ reg.memberFuncs id name) :
    r.id = id.child name r.typeParams.length := by
  obtain ⟨m, hm, hr⟩ := List.mem_flatMap.1 hr
  exact ((hc m hm).funcsNamed hr).1

/-- A function that is chosen is declared by the type whose functions it is chosen among. -/
theorem outer?_choose (hc : ∀ m ∈ reg, m.Consistent) {f : FuncRef}
    (h : choose levels (reg.memberFuncs id name) explicit = .ok (.ok f)) : f.id.outer? = some id := by
  obtain ⟨r, rest, hpick, -, hmake⟩ := choose_eq_ok h
  obtain ⟨-, rfl⟩ := FuncRef.make_eq_ok.1 hmake
  rw [memberFuncs_id hc (Selects.of_pick hpick).of_ok.1, ItemId.outer?_child]

/-- Where a type declares functions of the name, the reason for choosing none is not that there are none. -/
theorem choose_ne_notFound {candidates : List FuncRecord} : choose levels candidates explicit ≠ .ok (.error .notFound) := by
  intro h
  obtain ⟨picked, hpick, h⟩ := Except.bind_eq_ok.1 h
  cases picked with
  | ok r =>
    obtain ⟨rest, -, h⟩ := Except.bind_eq_ok.1 h
    obtain ⟨f, -, h⟩ := Except.bind_eq_ok.1 h
    cases h
  | error e =>
    cases h
    cases Selects.of_pick hpick

/-! ### The member that is found -/

/-- The member is declared `k` steps up, by `t`: a variable by the first type that declares one of this name; a function by the
first type that declares one, where there is no such variable on the whole way. -/
def FoundAt (reg : Registry) (receiver : Ty) (name : Name) (k : Nat) (t : Ty) : MemberRef → Prop
  | .var v => reg.First (reg.DeclaresVar name) receiver k t ∧ v.id.outer? = t.head?
  | .func f => reg.First (reg.DeclaresFunc name) receiver k t ∧ f.id.outer? = t.head? ∧
      ∀ j u, follow reg.baseOf j receiver = some u → ¬reg.DeclaresVar name u

/-- The type at which a member is found is the first to declare anything of this name unless a variable stands behind a
function. -/
theorem FoundAt.first_iff {found : MemberRef} (h : reg.FoundAt receiver name k t found) :
    reg.First (reg.Declares name) receiver k t ↔ ¬reg.VarBehind receiver name := by
  cases found with
  | var v =>
    obtain ⟨hfirst, -⟩ := h
    constructor
    · rintro hall ⟨j, u, k', v, hfunc, hvar, hlt⟩
      obtain ⟨rfl, rfl⟩ := hfirst.unique hvar
      exact hall.before j u hlt hfunc.reached (.inr hfunc.holds)
    · intro hnot
      refine ⟨hfirst.reached, .inl hfirst.holds, fun j u hj hu hdecl => ?_⟩
      rcases hdecl with hvar | hfunc
      · exact hfirst.before j u hj hu hvar
      · obtain ⟨i, w, hi, hw⟩ := exists_first hu hfunc
        exact hnot ⟨i, w, k, t, hw, hfirst, by omega⟩
  | func f =>
    obtain ⟨hfirst, -, hvars⟩ := h
    constructor
    · rintro - ⟨j, u, k', v, -, hvar, -⟩
      exact hvars k' v hvar.reached hvar.holds
    · intro _
      refine ⟨hfirst.reached, .inr hfirst.holds, fun j u hj hu hdecl => ?_⟩
      rcases hdecl with hvar | hfunc
      · exact hvars j u hu hvar
      · exact hfirst.before j u hj hu hfunc

/-- A member is found where the first variable of its name is declared, or else where the first function is. -/
theorem member_foundAt {_ : Patience} (hc : ∀ m ∈ reg, m.Consistent) (hends : ∃ n, follow reg.baseOf n receiver = none)
    {args : List Ty} {found : MemberRef} (h : reg.member receiver name args = .ok (.ok found)) :
    ∃ k t, reg.FoundAt receiver name k t found := by
  obtain ⟨asVar, hvar, h⟩ := Except.bind_eq_ok.1 h
  rcases memberVar_first hends hvar with ⟨k, id, levels, hfirst, rfl⟩ | ⟨hnone, rfl⟩
  · simp only [Except.pure_eq_ok] at h
    split at h
    · cases h
      exact ⟨k, _, hfirst, ItemId.outer?_child id name 0⟩
    · cases h
  · obtain ⟨asFunc, hfunc, h⟩ := Except.bind_eq_ok.1 h
    simp only [Except.pure_eq_ok, Except.map_eq_ok] at h
    obtain ⟨f, rfl, rfl⟩ := h
    rcases memberFunc_first hends hfunc with ⟨k, id, levels, hfirst, hchosen⟩ | ⟨-, habs⟩
    · exact ⟨k, _, hfirst, outer?_choose hc hchosen, hnone⟩
    · cases habs

/-- Nothing is found only where no type on the way declares anything of the name. -/
theorem member_notFound {_ : Patience} (hends : ∃ n, follow reg.baseOf n receiver = none) {args : List Ty}
    (h : reg.member receiver name args = .ok (.error .notFound)) (hk : follow reg.baseOf k receiver = some t) :
    ¬reg.Declares name t := by
  obtain ⟨asVar, hvar, h⟩ := Except.bind_eq_ok.1 h
  rcases memberVar_first hends hvar with ⟨_, id, levels, -, rfl⟩ | ⟨hvars, rfl⟩
  · simp only [Except.pure_eq_ok] at h
    split at h <;> cases h
  · obtain ⟨asFunc, hfunc, h⟩ := Except.bind_eq_ok.1 h
    rcases memberFunc_first hends hfunc with ⟨_, id, levels, -, hchosen⟩ | ⟨hfuncs, rfl⟩
    · cases asFunc with
      | ok f => cases h
      | error e =>
        cases h
        exact absurd hchosen choose_ne_notFound
    · rintro (hdecl | hdecl)
      · exact hvars k t hk hdecl
      · exact hfuncs k t hk hdecl

end Registry

/-! ### Member accesses -/

/-- The access reaches the member: a variable through the object or the type that it is reached through, with the variable's
type; or a function, together with the object. -/
def MemberRef.UsedAs (reg : Registry) (object : Option Nat) (receiver : Ty) (name : Name) : MemberRef → MemberUse → Prop
  | .var v, use => ∃ ty, reg.varType v = .ok ty ∧
      use = .storage ((object.map fun o => Storage.instanceMember o receiver name).getD (.staticMember none v)) ty
  | .func f, use => use = .func f object

namespace Check

variable {ctx : Context} {node : Node} {object : Option Nat} {t : Ty} {name : Name} {args : List Ty} {s s' : State}
  {use : MemberUse}

/-- A member that was found is reached, or it is reported that it belongs to the type and not to its values, or the other way
round. -/
theorem useMember_cases {found : MemberRef} (hrun : useMember ctx node object t name found s = .ok (use, s')) :
    (∃ isStatic, report (.staticInstanceMismatch name isStatic) node s = .ok ((), s') ∧ use = .unresolved) ∨
      s' = s ∧ found.UsedAs ctx.registry object t name use := by
  obtain ⟨isStatic, _, hstatic, h⟩ := bind_eq_ok.1 hrun
  obtain ⟨-, rfl⟩ := lift_eq_ok.1 hstatic
  split at h
  · obtain ⟨_, _, hreport, h⟩ := bind_eq_ok.1 h
    obtain ⟨rfl, rfl⟩ := pure_eq_ok.1 h
    exact .inl ⟨isStatic, hreport, rfl⟩
  · cases found with
    | func f =>
      obtain ⟨rfl, rfl⟩ := pure_eq_ok.1 h
      exact .inr ⟨rfl, rfl⟩
    | var v =>
      obtain ⟨ty, _, hlift, hused⟩ := bind_eq_ok.1 h
      obtain ⟨hty, rfl⟩ := lift_eq_ok.1 hlift
      cases object with
      | some o =>
        obtain ⟨rfl, rfl⟩ := pure_eq_ok.1 hused
        exact .inr ⟨rfl, ty, hty, rfl⟩
      | none =>
        obtain ⟨rfl, rfl⟩ := pure_eq_ok.1 hused
        exact .inr ⟨rfl, ty, hty, rfl⟩

/-- A member access reports a problem, or reaches a case of the receiver itself, or the member that is found. -/
theorem memberOf_cases {id : ItemId} {levels : Levels}
    (hrun : memberOf ctx node object (.nominal id levels) name args s = .ok (use, s')) :
    (∃ problem, report problem node s = .ok ((), s') ∧ use = .unresolved ∧
      (problem = .unknownMember (.nominal id levels) name →
        ctx.member (.nominal id levels) name args = .ok (.error .notFound))) ∨
    (s' = s ∧ ctx.registry.isEnumCase id name = true ∧ use = .storage (.enumCase name) (.nominal id levels)) ∨
    ∃ found, ctx.member (.nominal id levels) name args = .ok (.ok found) ∧ s' = s ∧
      found.UsedAs ctx.registry object (.nominal id levels) name use := by
  rw [memberOf] at hrun
  split at hrun
  · rename_i hcase
    obtain ⟨rfl, rfl⟩ := pure_eq_ok.1 hrun
    rw [Bool.and_eq_true] at hcase
    exact .inr (.inl ⟨rfl, hcase.2, rfl⟩)
  · obtain ⟨found, _, hlift, h⟩ := bind_eq_ok.1 hrun
    obtain ⟨hfound, rfl⟩ := lift_eq_ok.1 hlift
    cases found with
    | ok found =>
      rcases useMember_cases h with ⟨isStatic, hreport, rfl⟩ | hused
      · exact .inl ⟨_, hreport, rfl, fun habs => by cases habs⟩
      · exact .inr (.inr ⟨found, hfound, hused⟩)
    | error e =>
      obtain ⟨_, _, hreport, h⟩ := bind_eq_ok.1 h
      obtain ⟨rfl, rfl⟩ := pure_eq_ok.1 h
      refine .inl ⟨_, hreport, rfl, fun hproblem => ?_⟩
      cases e with
      | notFound => exact hfound
      | ambiguous count => cases hproblem
      | typeArgCount expected found => cases hproblem

end Check

/-! ### The main statement -/

/-- A member access through a value or through the name of a type, over a chain of bases that ends, reports a problem, or
reaches a case of the receiver itself, or reaches a member that is found on the way up: the variable that the first type with
such a variable declares, or else a function that the first type with such a function declares. The type that declares the
member is the first on the way to declare a variable or a function of the name exactly if no variable of the name stands behind
a function of it; then a receiver that declares the name itself is the one whose member is found. It is said that there is no
such member only where no type on the way declares one, and over modules in order the access has an answer. -/
theorem nearest_declaration_wins_unless_variable_behind (ctx : Context) (node : Node) (object : Option Nat) (id : ItemId)
    (levels : Levels) (name : Name) (args : List Ty) (s : State) (hc : ∀ m ∈ ctx.registry, m.Consistent)
    (hends : ∃ n, follow ctx.registry.baseOf n (.nominal id levels) = none) :
    (∀ use s', Check.memberOf ctx node object (.nominal id levels) name args s = .ok (use, s') →
      (∃ problem, s' = { s with diagnostics := s.diagnostics ++ [⟨problem, node⟩] } ∧ use = .unresolved ∧
        (problem = .unknownMember (.nominal id levels) name →
          ∀ k t, follow ctx.registry.baseOf k (.nominal id levels) = some t → ¬ctx.registry.Declares name t)) ∨
      (s' = s ∧ ctx.registry.isEnumCase id name = true ∧ use = .storage (.enumCase name) (.nominal id levels)) ∨
      ∃ found k t, s' = s ∧ found.UsedAs ctx.registry object (.nominal id levels) name use ∧
        ctx.registry.FoundAt (.nominal id levels) name k t found ∧
        (ctx.registry.First (ctx.registry.Declares name) (.nominal id levels) k t ↔
          ¬ctx.registry.VarBehind (.nominal id levels) name) ∧
        (ctx.registry.Declares name (.nominal id levels) → ¬ctx.registry.VarBehind (.nominal id levels) name →
          t = .nominal id levels)) ∧
    (ctx.WellFormed → (Ty.nominal id levels).WellFormed → (∀ t ∈ args, t.WellFormed) → s.WellFormed →
      ∃ use s', Check.memberOf ctx node object (.nominal id levels) name args s = .ok (use, s')) := by
  refine ⟨fun use s' hrun => ?_, fun hctx ht ha hs => ?_⟩
  · rcases Check.memberOf_cases hrun with ⟨problem, hreport, huse, hnone⟩ | hcase | ⟨found, hfound, rfl, huse⟩
    · rw [Check.report_apply] at hreport
      cases hreport
      exact .inl ⟨problem, rfl, huse, fun hproblem k t => Registry.member_notFound hends (hnone hproblem)⟩
    · exact .inr (.inl hcase)
    · obtain ⟨k, t, hat⟩ := Registry.member_foundAt hc hends hfound
      refine .inr (.inr ⟨found, k, t, rfl, huse, hat, hat.first_iff, fun hown hnot => ?_⟩)
      have hfirst := hat.first_iff.2 hnot
      obtain rfl : k = 0 := Nat.le_zero.1 (hfirst.le rfl hown)
      exact (Option.some.inj hfirst.reached).symm
  · obtain ⟨use, s', hrun, -⟩ := Check.memberOf_safe hctx ht ha hs
    exact ⟨use, s', hrun⟩

namespace Sample

/-- `class Ware { int size; int cost(); }` and `class Tin : Ware { int size(); int cost(); }` -/
def wares : Module :=
  Module.empty "Wares"
    |>.putType (plainClass "Wares" "Ware" none)
    |>.putType (plainClass "Wares" "Tin" (some (.nominal (plainId "Wares" "Ware") [[]])))
    |>.putVar ⟨(plainId "Wares" "Ware").child (.text "size") 0, Builtin.int, false⟩
    |>.putFunc ⟨(plainId "Wares" "Ware").child (.text "cost") 0, [], [], Builtin.int, false, false⟩
    |>.putFunc ⟨(plainId "Wares" "Tin").child (.text "size") 0, [], [], Builtin.int, false, false⟩
    |>.putFunc ⟨(plainId "Wares" "Tin").child (.text "cost") 0, [], [], Builtin.int, false, false⟩

def tin : Ty := .nominal (plainId "Wares" "Tin") [[]]

/-- A context in which `Wares` is known. -/
def wareContext : Context := ⟨"Sample", captures, [wares], .empty, []⟩

theorem wares_consistent : ∀ m ∈ wareContext.registry, m.Consistent := by
  intro m hm
  obtain rfl := List.mem_singleton.1 hm
  refine .putFunc (.putFunc (.putFunc (.putVar (.putType (.putType (.empty _) ?_) ?_) ?_) ?_) ?_) ?_ <;> decide

end Sample

/-- `cost` is found on `Tin` itself, which is the first type to declare it. -/
theorem sample_nearest_declaration_wins : (∀ m ∈ Sample.wareContext.registry, m.Consistent) ∧
    follow Sample.wareContext.registry.baseOf 2 Sample.tin = none ∧
    Check.memberOf Sample.wareContext (Sample.nd 0) (some 1) Sample.tin (.text "cost") [] .initial =
      .ok (.func ⟨(Sample.plainId "Wares" "Tin").child (.text "cost") 0, [[], []]⟩ (some 1), .initial) ∧
    ∃ k, Sample.wareContext.registry.First (Sample.wareContext.registry.Declares (.text "cost")) Sample.tin k Sample.tin := by
  have hends : follow Sample.wareContext.registry.baseOf 2 Sample.tin = none := by decide +kernel
  have hown : Sample.wareContext.registry.Declares (.text "cost") Sample.tin := .inr ⟨_, rfl, by decide +kernel⟩
  refine ⟨Sample.wares_consistent, hends, rfl, ?_⟩
  obtain ⟨hreached, -⟩ := nearest_declaration_wins_unless_variable_behind Sample.wareContext (Sample.nd 0) (some 1) _ _
    (.text "cost") [] .initial Sample.wares_consistent ⟨2, hends⟩
  rcases hreached _ _ rfl with ⟨_, -, huse, -⟩ | ⟨-, -, huse⟩ | ⟨found, k, t, -, huse, hat, hfirst, hself⟩
  · cases huse
  · cases huse
  · cases found with
    | var v =>
      obtain ⟨ty, -, huse⟩ := huse
      cases huse
    | func f =>
      have hnot : ¬Sample.wareContext.registry.VarBehind Sample.tin (.text "cost") := by
        rintro ⟨_, _, k', v, -, hvar, -⟩
        exact hat.2.2 k' v hvar.reached hvar.holds
      obtain rfl := hself hown hnot
      exact ⟨k, hfirst.2 hnot⟩

/-- `Tin` declares a function `size`, and yet the `size` of a `Tin` is the variable of its base. -/
theorem variable_of_base_hides_own_function : (∀ m ∈ Sample.wareContext.registry, m.Consistent) ∧
    follow Sample.wareContext.registry.baseOf 2 Sample.tin = none ∧
    Sample.wareContext.registry.DeclaresFunc (.text "size") Sample.tin ∧
    Sample.wareContext.member Sample.tin (.text "size") [] =
      .ok (.ok (.var ⟨(Sample.plainId "Wares" "Ware").child (.text "size") 0, [[], []]⟩)) ∧
    Check.memberOf Sample.wareContext (Sample.nd 0) (some 1) Sample.tin (.text "size") [] .initial =
      .ok (.storage (.instanceMember 1 Sample.tin (.text "size")) Builtin.int, .initial) := by
  refine ⟨Sample.wares_consistent, by decide +kernel, ?_, rfl, rfl⟩
  exact ⟨_, rfl, by decide +kernel⟩

end ScriptCheck
