import ScriptCheck.Proofs.BaseChains
import ScriptCheck.Proofs.ParamScopes

/-!
# Instances of declarations

A declaration is written in type parameters, and a use of it says what they stand for. When the use itself is written in other
type parameters and these are replaced later, the order makes no difference: replacing them in the use and then looking up its
base, a member or the type of a member gives what looking up first and replacing afterwards gives. This needs every type
parameter that a record mentions to be introduced on the way to the record, for then the arguments of the use replace it, and
nothing of the record is left for the second replacement. So a type stays assignable to another under every replacement.
-/

namespace ScriptCheck

/-! ### Replacing twice -/

namespace Ty

mutual

/-- Two replacements in a row are one, if that one puts for each parameter what the two put for it. -/
theorem subst_subst {env env' both : Env} : ∀ {t : Ty}, (∀ ref ∈ t.paramRefs,
    ((env.find? ref).getD (.param ref)).subst env' = (both.find? ref).getD (.param ref)) →
    (t.subst env).subst env' = t.subst both
  | .void, _ => rfl
  | .unresolved, _ => rfl
  | .param ref, h => h ref (mem_paramRefs_param.2 rfl)
  | .nominal id levels, h => by
    rw [subst, subst, subst, substLevels_substLevels fun t ht ref hr => h ref (mem_paramRefs_nominal.2 ⟨t, ht, hr⟩)]
  | .func ret params, h => by
    rw [subst, subst, subst, subst_subst fun ref hr => h ref (mem_paramRefs_func.2 (.inl hr)),
      substList_substList fun t ht ref hr => h ref (mem_paramRefs_func.2 (.inr ⟨t, ht, hr⟩))]

theorem substList_substList {env env' both : Env} : ∀ {ts : List Ty}, (∀ t ∈ ts, ∀ ref ∈ t.paramRefs,
    ((env.find? ref).getD (.param ref)).subst env' = (both.find? ref).getD (.param ref)) →
    substList env' (substList env ts) = substList both ts
  | [], _ => rfl
  | t :: ts, h => by
    obtain ⟨ht, hs⟩ := List.forall_mem_cons.1 h
    rw [substList, substList, substList, subst_subst ht, substList_substList hs]

theorem substLevels_substLevels {env env' both : Env} : ∀ {ls : List (List Ty)}, (∀ t ∈ ls.flatten, ∀ ref ∈ t.paramRefs,
    ((env.find? ref).getD (.param ref)).subst env' = (both.find? ref).getD (.param ref)) →
    substLevels env' (substLevels env ls) = substLevels both ls
  | [], _ => rfl
  | l :: ls, h => by
    rw [List.flatten_cons, List.forall_mem_append] at h
    rw [substLevels, substLevels, substLevels, substList_substList h.1, substLevels_substLevels h.2]

end

theorem fits_substLevels {levels : Levels} {id : ItemId} (env : Env) (h : levels.fits id = true) :
    Levels.fits (substLevels env levels) id = true := by
  simp only [Levels.fits, decide_eq_true_eq] at h ⊢
  rw [map_length_substLevels, h]

end Ty

/-! ### Arguments in which parameters are replaced -/

namespace Registry

variable {reg : Registry} {id : ItemId} {levels : Levels} {env : Env}

/-- A declaration on the way to `id` is known to introduce the type parameter. -/
def Introduces (reg : Registry) (id : ItemId) (ref : ParamRef) : Prop :=
  ref.owner ∈ id.enclosing ∧ ref.name ∈ (reg.typeParams? ref.owner).getD []

instance (id : ItemId) (ref : ParamRef) : Decidable (reg.Introduces id ref) := inferInstanceAs (Decidable (_ ∧ _))

/-- Some record of a declaration on the way to `id` names the type parameter, be it the one that a look-up finds or not. -/
def Names (reg : Registry) (id : ItemId) (ref : ParamRef) : Prop :=
  ref.owner ∈ id.enclosing ∧
    ((∃ r ∈ reg.typesAt ref.owner, ref.name ∈ r.typeParams) ∨ ∃ r ∈ reg.funcsAt ref.owner, ref.name ∈ r.typeParams)

instance (id : ItemId) (ref : ParamRef) : Decidable (reg.Names id ref) := inferInstanceAs (Decidable (_ ∧ _))

theorem bindLevel_subst {bound bound' : Env} (hb : ∀ ref, bound'.find? ref = (bound.find? ref).map (Ty.subst env))
    (owner : ItemId) (args : List Ty) (ref : ParamRef) :
    (reg.bindLevel bound' owner (args.map (Ty.subst env))).find? ref =
      ((reg.bindLevel bound owner args).find? ref).map (Ty.subst env) := by
  unfold bindLevel
  generalize (reg.typeParams? owner).getD [] = names
  induction names generalizing args bound bound' with
  | nil => exact hb ref
  | cons name names ih =>
    cases args with
    | nil => exact hb ref
    | cons t ts =>
      simp only [List.map_cons, List.zip_cons_cons, List.foldl_cons]
      refine ih (fun r => ?_) ts
      rw [Table.find?_insert, Table.find?_insert, hb r]
      split <;> rfl

theorem foldl_bindLevel_subst (pairs : List (ItemId × List Ty)) {bound bound' : Env}
    (hb : ∀ ref, bound'.find? ref = (bound.find? ref).map (Ty.subst env)) (ref : ParamRef) :
    ((pairs.map (fun b => (b.1, b.2.map (Ty.subst env)))).foldl (fun e b => reg.bindLevel e b.1 b.2) bound').find? ref =
      ((pairs.foldl (fun e b => reg.bindLevel e b.1 b.2) bound).find? ref).map (Ty.subst env) := by
  induction pairs generalizing bound bound' with
  | nil => exact hb ref
  | cons p pairs ih => exact ih fun r => bindLevel_subst hb p.1 p.2 r

/-- The arguments with parameters replaced bind each parameter to what it was bound to, with parameters replaced. -/
theorem bindings_subst (reg : Registry) (env : Env) (id : ItemId) (levels : Levels) (ref : ParamRef) :
    (reg.bindings id (Ty.substLevels env levels)).find? ref = ((reg.bindings id levels).find? ref).map (Ty.subst env) := by
  unfold bindings
  rw [Ty.substLevels_eq_map, List.zip_map_right]
  exact foldl_bindLevel_subst _ (fun _ => rfl) ref

/-- What is written inside a declaration, seen through arguments with parameters replaced, is what was seen, with parameters
replaced. -/
theorem applyIn_substLevels (hc : ∀ m ∈ reg, m.Consistent) (hf : levels.fits id = true) {t : Ty}
    (ht : t.AllParams (reg.Introduces id)) :
    reg.applyIn id (Ty.substLevels env levels) t = (reg.applyIn id levels t).substitute env := by
  simp only [applyIn, Ty.substitute_eq_subst]
  refine (Ty.subst_subst fun ref hr => ?_).symm
  obtain ⟨howner, hname⟩ := ht ref hr
  cases hparams : reg.typeParams? ref.owner with
  | none => simp [hparams] at hname
  | some names =>
    rw [hparams, Option.getD_some] at hname
    obtain ⟨u, hu⟩ := Option.isSome_iff_exists.1 (bindings_isSome hc hf howner hparams hname)
    rw [bindings_subst, hu]
    rfl

/-! ### Bases of instances -/

/-- Every base is a declared type with fitting arguments, it mentions only type parameters that are introduced on the way to the
derived type, and bases do not go round in circles. -/
structure BasesInOrder (reg : Registry) : Prop where
  consistent : ∀ m ∈ reg, m.Consistent
  bases : ∀ m ∈ reg, ∀ e ∈ m.types.entries, ∀ b ∈ e.2.base,
    b.nominal?.isSome ∧ b.WellFormed ∧ b.AllParams (reg.Introduces e.1)
  acyclic : ∀ id n, follow reg.baseId? (n + 1) id ≠ some id

/-- A type is assignable to those that are met on the way up its bases, if there the way ends. -/
theorem assignable_iff [Patience] {target source : Ty} (hends : follow reg.baseOf (reg.reach source) source = none) :
    reg.assignable target source = true ↔ ∃ n, follow reg.baseOf n source = some target := by
  unfold assignable climb
  generalize reg.reach source = limit at hends
  induction limit generalizing source with
  | zero => cases hends
  | succ limit ih =>
    rw [climbWithin]
    by_cases heq : source = target
    · subst heq
      simp only [if_true, Option.isSome_some, true_iff]
      exact ⟨0, rfl⟩
    · rw [if_neg heq]
      cases hb : reg.baseOf source with
      | none =>
        simp only [Option.isSome_none, Bool.false_eq_true, false_iff]
        rintro ⟨n, hn⟩
        cases n with
        | zero => exact heq (Option.some.inj hn)
        | succ n =>
          rw [follow, hb] at hn
          cases hn
      | some base =>
        rw [follow, hb, Option.bind_some] at hends
        rw [ih hends]
        constructor
        · rintro ⟨n, hn⟩
          exact ⟨n + 1, by rw [follow, hb, Option.bind_some, hn]⟩
        · rintro ⟨n, hn⟩
          cases n with
          | zero => exact absurd (Option.some.inj hn) heq
          | succ n =>
            rw [follow, hb, Option.bind_some] at hn
            exact ⟨n, hn⟩

namespace BasesInOrder

variable {t u : Ty}

theorem base (h : reg.BasesInOrder) {r : TypeRecord} {b : Ty} (hr : reg.type? id = some r) (hb : r.base = some b) :
    b.nominal?.isSome ∧ b.WellFormed ∧ b.AllParams (reg.Introduces id) := by
  obtain ⟨m, hm, hfind⟩ := List.exists_of_findSome?_eq_some hr
  exact h.bases m hm (id, r) (Table.mem_of_findIn hfind) b hb

theorem derives (h : reg.BasesInOrder) : reg.Derives := by
  intro id r b hr hb
  have hnominal := (h.base hr hb).1
  cases b with
  | param ref => cases hnominal
  | _ => rfl

/-- No climb is cut short. -/
theorem follow_reach [Patience] (h : reg.BasesInOrder) (t : Ty) : follow reg.baseOf (reg.reach t) t = none :=
  follow_eq_none_of_le (follow_baseOf_limit h.derives (ends_of_acyclic h.acyclic) t) (Nat.le_add_right _ _)

/-- The base of a type with parameters replaced is its base with parameters replaced. -/
theorem baseOf_substitute (h : reg.BasesInOrder) (hf : levels.fits id = true) (env : Env) :
    reg.baseOf ((Ty.nominal id levels).substitute env) = (reg.baseOf (.nominal id levels)).map (·.substitute env) := by
  rw [Ty.substitute_eq_subst, Ty.subst, baseOf, baseOf]
  cases hr : reg.type? id with
  | none => rfl
  | some r =>
    simp only [Option.bind_eq_bind, Option.bind_some]
    cases hb : r.base with
    | none => rfl
    | some b => exact congrArg some (applyIn_substLevels h.consistent hf (h.base hr hb).2.2)

theorem baseOf_nominal (h : reg.BasesInOrder) (ht : t.WellFormed) (hb : reg.baseOf t = some u) :
    u.WellFormed ∧ ∃ id levels, u = .nominal id levels := by
  obtain ⟨id, levels, r, b, rfl, hr, hbase, rfl⟩ := baseOf_eq_some hb
  obtain ⟨hnominal, hfits, -⟩ := h.base hr hbase
  refine ⟨applyIn_inherits (Ty.wellFormed_nominal.1 ht).2 hfits, ?_⟩
  rw [applyIn, Ty.substitute_eq_subst]
  cases b with
  | nominal id' levels' => exact ⟨id', _, rfl⟩
  | _ => cases hnominal

/-- Replacing parameters in a type replaces them all the way up its bases. -/
theorem follow_substitute (h : reg.BasesInOrder) (env : Env) {n : Nat} (ht : t.WellFormed)
    (hfollow : follow reg.baseOf n t = some u) : follow reg.baseOf n (t.substitute env) = some (u.substitute env) := by
  induction n generalizing t with
  | zero =>
    cases hfollow
    rfl
  | succ n ih =>
    obtain ⟨v, hv, hrest⟩ := Option.bind_eq_some_iff.1 hfollow
    obtain ⟨id, levels, -, -, rfl, -⟩ := baseOf_eq_some hv
    rw [follow, h.baseOf_substitute (Ty.wellFormed_nominal.1 ht).1, hv, Option.map_some, Option.bind_some]
    exact ih (h.baseOf_nominal ht hv).1 hrest

theorem climbWithin_substitute (h : reg.BasesInOrder) {α β : Type} {visit : Ty → Option α} {visit' : Ty → Option β} {env : Env}
    {R : α → β → Prop} (hv : ∀ id levels, (Ty.nominal id levels).WellFormed →
      Option.Rel R (visit (.nominal id levels)) (visit' ((Ty.nominal id levels).substitute env)))
    (ht : (Ty.nominal id levels).WellFormed) (limit : Nat) : Option.Rel R (reg.climbWithin visit limit (.nominal id levels))
      (reg.climbWithin visit' limit ((Ty.nominal id levels).substitute env)) := by
  induction limit generalizing id levels with
  | zero =>
    rw [climbWithin, climbWithin]
    have hrel := hv id levels ht
    generalize visit (.nominal id levels) = found at hrel ⊢
    generalize visit' ((Ty.nominal id levels).substitute env) = found' at hrel ⊢
    cases hrel with
    | none => exact .none
    | some hr => exact .some hr
  | succ limit ih =>
    rw [climbWithin, climbWithin]
    have hrel := hv id levels ht
    generalize visit (.nominal id levels) = found at hrel ⊢
    generalize visit' ((Ty.nominal id levels).substitute env) = found' at hrel ⊢
    cases hrel with
    | some hr => exact .some hr
    | none =>
      rw [h.baseOf_substitute (Ty.wellFormed_nominal.1 ht).1]
      cases hb : reg.baseOf (.nominal id levels) with
      | none => exact .none
      | some base =>
        obtain ⟨hfits, id', levels', rfl⟩ := h.baseOf_nominal ht hb
        exact ih hfits

/-- What a climb finds from a type and from the type with parameters replaced is related as what is found at each place of the
way up is. -/
theorem climb_substitute [Patience] (h : reg.BasesInOrder) {α β : Type} {visit : Ty → Option α} {visit' : Ty → Option β}
    {env : Env}
    {R : α → β → Prop} (hv : ∀ id levels, (Ty.nominal id levels).WellFormed →
      Option.Rel R (visit (.nominal id levels)) (visit' ((Ty.nominal id levels).substitute env)))
    (ht : (Ty.nominal id levels).WellFormed) :
    Option.Rel R (reg.climb visit (.nominal id levels)) (reg.climb visit' ((Ty.nominal id levels).substitute env)) := by
  -- The two climbs have limits of their own, but neither needs as much.
  have hrel := h.climbWithin_substitute hv ht
    (max (reg.reach (.nominal id levels)) (reg.reach ((Ty.nominal id levels).substitute env)))
  rwa [climbWithin_of_ends (h.follow_reach _) (Nat.le_max_left _ _),
    climbWithin_of_ends (h.follow_reach _) (Nat.le_max_right _ _)] at hrel

end BasesInOrder

/-! ### Members of instances -/

theorem applyFunc_substLevels (hc : ∀ m ∈ reg, m.Consistent) {f : FuncRef} (hf : f.levels.fits f.id = true) {sig : Signature}
    (hs : ∀ t ∈ sig.types, t.AllParams (reg.Introduces f.id)) :
    reg.applyFunc ⟨f.id, Ty.substLevels env f.levels⟩ sig = (reg.applyFunc f sig).substitute env := by
  obtain ⟨hret, hparams⟩ := List.forall_mem_cons.1 hs
  simp only [applyFunc, Signature.substitute, List.map_map]
  congr 1
  · exact applyIn_substLevels hc hf hret
  · exact List.map_congr_left fun t ht => applyIn_substLevels hc hf (hparams t ht)

/-- Every record mentions only declared types with fitting arguments and type parameters that are introduced on the way to it,
every base is a declared type, and bases do not go round in circles. -/
structure InOrder (reg : Registry) : Prop where
  consistent : ∀ m ∈ reg, m.Consistent
  records : ∀ m ∈ reg, m.Meets fun id t => t.WellFormed ∧ t.AllParams (reg.Introduces id)
  bases : ∀ m ∈ reg, ∀ e ∈ m.types.entries, ∀ b ∈ e.2.base, b.nominal?.isSome
  acyclic : ∀ id n, follow reg.baseId? (n + 1) id ≠ some id

namespace InOrder

theorem basesInOrder (h : reg.InOrder) : reg.BasesInOrder where
  consistent := h.consistent
  bases m hm e he b hb := ⟨h.bases m hm e he b hb, (h.records m hm).types e he b (by simpa [TypeRecord.types] using hb)⟩
  acyclic := h.acyclic

theorem func? (h : reg.InOrder) {r : FuncRecord} (hr : reg.func? id = some r) :
    ∀ t ∈ r.types, t.AllParams (reg.Introduces id) := by
  obtain ⟨m, hm, hfind⟩ := List.exists_of_findSome?_eq_some hr
  exact fun t ht => ((h.records m hm).funcs (id, r) (Table.mem_of_findIn hfind) t ht).2

theorem var? (h : reg.InOrder) {r : VarRecord} (hr : reg.var? id = some r) : r.ty.AllParams (reg.Introduces id) := by
  obtain ⟨m, hm, hfind⟩ := List.exists_of_findSome?_eq_some hr
  exact ((h.records m hm).vars (id, r) (Table.mem_of_findIn hfind) r.ty (by simp [VarRecord.types])).2

end InOrder

end Registry

/-- Two look-ups fail for the same reason, or what they find is related. -/
inductive FoundAlike {α : Type} (R : α → α → Prop) : Except LookupError α → Except LookupError α → Prop where
  | ok {a a' : α} (h : R a a') : FoundAlike R (.ok a) (.ok a')
  | error (e : LookupError) : FoundAlike R (.error e) (.error e)

namespace Registry

variable {reg : Registry} {id : ItemId} {levels : Levels} {env : Env} {name : Name}
variable {candidates : List FuncRecord}

/-- The variables have one id, and the type of the second is that of the first with parameters replaced. -/
def VarsAlike (reg : Registry) (env : Env) (v v' : VarRef) : Prop :=
  v'.id = v.id ∧ ∃ t, reg.varType v = .ok t ∧ reg.varType v' = .ok (t.substitute env)

/-- The functions have one id, and the signature of the second is that of the first with parameters replaced. -/
def FuncsAlike (reg : Registry) (env : Env) (f f' : FuncRef) : Prop :=
  f'.id = f.id ∧ ∃ sig, reg.funcType f = .ok sig ∧ reg.funcType f' = .ok (sig.substitute env)

/-- None of the type parameters that the function itself introduces is replaced. -/
def LeavesOpen (reg : Registry) (env : Env) (f : FuncRef) : Prop :=
  ∀ r ∈ reg.funcsAt f.id, ∀ p ∈ r.typeParams, env.find? ⟨f.id, p⟩ = none

theorem choose_of_error {explicit : List Ty} {e : LookupError}
    (h : pickByArity candidates explicit.length = .ok (.error e)) : choose levels candidates explicit = .ok (.error e) := by
  rw [choose, h]
  rfl

theorem choose_of_pick {explicit rest : List Ty} {r : FuncRecord}
    (h : pickByArity candidates explicit.length = .ok (.ok r)) (hrest : r.openParams explicit.length = .ok rest)
    (hf : (Levels.nest levels (explicit ++ rest)).fits r.id = true) :
    choose levels candidates explicit = .ok (.ok ⟨r.id, Levels.nest levels (explicit ++ rest)⟩) := by
  simp only [choose, h, hrest, FuncRef.make, hf, if_true, bind, Except.bind, pure, Except.pure]

namespace InOrder

/-- A variable of a type, and the same variable of the type with parameters replaced. -/
theorem ownVar_substitute (h : reg.InOrder) (name : Name) (env : Env) (ht : (Ty.nominal id levels).WellFormed) :
    Option.Rel (fun x x' => ∃ v v', x = .ok (.ok v) ∧ x' = .ok (.ok v') ∧ reg.VarsAlike env v v')
      (reg.ownVar name (.nominal id levels)) (reg.ownVar name ((Ty.nominal id levels).substitute env)) := by
  have hf := (Ty.wellFormed_nominal.1 ht).1
  rw [Ty.substitute_eq_subst, Ty.subst, ownVar, ownVar]
  cases hr : reg.var? (id.child name 0) with
  | none =>
    simp only [passOver, hf, Ty.fits_substLevels env hf, if_true]
    exact .none
  | some r =>
    have hfits : (Levels.nest levels []).fits (id.child name 0) = true := Levels.fits_nest hf name
    have hnest : Levels.nest (Ty.substLevels env levels) [] = Ty.substLevels env (Levels.nest levels []) := by
      simp [Levels.nest, Ty.substLevels_eq_map]
    simp only [hnest, VarRef.make, hfits, Ty.fits_substLevels env hfits, if_true]
    refine .some ⟨_, _, rfl, rfl, rfl, _, varType_eq_ok.2 ⟨r, hr, rfl⟩, varType_eq_ok.2 ⟨r, hr, ?_⟩⟩
    exact (applyIn_substLevels h.consistent hfits (h.var? hr)).symm

/-- The function that is chosen for some type arguments is the one that is chosen for these with parameters replaced. -/
theorem choose_substitute (h : reg.InOrder) (hf : levels.fits id = true) (hne : candidates ≠ [])
    (hc : ∀ r ∈ candidates, r ∈ reg.memberFuncs id name) (explicit : List Ty)
    (hopen : ∀ f, choose levels candidates explicit = .ok (.ok f) → reg.LeavesOpen env f) :
    ∃ found found', choose levels candidates explicit = .ok found ∧
      choose (Ty.substLevels env levels) candidates (explicit.map (·.substitute env)) = .ok found' ∧
      FoundAlike (reg.FuncsAlike env) found found' := by
  obtain ⟨picked, hpick, hp⟩ := pickByArity_selects hne explicit.length
  have hpick' : pickByArity candidates (explicit.map (·.substitute env)).length = .ok picked := by rw [List.length_map, hpick]
  cases picked with
  | error e => exact ⟨_, _, choose_of_error hpick, choose_of_error hpick', .error e⟩
  | ok r =>
    obtain ⟨hmem, hle⟩ := hp.of_ok
    obtain ⟨m, hm, hlisted⟩ := List.mem_flatMap.1 (hc r hmem)
    obtain ⟨hid, hfind⟩ := (h.consistent m hm).funcsNamed hlisted
    obtain ⟨record, hrecord⟩ := func?_of_mem hm hfind
    have hrest := FuncRecord.openParams_of_le hle
    set rest := (r.typeParams.drop explicit.length).map fun p => Ty.param ⟨r.id, p⟩ with hdef
    have hrest' : r.openParams (explicit.map (·.substitute env)).length = .ok rest := by rw [List.length_map, hrest]
    have hfits : (Levels.nest levels (explicit ++ rest)).fits r.id = true := FuncRecord.fits_open hid hf hle
    have hchosen := choose_of_pick hpick hrest hfits
    -- What the function leaves open stays open, so that all its arguments are those of the first with parameters replaced.
    have hstay : rest.map (Ty.subst env) = rest := by
      rw [hdef, List.map_map]
      refine List.map_congr_left fun p hmem => ?_
      have hnone := hopen _ hchosen r (List.mem_filterMap.2 ⟨m, hm, hfind⟩) p (List.mem_of_mem_drop hmem)
      exact Ty.subst_eq_self fun ref href => by rw [Ty.mem_paramRefs_param.1 href, hnone]
    have hnest : Levels.nest (Ty.substLevels env levels) (explicit.map (·.substitute env) ++ rest) =
        Ty.substLevels env (Levels.nest levels (explicit ++ rest)) := by
      simp only [Levels.nest, Ty.substLevels_eq_map, List.map_append, List.map_cons, List.map_nil, hstay,
        Ty.substitute_eq_subst]
    have hchosen' : choose (Ty.substLevels env levels) candidates (explicit.map (·.substitute env)) =
        .ok (.ok ⟨r.id, Ty.substLevels env (Levels.nest levels (explicit ++ rest))⟩) := by
      rw [← hnest]
      exact choose_of_pick hpick' hrest' (hnest ▸ Ty.fits_substLevels env hfits)
    refine ⟨_, _, hchosen, hchosen', .ok ⟨rfl, _, funcType_eq_ok.2 ⟨record, hrecord, rfl⟩,
      funcType_eq_ok.2 ⟨record, hrecord, ?_⟩⟩⟩
    exact (applyFunc_substLevels h.consistent hfits (FuncRecord.signature_inherits (h.func? hrecord))).symm

/-- What a type says about a member function, and what it says with parameters replaced. -/
theorem ownFunc_substitute (h : reg.InOrder) (name : Name) (explicit : List Ty) (env : Env)
    (ht : (Ty.nominal id levels).WellFormed) :
    Option.Rel (fun x x' => (∀ f, x = .ok (.ok f) → reg.LeavesOpen env f) →
        ∃ found found', x = .ok found ∧ x' = .ok found' ∧ FoundAlike (reg.FuncsAlike env) found found')
      (reg.ownFunc name explicit (.nominal id levels))
      (reg.ownFunc name (explicit.map (·.substitute env)) ((Ty.nominal id levels).substitute env)) := by
  have hf := (Ty.wellFormed_nominal.1 ht).1
  rw [Ty.substitute_eq_subst, Ty.subst, ownFunc, ownFunc]
  cases hc : reg.memberFuncs id name with
  | nil =>
    simp only [passOver, hf, Ty.fits_substLevels env hf, if_true]
    exact .none
  | cons r rs => exact .some fun hopen => h.choose_substitute hf (by simp) (fun _ hr => hc ▸ hr) explicit hopen

/-- Looking a variable up commutes with replacing parameters. -/
theorem memberVar_substitute [Patience] (h : reg.InOrder) (name : Name) (explicit : List Ty) (env : Env)
    (ht : (Ty.nominal id levels).WellFormed) :
    ∃ found found', reg.memberVar (.nominal id levels) name explicit = .ok found ∧
      reg.memberVar ((Ty.nominal id levels).substitute env) name (explicit.map (·.substitute env)) = .ok found' ∧
      FoundAlike (reg.VarsAlike env) found found' := by
  cases explicit with
  | cons t ts => exact ⟨_, _, rfl, by simp [memberVar], .error _⟩
  | nil =>
    have hrel := h.basesInOrder.climb_substitute (fun _ _ => h.ownVar_substitute name env) ht
    simp only [memberVar, List.map_nil, List.isEmpty_nil, if_true]
    generalize reg.climb (reg.ownVar name) (.nominal id levels) = found at hrel ⊢
    generalize reg.climb (reg.ownVar name) ((Ty.nominal id levels).substitute env) = found' at hrel ⊢
    cases hrel with
    | none => exact ⟨_, _, rfl, rfl, .error _⟩
    | some hr =>
      obtain ⟨v, v', rfl, rfl, halike⟩ := hr
      exact ⟨_, _, rfl, rfl, .ok halike⟩

/-- Looking a function up commutes with replacing parameters, unless they are its own. -/
theorem memberFunc_substitute [Patience] (h : reg.InOrder) (name : Name) (explicit : List Ty) (env : Env)
    (ht : (Ty.nominal id levels).WellFormed)
    (hopen : ∀ f, reg.memberFunc (.nominal id levels) name explicit = .ok (.ok f) → reg.LeavesOpen env f) :
    ∃ found found', reg.memberFunc (.nominal id levels) name explicit = .ok found ∧
      reg.memberFunc ((Ty.nominal id levels).substitute env) name (explicit.map (·.substitute env)) = .ok found' ∧
      FoundAlike (reg.FuncsAlike env) found found' := by
  have hrel := h.basesInOrder.climb_substitute (fun _ _ => h.ownFunc_substitute name explicit env) ht
  unfold memberFunc at hopen ⊢
  generalize reg.climb (reg.ownFunc name explicit) (.nominal id levels) = found at hrel hopen ⊢
  generalize reg.climb (reg.ownFunc name (explicit.map (·.substitute env))) ((Ty.nominal id levels).substitute env) = found'
    at hrel ⊢
  cases hrel with
  | none => exact ⟨_, _, rfl, rfl, .error _⟩
  | some hr => exact hr hopen

end InOrder

end Registry

/-! ### The main statements -/

/-- Where no type is derived from a derived type, bases do not go round in circles. -/
theorem Registry.acyclic_of_flat {reg : Registry} (h : ∀ m ∈ reg, ∀ r ∈ m.types.values, ∀ b ∈ r.base, ∀ id ∈ b.head?,
    reg.baseId? id = none) (id : ItemId) (n : Nat) : follow reg.baseId? (n + 1) id ≠ some id := by
  refine follow_ne_self (n := 2) ?_
  rw [follow]
  cases hnext : reg.baseId? id with
  | none => rfl
  | some next =>
    obtain ⟨r, hr, hbase⟩ := Option.bind_eq_some_iff.1 hnext
    obtain ⟨b, hb, hhead⟩ := Option.bind_eq_some_iff.1 hbase
    obtain ⟨m, hm, hfound⟩ := List.exists_of_findSome?_eq_some hr
    rw [Option.bind_some, follow, h m hm r (Table.mem_values_of_find? hfound) b hb next hhead, Option.bind_none]

namespace Sample

/-- `class Box<T> { T item; seq T fill<V>(V first) }` and `class Crate<U> : Box<List<U>>` -/
def boxes : Module :=
  let box : ItemId := (ItemId.root "Boxes").child (.text "Box") 1
  let crate : ItemId := (ItemId.root "Boxes").child (.text "Crate") 1
  Module.empty "Boxes"
    |>.putType ⟨box, .classType, [.text "T"], none, []⟩
    |>.putVar ⟨box.child (.text "item") 0, .param ⟨box, .text "T"⟩, false⟩
    |>.putFunc ⟨box.child (.text "fill") 1, [.text "V"],
      [⟨.text "first", .param ⟨box.child (.text "fill") 1, .text "V"⟩⟩], .param ⟨box, .text "T"⟩, true, false⟩
    |>.putType ⟨crate, .classType, [.text "U"],
      some (.nominal box [[Builtin.list (.param ⟨crate, .text "U"⟩)]]), []⟩

def withBoxes : Registry := [Builtin.declarations, boxes]

/-- The type parameter of some function `pack<X>`. -/
def packed : ParamRef := ⟨(ItemId.root "Sample").child (.text "pack") 1, .text "X"⟩

def crateOf (t : Ty) : Ty := .nominal ((ItemId.root "Boxes").child (.text "Crate") 1) [[t]]

def boxOf (t : Ty) : Ty := .nominal ((ItemId.root "Boxes").child (.text "Box") 1) [[t]]

/-- The sequence function of `Box<T>` with its own parameter left open. -/
def fillOf (t : Ty) : FuncRef :=
  let fill : ItemId := ((ItemId.root "Boxes").child (.text "Box") 1).child (.text "fill") 1
  ⟨fill, [[t], [.param ⟨fill, .text "V"⟩]]⟩

theorem boxes_consistent : boxes.Consistent := by
  unfold boxes
  repeat
    first
    | refine .putType ?_ (by decide)
    | refine .putFunc ?_ (by decide)
    | refine .putVar ?_ (by decide)
  exact .empty _

theorem withBoxes_inOrder : withBoxes.InOrder where
  consistent m hm := by
    obtain rfl | rfl : m = Builtin.declarations ∨ m = boxes := by simpa [withBoxes] using hm
    · exact Builtin.declarations_consistent
    · exact boxes_consistent
  records m hm := by
    obtain rfl | rfl : m = Builtin.declarations ∨ m = boxes := by simpa [withBoxes] using hm
    · exact ⟨by decide +kernel, by decide +kernel, by decide +kernel⟩
    · exact ⟨by decide +kernel, by decide +kernel, by decide +kernel⟩
  bases := by decide +kernel
  acyclic := Registry.acyclic_of_flat (by decide +kernel)

/-- Two modules of one name that both declare `Outer`, as `class Outer<T>` and as `class Outer<U>`; in the second there are
`class Box<V>`, `class Outer<U>.Inner : Box<U>` and `U Outer<U>.item`. -/
def versions : Registry :=
  let outer : ItemId := (ItemId.root "Shapes").child (.text "Outer") 1
  let box : ItemId := (ItemId.root "Shapes").child (.text "Box") 1
  let older := Module.empty "Shapes"
    |>.putType ⟨outer, .classType, [.text "T"], none, []⟩
  let newer := Module.empty "Shapes"
    |>.putType ⟨outer, .classType, [.text "U"], none, []⟩
    |>.putType ⟨box, .classType, [.text "V"], none, []⟩
    |>.putType ⟨outer.child (.text "Inner") 0, .classType, [], some (.nominal box [[.param ⟨outer, .text "U"⟩]]), []⟩
    |>.putVar ⟨outer.child (.text "item") 0, .param ⟨outer, .text "U"⟩, false⟩
  [older, newer]

theorem versions_consistent : ∀ m ∈ versions, m.Consistent := by
  intro m hm
  simp only [versions, List.mem_cons, List.not_mem_nil, or_false] at hm
  rcases hm with rfl | rfl
  · exact .putType (.empty _) (by decide)
  · exact .putVar (.putType (.putType (.putType (.empty _) (by decide)) (by decide)) (by decide)) (by decide)

/-- The parameter of the second `Outer`. -/
def newParam : ParamRef := ⟨(ItemId.root "Shapes").child (.text "Outer") 1, .text "U"⟩

end Sample

/-- Where bases are in order, the base of a type with parameters replaced is its base with parameters replaced, and what is
assignable stays so whatever parameters are replaced. -/
theorem assignability_survives_substitution [Patience] (reg : Registry) (h : reg.BasesInOrder) (env : Env) :
    (∀ id levels, (Ty.nominal id levels).WellFormed →
      reg.baseOf ((Ty.nominal id levels).substitute env) = (reg.baseOf (.nominal id levels)).map (·.substitute env)) ∧
    ∀ target source, source.WellFormed → reg.assignable target source = true →
      reg.assignable (target.substitute env) (source.substitute env) = true := by
  refine ⟨fun id levels ht => h.baseOf_substitute (Ty.wellFormed_nominal.1 ht).1 env, fun target source hs hassign => ?_⟩
  obtain ⟨n, hn⟩ := (Registry.assignable_iff (h.follow_reach source)).1 hassign
  exact (Registry.assignable_iff (h.follow_reach _)).2 ⟨n, h.follow_substitute env hs hn⟩

/-- `Crate<X>` is assignable to `Box<List<X>>`, and so `Crate<int>` to `Box<List<int>>`. -/
theorem sample_assignability_survives_substitution : Sample.withBoxes.BasesInOrder ∧
    (Sample.crateOf (.param Sample.packed)).WellFormed ∧
    Sample.withBoxes.assignable (Sample.boxOf (Builtin.list (.param Sample.packed)))
      (Sample.crateOf (.param Sample.packed)) = true ∧
    Sample.withBoxes.assignable (Sample.boxOf (Builtin.list Builtin.int)) (Sample.crateOf Builtin.int) = true := by
  have hfits : (Sample.crateOf (.param Sample.packed)).WellFormed := by decide +kernel
  have hassign : Sample.withBoxes.assignable (Sample.boxOf (Builtin.list (.param Sample.packed)))
      (Sample.crateOf (.param Sample.packed)) = true := by decide +kernel
  exact ⟨Sample.withBoxes_inOrder.basesInOrder, hfits, hassign, (assignability_survives_substitution Sample.withBoxes
    Sample.withBoxes_inOrder.basesInOrder ⟨[(Sample.packed, Builtin.int)]⟩).2 _ _ hfits hassign⟩

/-- A parameter that only a record behind another one of the same id names is never bound: `Outer<int>.Inner` is derived from
`Box<U>`, and is no longer assignable to it once `U` is replaced. -/
theorem assignability_lost_behind_older_record : (∀ m ∈ Sample.versions, m.Consistent) ∧
    (∀ m ∈ Sample.versions, ∀ e ∈ m.types.entries, ∀ b ∈ e.2.base,
      b.nominal?.isSome ∧ b.WellFormed ∧ b.AllParams (Sample.versions.Names e.1)) ∧
    (∀ id n, follow Sample.versions.baseId? (n + 1) id ≠ some id) ∧
    ∃ target source env, target.WellFormed ∧ source.WellFormed ∧ Sample.versions.assignable target source = true ∧
      Sample.versions.assignable (target.substitute env) (source.substitute env) = false := by
  refine ⟨Sample.versions_consistent, by decide +kernel, Registry.acyclic_of_flat (by decide +kernel),
    .nominal ((ItemId.root "Shapes").child (.text "Box") 1) [[.param Sample.newParam]],
    .nominal (((ItemId.root "Shapes").child (.text "Outer") 1).child (.text "Inner") 0) [[Builtin.int], []],
    ⟨[(Sample.newParam, Builtin.int)]⟩, ?_⟩
  decide +kernel

/-- Where records are in order, looking a member up commutes with replacing parameters. A variable is found at both types or at
none, under one id, and its type is the first one's with parameters replaced. For a function the look-ups fail alike or find
one id, and the signature is the first one's with parameters replaced, unless these are parameters of the function itself. -/
theorem member_lookup_commutes_with_substitution [Patience] (reg : Registry) (h : reg.InOrder) (id : ItemId) (levels : Levels)
    (ht : (Ty.nominal id levels).WellFormed) (name : Name) (explicit : List Ty) (env : Env) :
    (∃ found found', reg.memberVar (.nominal id levels) name explicit = .ok found ∧
      reg.memberVar ((Ty.nominal id levels).substitute env) name (explicit.map (·.substitute env)) = .ok found' ∧
      FoundAlike (reg.VarsAlike env) found found') ∧
    ((∀ f, reg.memberFunc (.nominal id levels) name explicit = .ok (.ok f) → reg.LeavesOpen env f) →
      ∃ found found', reg.memberFunc (.nominal id levels) name explicit = .ok found ∧
        reg.memberFunc ((Ty.nominal id levels).substitute env) name (explicit.map (·.substitute env)) = .ok found' ∧
        FoundAlike (reg.FuncsAlike env) found found') :=
  ⟨h.memberVar_substitute name explicit env ht, h.memberFunc_substitute name explicit env ht⟩

/-- `Crate<X>.item` is a `List<X>`, and `Crate<X>.fill` gives a sequence of these. -/
theorem sample_member_lookup_commutes_with_substitution : Sample.withBoxes.InOrder ∧
    ∃ f f', Sample.withBoxes.memberFunc (Sample.crateOf (.param Sample.packed)) (.text "fill") [] = .ok (.ok f) ∧
      Sample.withBoxes.memberFunc (Sample.crateOf Builtin.int) (.text "fill") [] = .ok (.ok f') ∧
      Sample.withBoxes.FuncsAlike ⟨[(Sample.packed, Builtin.int)]⟩ f f' := by
  have hfound : Sample.withBoxes.memberFunc (Sample.crateOf (.param Sample.packed)) (.text "fill") [] =
      .ok (.ok (Sample.fillOf (Builtin.list (.param Sample.packed)))) := rfl
  have hopen : Sample.withBoxes.LeavesOpen ⟨[(Sample.packed, Builtin.int)]⟩
      (Sample.fillOf (Builtin.list (.param Sample.packed))) := by
    unfold Registry.LeavesOpen
    decide +kernel
  obtain ⟨found, found', hfirst, hsecond, halike⟩ := (member_lookup_commutes_with_substitution Sample.withBoxes
    Sample.withBoxes_inOrder ((ItemId.root "Boxes").child (.text "Crate") 1) [[.param Sample.packed]] (by decide +kernel)
    (.text "fill") [] ⟨[(Sample.packed, Builtin.int)]⟩).2
    (fun f hf => by
      cases hfound.symm.trans hf
      exact hopen)
  cases hfound.symm.trans hfirst
  cases halike with
  | ok h => exact ⟨Sample.withBoxes_inOrder, _, _, hfound, hsecond, h⟩

/-- The type of a variable need not follow: `Outer<int>.item` has the type `U` whatever `U` is replaced by. -/
theorem member_type_lost_behind_older_record : (∀ m ∈ Sample.versions, m.Consistent) ∧
    (∀ m ∈ Sample.versions, m.Meets fun id t => t.WellFormed ∧ t.AllParams (Sample.versions.Names id)) ∧
    (∀ m ∈ Sample.versions, ∀ e ∈ m.types.entries, ∀ b ∈ e.2.base, b.nominal?.isSome) ∧
    (∀ id n, follow Sample.versions.baseId? (n + 1) id ≠ some id) ∧
    ∃ receiver env v v' t t', receiver.WellFormed ∧
      Sample.versions.memberVar receiver (.text "item") [] = .ok (.ok v) ∧
      Sample.versions.memberVar (receiver.substitute env) (.text "item") [] = .ok (.ok v') ∧
      Sample.versions.varType v = .ok t ∧ Sample.versions.varType v' = .ok t' ∧ t' ≠ t.substitute env := by
  refine ⟨Sample.versions_consistent, fun m hm => ?_, by decide +kernel, Registry.acyclic_of_flat (by decide +kernel),
    .nominal ((ItemId.root "Shapes").child (.text "Outer") 1) [[Builtin.int]], ⟨[(Sample.newParam, Builtin.int)]⟩,
    ⟨_, _⟩, ⟨_, _⟩, .param Sample.newParam, .param Sample.newParam, by decide +kernel, rfl, rfl, rfl, rfl, by decide +kernel⟩
  simp only [Sample.versions, List.mem_cons, List.not_mem_nil, or_false] at hm
  rcases hm with rfl | rfl
  · exact ⟨by decide +kernel, by decide +kernel, by decide +kernel⟩
  · exact ⟨by decide +kernel, by decide +kernel, by decide +kernel⟩

end ScriptCheck
