import ScriptCheck.Ty.Matching

/-!
# Substitution, laid open

`Ty.substitute` keeps an unchanged type as it is and so works through `Ty.changed?`. Here it is shown to be the plain
replacement `Ty.subst`, about which everything else is proved, and `Ty.changed?` to leave a type as it is exactly if no bound
parameter occurs in it.
-/

namespace ScriptCheck

theorem getD_consChanged? {α : Type} (head : α) (head? : Option α) (tail : List α) (tail? : Option (List α)) :
    (consChanged? head head? tail tail?).getD (head :: tail) = head?.getD head :: tail?.getD tail := by
  cases head? <;> cases tail? <;> rfl

theorem consChanged?_eq_none {α : Type} {head : α} {head? : Option α} {tail : List α} {tail? : Option (List α)} :
    consChanged? head head? tail tail? = none ↔ head? = none ∧ tail? = none := by
  cases head? <;> cases tail? <;> simp [consChanged?]

namespace Ty

variable {ref : ParamRef}

mutual

/-- What has changed, or else the type itself, is the type with its bound parameters replaced. -/
theorem getD_changed? (env : Env) : ∀ t : Ty, (t.changed? env).getD t = t.subst env
  | .void => rfl
  | .unresolved => rfl
  | .param ref => rfl
  | .nominal id levels => by
    have ih := getD_changedLevels? env levels
    rw [changed?, subst, ← ih]
    cases changedLevels? env levels <;> rfl
  | .func ret params => by
    have hr := getD_changed? env ret
    have hp := getD_changedList? env params
    rw [changed?, subst, ← hr, ← hp]
    cases changed? env ret <;> cases changedList? env params <;> rfl

theorem getD_changedList? (env : Env) : ∀ ts : List Ty, (changedList? env ts).getD ts = substList env ts
  | [] => rfl
  | t :: ts => by
    rw [changedList?, substList, getD_consChanged?, getD_changed? env t, getD_changedList? env ts]

theorem getD_changedLevels? (env : Env) :
    ∀ ls : List (List Ty), (changedLevels? env ls).getD ls = substLevels env ls
  | [] => rfl
  | l :: ls => by
    rw [changedLevels?, substLevels, getD_consChanged?, getD_changedList? env l, getD_changedLevels? env ls]

end

/-! ### The parameters that occur -/

@[simp] theorem not_mem_paramRefs_void : ref ∉ void.paramRefs := by simp [mem_paramRefs, parts]

@[simp] theorem not_mem_paramRefs_unresolved : ref ∉ unresolved.paramRefs := by simp [mem_paramRefs, parts]

@[simp] theorem mem_paramRefs_param {ref r : ParamRef} : ref ∈ (param r).paramRefs ↔ ref = r := by simp [mem_paramRefs, parts]

@[simp] theorem mem_paramRefs_nominal {id : ItemId} {levels : Levels} :
    ref ∈ (nominal id levels).paramRefs ↔ ∃ t ∈ levels.flatten, ref ∈ t.paramRefs := by
  simp only [mem_paramRefs, parts, List.mem_cons, mem_partsOfLevels, List.mem_flatten, reduceCtorEq, false_or]
  constructor
  · rintro ⟨l, hl, t, ht, h⟩
    exact ⟨t, ⟨l, hl, ht⟩, h⟩
  · rintro ⟨t, ⟨l, hl, ht⟩, h⟩
    exact ⟨l, hl, t, ht, h⟩

@[simp] theorem mem_paramRefs_func {ret : Ty} {params : List Ty} :
    ref ∈ (func ret params).paramRefs ↔ ref ∈ ret.paramRefs ∨ ∃ t ∈ params, ref ∈ t.paramRefs := by
  simp [mem_paramRefs, parts, mem_partsOfList]

mutual

/-- Nothing is replaced in a type none of whose parameters is bound. -/
theorem subst_eq_self {env : Env} : ∀ {t : Ty}, (∀ ref ∈ t.paramRefs, env.find? ref = none) → t.subst env = t
  | .void, _ => rfl
  | .unresolved, _ => rfl
  | .param ref, h => by
    rw [subst, h ref (mem_paramRefs_param.2 rfl)]
    rfl
  | .nominal id levels, h => by
    have hlevels : ∀ t ∈ levels.flatten, ∀ ref ∈ t.paramRefs, env.find? ref = none :=
      fun t ht ref hr => h ref (mem_paramRefs_nominal.2 ⟨t, ht, hr⟩)
    rw [subst, substLevels_eq_self hlevels]
  | .func ret params, h => by
    have hret : ∀ ref ∈ ret.paramRefs, env.find? ref = none := fun ref hr => h ref (mem_paramRefs_func.2 (.inl hr))
    have hparams : ∀ t ∈ params, ∀ ref ∈ t.paramRefs, env.find? ref = none :=
      fun t ht ref hr => h ref (mem_paramRefs_func.2 (.inr ⟨t, ht, hr⟩))
    rw [subst, subst_eq_self hret, substList_eq_self hparams]

theorem substList_eq_self {env : Env} :
    ∀ {ts : List Ty}, (∀ t ∈ ts, ∀ ref ∈ t.paramRefs, env.find? ref = none) → substList env ts = ts
  | [], _ => rfl
  | t :: ts, h => by
    obtain ⟨ht, hs⟩ := List.forall_mem_cons.1 h
    rw [substList, subst_eq_self ht, substList_eq_self hs]

theorem substLevels_eq_self {env : Env} :
    ∀ {ls : List (List Ty)}, (∀ t ∈ ls.flatten, ∀ ref ∈ t.paramRefs, env.find? ref = none) → substLevels env ls = ls
  | [], _ => rfl
  | l :: ls, h => by
    rw [List.flatten_cons, List.forall_mem_append] at h
    rw [substLevels, substList_eq_self h.1, substLevels_eq_self h.2]

end

/-- The form of replacement that the library uses is the plain one. -/
theorem substitute_eq_subst (t : Ty) (env : Env) : t.substitute env = t.subst env := by
  unfold substitute
  split
  · rename_i h
    have he : env.entries = [] := List.isEmpty_iff.1 h
    refine (subst_eq_self fun ref _ => ?_).symm
    rw [Table.find?, he]
    rfl
  · exact getD_changed? env t

theorem substList_eq_map (env : Env) (ts : List Ty) : substList env ts = ts.map (subst env) := by
  induction ts with
  | nil => rfl
  | cons t ts ih => rw [substList, ih, List.map_cons]

theorem substLevels_eq_map (env : Env) (ls : List (List Ty)) : substLevels env ls = ls.map (List.map (subst env)) := by
  induction ls with
  | nil => rfl
  | cons l ls ih => rw [substLevels, ih, substList_eq_map, List.map_cons]

/-! ### Types that are left as they are -/

mutual

/-- A type is left as it is exactly if none of its parameters is bound. -/
theorem changed?_eq_none_iff (env : Env) :
    ∀ t : Ty, t.changed? env = none ↔ ∀ ref ∈ t.paramRefs, env.find? ref = none
  | .void => by simp [changed?]
  | .unresolved => by simp [changed?]
  | .param ref => by simp [changed?]
  | .nominal id levels => by
    rw [changed?, Option.map_eq_none_iff, changedLevels?_eq_none_iff env levels]
    simp only [mem_paramRefs_nominal, forall_exists_index, and_imp]
    exact ⟨fun h ref t ht hr => h t ht ref hr, fun h t ht ref hr => h ref t ht hr⟩
  | .func ret params => by
    have hparts : (func ret params).changed? env = none ↔ ret.changed? env = none ∧ changedList? env params = none := by
      rw [changed?]
      cases ret.changed? env <;> cases changedList? env params <;> simp
    rw [hparts, changed?_eq_none_iff env ret, changedList?_eq_none_iff env params]
    simp only [mem_paramRefs_func, or_imp, forall_and, forall_exists_index, and_imp]
    exact and_congr_right fun _ => ⟨fun h ref t ht hr => h t ht ref hr, fun h t ht ref hr => h ref t ht hr⟩

theorem changedList?_eq_none_iff (env : Env) :
    ∀ ts : List Ty, changedList? env ts = none ↔ ∀ t ∈ ts, ∀ ref ∈ t.paramRefs, env.find? ref = none
  | [] => by simp [changedList?]
  | t :: ts => by
    rw [changedList?, consChanged?_eq_none, changed?_eq_none_iff env t, changedList?_eq_none_iff env ts, List.forall_mem_cons]

theorem changedLevels?_eq_none_iff (env : Env) : ∀ ls : List (List Ty),
    changedLevels? env ls = none ↔ ∀ t ∈ ls.flatten, ∀ ref ∈ t.paramRefs, env.find? ref = none
  | [] => by simp [changedLevels?]
  | l :: ls => by
    rw [changedLevels?, consChanged?_eq_none, changedList?_eq_none_iff env l, changedLevels?_eq_none_iff env ls,
      List.flatten_cons, List.forall_mem_append]

end

/-! ### One pass -/

mutual

/-- The type with `f ref` in the place of each type parameter `ref`, wherever it occurs. -/
def replaceParams (f : ParamRef → Ty) : Ty → Ty
  | void => void
  | unresolved => unresolved
  | nominal id levels => nominal id (replaceParamsLevels f levels)
  | func ret params => func (replaceParams f ret) (replaceParamsList f params)
  | param ref => f ref

/-- The types of a list with `f ref` in the place of each type parameter `ref`. -/
def replaceParamsList (f : ParamRef → Ty) : List Ty → List Ty
  | [] => []
  | t :: ts => replaceParams f t :: replaceParamsList f ts

/-- The types of all levels with `f ref` in the place of each type parameter `ref`. -/
def replaceParamsLevels (f : ParamRef → Ty) : List (List Ty) → List (List Ty)
  | [] => []
  | l :: ls => replaceParamsList f l :: replaceParamsLevels f ls

end

mutual

/-- Replacing bound parameters is one pass over the type that does to each parameter what it does to that parameter alone. -/
theorem subst_eq_replaceParams (env : Env) : ∀ t : Ty, t.subst env = t.replaceParams fun ref => (param ref).subst env
  | .void => rfl
  | .unresolved => rfl
  | .param ref => rfl
  | .nominal id levels => by rw [subst, replaceParams, substLevels_eq_replaceParams env levels]
  | .func ret params => by
    rw [subst, replaceParams, subst_eq_replaceParams env ret, substList_eq_replaceParams env params]

theorem substList_eq_replaceParams (env : Env) :
    ∀ ts : List Ty, substList env ts = replaceParamsList (fun ref => (param ref).subst env) ts
  | [] => rfl
  | t :: ts => by rw [substList, replaceParamsList, subst_eq_replaceParams env t, substList_eq_replaceParams env ts]

theorem substLevels_eq_replaceParams (env : Env) :
    ∀ ls : List (List Ty), substLevels env ls = replaceParamsLevels (fun ref => (param ref).subst env) ls
  | [] => rfl
  | l :: ls => by
    rw [substLevels, replaceParamsLevels, substList_eq_replaceParams env l, substLevels_eq_replaceParams env ls]

end

mutual

theorem replaceParams_congr {f g : ParamRef → Ty} :
    ∀ {t : Ty}, (∀ ref ∈ t.paramRefs, f ref = g ref) → t.replaceParams f = t.replaceParams g
  | .void, _ => rfl
  | .unresolved, _ => rfl
  | .param ref, h => h ref (mem_paramRefs_param.2 rfl)
  | .nominal id levels, h => by
    rw [replaceParams, replaceParams,
      replaceParamsLevels_congr fun t ht ref hr => h ref (mem_paramRefs_nominal.2 ⟨t, ht, hr⟩)]
  | .func ret params, h => by
    rw [replaceParams, replaceParams, replaceParams_congr fun ref hr => h ref (mem_paramRefs_func.2 (.inl hr)),
      replaceParamsList_congr fun t ht ref hr => h ref (mem_paramRefs_func.2 (.inr ⟨t, ht, hr⟩))]

theorem replaceParamsList_congr {f g : ParamRef → Ty} :
    ∀ {ts : List Ty}, (∀ t ∈ ts, ∀ ref ∈ t.paramRefs, f ref = g ref) → replaceParamsList f ts = replaceParamsList g ts
  | [], _ => rfl
  | t :: ts, h => by
    obtain ⟨ht, hs⟩ := List.forall_mem_cons.1 h
    rw [replaceParamsList, replaceParamsList, replaceParams_congr ht, replaceParamsList_congr hs]

theorem replaceParamsLevels_congr {f g : ParamRef → Ty} : ∀ {ls : List (List Ty)},
    (∀ t ∈ ls.flatten, ∀ ref ∈ t.paramRefs, f ref = g ref) → replaceParamsLevels f ls = replaceParamsLevels g ls
  | [], _ => rfl
  | l :: ls, h => by
    rw [List.flatten_cons, List.forall_mem_append] at h
    rw [replaceParamsLevels, replaceParamsLevels, replaceParamsList_congr h.1, replaceParamsLevels_congr h.2]

end

/-- Putting each parameter for itself changes nothing. -/
theorem replaceParams_param (t : Ty) : t.replaceParams param = t :=
  (subst_eq_replaceParams .empty t).symm.trans (subst_eq_self fun _ _ => rfl)

/-- What is put for the parameters of a type is all that counts. -/
theorem subst_congr {env env' : Env} {t : Ty} (h : ∀ ref ∈ t.paramRefs, env.find? ref = env'.find? ref) :
    t.subst env = t.subst env' := by
  rw [subst_eq_replaceParams, subst_eq_replaceParams]
  refine replaceParams_congr fun ref hr => ?_
  rw [subst, subst, h ref hr]

end Ty

/-- Replacing keeps what it can and is one pass over the type all the same: each bound parameter gives way to its value, on every
level of a declared type and in the parameters and the result of a function type, and everything else stays. A type is said to
be unchanged exactly if none of the parameters that occur in it is bound; otherwise what is said to have come of it is what that
pass gives. -/
theorem shared_substitution_is_one_pass (t : Ty) (env : Env) :
    t.substitute env = t.replaceParams (fun ref => (env.find? ref).getD (.param ref)) ∧
    (t.changed? env = none ↔ ∀ ref ∈ t.paramRefs, env.find? ref = none) ∧
    ∀ t', t.changed? env = some t' → t' = t.replaceParams fun ref => (env.find? ref).getD (.param ref) := by
  have hpass : t.subst env = t.replaceParams fun ref => (env.find? ref).getD (.param ref) := Ty.subst_eq_replaceParams env t
  refine ⟨(Ty.substitute_eq_subst t env).trans hpass, Ty.changed?_eq_none_iff env t, fun t' ht' => ?_⟩
  have hgetD := Ty.getD_changed? env t
  rw [ht', Option.getD_some] at hgetD
  exact hgetD.trans hpass

end ScriptCheck
