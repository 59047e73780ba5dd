import ScriptCheck.Proofs.Resolved

/-!
# Matching finds what there is to find

Patterns are laid beside types, and the parameters of one declaration are bound on the way. Whatever the types are, a binding
that is there stays, and only parameters of that declaration that occur in the pattern are bound (`Ty.unify_extends`). Where
the types are the patterns with parameters replaced, the bindings never leave the replacement, and no parameter that occurs is
missed (`Ty.unify_solved`); so the first binding of a parameter is the right one, whichever occurrence it is found at.
-/

namespace ScriptCheck

/-- What the bindings `env` are after a match with patterns in which `occurs` says what occurs: none is changed, and only
parameters of `owner` that occur are new. -/
structure Env.ExtendedBy (owner : ItemId) (occurs : ParamRef → Prop) (env env' : Env) : Prop where
  kept : ∀ ref t, env.find? ref = some t → env'.find? ref = some t
  added : ∀ ref, env.find? ref = none → env'.contains ref = true → ref.owner = owner ∧ occurs ref

namespace Env.ExtendedBy

variable {owner : ItemId} {occurs occurs' : ParamRef → Prop} {env env' env'' : Env}

theorem refl (env : Env) : Env.ExtendedBy owner occurs env env :=
  ⟨fun _ _ h => h, fun ref hnone hsome => by simp [Table.contains, hnone] at hsome⟩

theorem mono (h : Env.ExtendedBy owner occurs env env') (hle : ∀ ref, occurs ref → occurs' ref) :
    Env.ExtendedBy owner occurs' env env' :=
  ⟨h.kept, fun ref hnone hsome => (h.added ref hnone hsome).imp_right (hle ref)⟩

theorem trans (h : Env.ExtendedBy owner occurs env env') (h' : Env.ExtendedBy owner occurs env' env'') :
    Env.ExtendedBy owner occurs env env'' := by
  refine ⟨fun ref t ht => h'.kept ref t (h.kept ref t ht), fun ref hnone hsome => ?_⟩
  cases hmid : env'.find? ref with
  | none => exact h'.added ref hmid hsome
  | some t => exact h.added ref hnone (by simp [Table.contains, hmid])

/-- Nothing is found out about the parameters of other declarations. -/
theorem find?_eq {ref : ParamRef} (h : Env.ExtendedBy owner occurs env env') (hne : ref.owner ≠ owner) :
    env'.find? ref = env.find? ref := by
  cases henv : env.find? ref with
  | some t => exact h.kept ref t henv
  | none =>
    cases hadded : env'.find? ref with
    | none => rfl
    | some t => exact absurd (h.added ref henv (by simp [Table.contains, hadded])).1 hne

theorem insertNew {ref : ParamRef} (ho : ref.owner = owner) (hocc : occurs ref) (env : Env) (t : Ty) :
    Env.ExtendedBy owner occurs env (env.insertNew ref t) := by
  constructor
  · intro r u hu
    rw [Table.find?_insertNew, if_neg, hu]
    rintro ⟨rfl, hnone⟩
    rw [hu] at hnone
    cases hnone
  · intro r hnone hsome
    rw [Table.contains, Table.find?_insertNew] at hsome
    split at hsome
    · rename_i hr
      exact hr.1 ▸ ⟨ho, hocc⟩
    · rw [hnone] at hsome
      cases hsome

end Env.ExtendedBy

/-- Every binding of `env` is one of `s`. -/
def Env.Within (env s : Env) : Prop := ∀ ref t, env.find? ref = some t → s.find? ref = some t

/-- Every binding is one of the solution `s`, and the parameters of `owner` that occur are bound. -/
structure Env.SolvedBy (owner : ItemId) (s : Env) (occurs : ParamRef → Prop) (env : Env) : Prop where
  within : env.Within s
  bound : ∀ ref, occurs ref → ref.owner = owner → env.contains ref = true

theorem Table.contains_insertNew {κ ν : Type} [DecidableEq κ] (t : Table κ ν) (k : κ) (v : ν) :
    (t.insertNew k v).contains k = true := by
  unfold insertNew
  split
  · assumption
  · simp [contains]

theorem Env.Within.empty (s : Env) : Env.Within .empty s := by
  intro ref t h
  cases h

theorem Env.Within.insertNew {s env : Env} (h : env.Within s) {ref : ParamRef} {t : Ty} (ht : s.find? ref = some t) :
    Env.Within (env.insertNew ref t) s := by
  intro r u hu
  rw [Table.find?_insertNew] at hu
  split at hu
  · rename_i hr
    cases hu
    exact hr.1 ▸ ht
  · exact h r u hu

namespace Env.SolvedBy

variable {owner : ItemId} {s env env' : Env} {occurs occurs' : ParamRef → Prop}

theorem mono (h : Env.SolvedBy owner s occurs env) (hle : ∀ ref, occurs' ref → occurs ref) :
    Env.SolvedBy owner s occurs' env := ⟨h.within, fun ref hocc => h.bound ref (hle ref hocc)⟩

/-- What is bound stays bound while more is matched. -/
theorem andThen (h : Env.SolvedBy owner s occurs env) (h' : Env.SolvedBy owner s occurs' env')
    (hextends : Env.ExtendedBy owner occurs' env env') : Env.SolvedBy owner s (fun ref => occurs ref ∨ occurs' ref) env' := by
  refine ⟨h'.within, fun ref hocc ho => ?_⟩
  rcases hocc with hocc | hocc
  · obtain ⟨t, ht⟩ := Option.isSome_iff_exists.1 (h.bound ref hocc ho)
    exact Option.isSome_iff_exists.2 ⟨t, hextends.kept ref t ht⟩
  · exact h'.bound ref hocc ho

theorem agrees (h : Env.SolvedBy owner s occurs env) (ref : ParamRef) (hb : env.contains ref = true) :
    env.find? ref = s.find? ref := by
  obtain ⟨t, ht⟩ := Option.isSome_iff_exists.1 hb
  rw [ht, h.within ref t ht]

end Env.SolvedBy

namespace Ty

/-! ### Any match -/

mutual

/-- A match keeps the bindings that are there and binds only parameters of `owner` that occur in the pattern. -/
theorem unify_extends (owner : ItemId) : ∀ (pattern actual : Ty) (env : Env),
    Env.ExtendedBy owner (· ∈ pattern.paramRefs) env (unify owner pattern actual env)
  | .void, actual, env => by cases actual <;> exact .refl env
  | .unresolved, actual, env => by cases actual <;> exact .refl env
  | .param ref, actual, env => by
    by_cases ha : actual = .unresolved
    · subst ha
      exact .refl env
    · rw [unify.eq_2 _ _ _ _ ha]
      split
      · rename_i ho
        exact .insertNew ho (mem_paramRefs_param.2 rfl) env actual
      · exact .refl env
  | .nominal id levels, actual, env => by
    cases actual with
    | nominal id' levels' =>
      rw [unify]
      split
      · exact (unifyLevels_extends owner levels levels' env).mono fun ref => mem_paramRefs_nominal.2
      · exact .refl env
    | _ => exact .refl env
  | .func ret params, actual, env => by
    cases actual with
    | func ret' params' =>
      rw [unify]
      split
      · exact ((unify_extends owner ret ret' env).mono fun ref h => mem_paramRefs_func.2 (.inl h)).trans
          ((unifyList_extends owner params params' _).mono fun ref h => mem_paramRefs_func.2 (.inr h))
      · exact .refl env
    | _ => exact .refl env

theorem unifyList_extends (owner : ItemId) : ∀ (patterns actuals : List Ty) (env : Env),
    Env.ExtendedBy owner (fun ref => ∃ p ∈ patterns, ref ∈ p.paramRefs) env (unifyList owner patterns actuals env)
  | [], actuals, env => by cases actuals <;> exact .refl env
  | p :: ps, [], env => .refl env
  | p :: ps, a :: as, env => by
    rw [unifyList]
    refine ((unify_extends owner p a env).mono fun ref h => ?_).trans ((unifyList_extends owner ps as _).mono fun ref h => ?_)
    · exact ⟨p, List.mem_cons_self, h⟩
    · obtain ⟨q, hq, hr⟩ := h
      exact ⟨q, List.mem_cons_of_mem p hq, hr⟩

theorem unifyLevels_extends (owner : ItemId) : ∀ (patterns actuals : List (List Ty)) (env : Env),
    Env.ExtendedBy owner (fun ref => ∃ p ∈ patterns.flatten, ref ∈ p.paramRefs) env
      (unifyLevels owner patterns actuals env)
  | [], actuals, env => by cases actuals <;> exact .refl env
  | p :: ps, [], env => .refl env
  | p :: ps, a :: as, env => by
    rw [unifyLevels, List.flatten_cons]
    have hrest := unifyLevels_extends owner ps as (unifyList owner p a env)
    refine ((unifyList_extends owner p a env).mono fun ref h => ?_).trans (hrest.mono fun ref h => ?_)
    · obtain ⟨q, hq, hr⟩ := h
      exact ⟨q, List.mem_append_left _ hq, hr⟩
    · obtain ⟨q, hq, hr⟩ := h
      exact ⟨q, List.mem_append_right _ hq, hr⟩

end

/-! ### A match with what the patterns become -/

section Solved

variable {owner : ItemId} {s : Env}

mutual

/-- Bindings that agree with a solution agree with it after a match, and then none of the parameters that are asked for is
missing. -/
theorem unify_solved : ∀ (pattern : Ty) {env : Env}, (pattern.subst s).Resolved →
    (∀ ref ∈ pattern.paramRefs, ref.owner = owner → s.contains ref = true) → env.Within s →
    Env.SolvedBy owner s (· ∈ pattern.paramRefs) (unify owner pattern (pattern.subst s) env)
  | .void, env, _, _, he => ⟨he, by simp⟩
  | .unresolved, env, _, _, he => ⟨he, by simp⟩
  | .param ref, env, hr, hb, he => by
    rw [unify.eq_2 _ _ _ _ hr.ne]
    split
    · rename_i ho
      obtain ⟨t, ht⟩ := Option.isSome_iff_exists.1 (hb ref (mem_paramRefs_param.2 rfl) ho)
      have hput : (param ref).subst s = t := by rw [subst, ht, Option.getD_some]
      rw [hput]
      refine ⟨he.insertNew ht, fun r hmem _ => ?_⟩
      rw [mem_paramRefs_param.1 hmem]
      exact Table.contains_insertNew env ref t
    · rename_i ho
      refine ⟨he, fun r hmem hr => ?_⟩
      rw [mem_paramRefs_param.1 hmem] at hr
      exact absurd hr ho
  | .nominal id levels, env, hr, hb, he => by
    rw [subst, resolved_nominal] at hr
    rw [subst, unify, if_pos rfl]
    refine (unifyLevels_solved levels hr (fun p hp ref hmem => ?_) he).mono fun ref => mem_paramRefs_nominal.1
    exact hb ref (mem_paramRefs_nominal.2 ⟨p, hp, hmem⟩)
  | .func ret params, env, hr, hb, he => by
    rw [subst, resolved_func] at hr
    rw [subst, unify, if_pos (length_substList s params).symm]
    have hret := unify_solved ret hr.1 (fun ref hmem => hb ref (mem_paramRefs_func.2 (.inl hmem))) he
    have hparams := unifyList_solved params hr.2
      (fun p hp ref hmem => hb ref (mem_paramRefs_func.2 (.inr ⟨p, hp, hmem⟩))) hret.within
    exact (hret.andThen hparams (unifyList_extends owner params _ _)).mono fun ref => mem_paramRefs_func.1

theorem unifyList_solved : ∀ (patterns : List Ty) {env : Env}, AllResolved (substList s patterns) →
    (∀ p ∈ patterns, ∀ ref ∈ p.paramRefs, ref.owner = owner → s.contains ref = true) → env.Within s →
    Env.SolvedBy owner s (fun ref => ∃ p ∈ patterns, ref ∈ p.paramRefs)
      (unifyList owner patterns (substList s patterns) env)
  | [], env, _, _, he => ⟨he, by simp⟩
  | p :: ps, env, hr, hb, he => by
    rw [substList, allResolved_cons] at hr
    obtain ⟨hp, hps⟩ := List.forall_mem_cons.1 hb
    have hfirst := unify_solved p hr.1 hp he
    have hrest := unifyList_solved ps hr.2 hps hfirst.within
    rw [substList, unifyList]
    exact (hfirst.andThen hrest (unifyList_extends owner ps _ _)).mono fun ref => by simp

theorem unifyLevels_solved : ∀ (patterns : List (List Ty)) {env : Env}, AllResolved (substLevels s patterns).flatten →
    (∀ p ∈ patterns.flatten, ∀ ref ∈ p.paramRefs, ref.owner = owner → s.contains ref = true) → env.Within s →
    Env.SolvedBy owner s (fun ref => ∃ p ∈ patterns.flatten, ref ∈ p.paramRefs)
      (unifyLevels owner patterns (substLevels s patterns) env)
  | [], env, _, _, he => ⟨he, by simp⟩
  | l :: ls, env, hr, hb, he => by
    rw [substLevels, List.flatten_cons, allResolved_append] at hr
    rw [List.flatten_cons, List.forall_mem_append] at hb
    have hfirst := unifyList_solved l hr.1 hb.1 he
    have hrest := unifyLevels_solved ls hr.2 hb.2 hfirst.within
    rw [substLevels, unifyLevels]
    refine (hfirst.andThen hrest (unifyLevels_extends owner ls _ _)).mono fun ref => ?_
    simp only [List.flatten_cons, List.mem_append, or_and_right, exists_or]
    exact id

end

end Solved

end Ty

/-! ### The main statement -/

/-- Types that are the patterns with parameters of one declaration replaced show what these parameters stand for: matching from
nothing binds exactly those of them that occur, each to what was put for it, so that replacing by what was found gives the
types again. And whatever is matched, bindings that are there stay, and only parameters of the declaration that occur in the
pattern are bound. -/
theorem matching_finds_the_replacement (owner : ItemId) :
    (∀ (patterns actuals : List Ty) (s : Env), AllResolved actuals →
      (∀ ref, s.contains ref = true → ref.owner = owner) →
      (∀ p ∈ patterns, ∀ ref ∈ p.paramRefs, ref.owner = owner → s.contains ref = true) →
      patterns.map (·.substitute s) = actuals →
      ∃ found, Ty.unifyList owner patterns actuals .empty = found ∧
        (∀ ref, found.contains ref = true ↔ ref.owner = owner ∧ ∃ p ∈ patterns, ref ∈ p.paramRefs) ∧
        (∀ ref, found.contains ref = true → found.find? ref = s.find? ref) ∧
        patterns.map (·.substitute found) = actuals) ∧
    ∀ (pattern actual : Ty) (env : Env),
      (∀ ref t, env.find? ref = some t → (Ty.unify owner pattern actual env).find? ref = some t) ∧
      ∀ ref, env.find? ref = none → (Ty.unify owner pattern actual env).contains ref = true →
        ref.owner = owner ∧ ref ∈ pattern.paramRefs := by
  refine ⟨fun patterns actuals s hr ho hb hmatch => ⟨_, rfl, ?_⟩, fun pattern actual env => ?_⟩
  · simp only [Ty.substitute_eq_subst, ← Ty.substList_eq_map] at hmatch ⊢
    subst hmatch
    have hsolved := Ty.unifyList_solved patterns hr hb (Env.Within.empty s)
    have hextends := Ty.unifyList_extends owner patterns (Ty.substList s patterns) .empty
    generalize Ty.unifyList owner patterns (Ty.substList s patterns) .empty = found at hsolved hextends ⊢
    have hkeys : ∀ ref, found.contains ref = true ↔ ref.owner = owner ∧ ∃ p ∈ patterns, ref ∈ p.paramRefs :=
      fun ref => ⟨hextends.added ref rfl, fun h => hsolved.bound ref h.2 h.1⟩
    refine ⟨hkeys, hsolved.agrees, ?_⟩
    rw [Ty.substList_eq_map, Ty.substList_eq_map]
    refine List.map_congr_left fun p hp => Ty.subst_congr fun ref hmem => ?_
    by_cases hown : ref.owner = owner
    · exact hsolved.agrees ref ((hkeys ref).2 ⟨hown, p, hp, hmem⟩)
    · -- A parameter of another declaration is bound by neither.
      have hfound : ¬found.contains ref = true := fun h => hown ((hkeys ref).1 h).1
      have hs : ¬s.contains ref = true := fun h => hown (ho ref h)
      simp only [Table.contains, Option.not_isSome_iff_eq_none] at hfound hs
      rw [hfound, hs]
  · have hextends := Ty.unify_extends owner pattern actual env
    exact ⟨hextends.kept, hextends.added⟩

namespace Sample

/-- A function `merge<T, U>`. -/
def mergeId : ItemId := (ItemId.root "Sample").child (.text "merge") 2

def mergeT : ParamRef := ⟨mergeId, .text "T"⟩

def mergeU : ParamRef := ⟨mergeId, .text "U"⟩

/-- The parameters of `merge`: `List<T>`, `func<U, T, List<U>>` and the type parameter of a declaration around it. -/
def mergeParams : List Ty :=
  [Builtin.list (.param mergeT), .func (.param mergeU) [.param mergeT, Builtin.list (.param mergeU)],
    .param ⟨(ItemId.root "Sample").child (.text "Box") 1, .text "T"⟩]

/-- `merge<List<int>, string>` -/
def mergeArgs : Env := ⟨[(mergeU, Builtin.string), (mergeT, Builtin.list Builtin.int)]⟩

end Sample

/-- The types that `merge<List<int>, string>` takes are resolved, and matching finds its arguments from them. -/
theorem sample_matching_finds_the_replacement :
    AllResolved (Sample.mergeParams.map (·.substitute Sample.mergeArgs)) ∧
    ∃ found, Ty.unifyList Sample.mergeId Sample.mergeParams (Sample.mergeParams.map (·.substitute Sample.mergeArgs)) .empty =
        found ∧ found.find? Sample.mergeT = some (Builtin.list Builtin.int) ∧
      found.find? Sample.mergeU = some Builtin.string ∧
      Sample.mergeParams.map (·.substitute found) = Sample.mergeParams.map (·.substitute Sample.mergeArgs) := by
  have hresolved : AllResolved (Sample.mergeParams.map (·.substitute Sample.mergeArgs)) := by decide +kernel
  have howned : ∀ e ∈ Sample.mergeArgs.entries, e.1.owner = Sample.mergeId := by decide
  obtain ⟨found, hfound, hkeys, hagree, hback⟩ := (matching_finds_the_replacement Sample.mergeId).1 Sample.mergeParams _
    Sample.mergeArgs hresolved
    (fun ref h => by
      obtain ⟨t, ht⟩ := Option.isSome_iff_exists.1 h
      exact howned _ (Table.mem_of_findIn ht))
    (by decide +kernel) rfl
  have hT := hagree Sample.mergeT ((hkeys _).2 (by decide +kernel))
  have hU := hagree Sample.mergeU ((hkeys _).2 (by decide +kernel))
  exact ⟨hresolved, found, hfound, hT.trans (by decide +kernel), hU.trans (by decide +kernel), hback⟩

end ScriptCheck
