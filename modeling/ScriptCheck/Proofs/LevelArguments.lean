import ScriptCheck.Proofs.Instances

/-!
# Each parameter has the argument of its own level

The arguments of a declaration come in levels, one per declaration on the way to it, and each level binds the parameters that
its declaration introduces. Declarations on the way differ from each other, so what one level binds no other level touches,
whatever names they use; within a level a name that is introduced twice takes the argument of its last position. Replacing is
one pass, so that what is put in is not looked at again, though it may mention the same parameters.
-/

namespace ScriptCheck

/-! ### What a fold leaves behind -/

section Fold

variable {α β γ : Type} {f : β → α → β} {g : β → γ} {l : List α}

/-- What no step of a fold changes is as it was. -/
theorem List.foldl_unchanged (h : ∀ a ∈ l, ∀ b, g (f b a) = g b) (b : β) : g (l.foldl f b) = g b := by
  induction l generalizing b with
  | nil => rfl
  | cons a l ih =>
    obtain ⟨ha, hl⟩ := List.forall_mem_cons.1 h
    rw [List.foldl_cons, ih hl, ha]

/-- What a step of a fold sets and no later step changes is as that step set it. -/
theorem List.foldl_decided {k : Nat} {a : α} {v : γ} (hk : l[k]? = some a) (hset : ∀ b, g (f b a) = v)
    (hlater : ∀ (j : Nat) (c : α), k < j → l[j]? = some c → ∀ b, g (f b c) = g b) (b : β) : g (l.foldl f b) = v := by
  induction l generalizing k b with
  | nil => cases hk
  | cons c l ih =>
    rw [List.foldl_cons]
    cases k with
    | zero =>
      cases hk
      have hrest : ∀ c ∈ l, ∀ b, g (f b c) = g b := fun c hc => by
        obtain ⟨j, hj⟩ := List.mem_iff_getElem?.1 hc
        exact hlater (j + 1) c (by omega) hj
      rw [List.foldl_unchanged hrest, hset]
    | succ k => exact ih hk (fun j c hj hc => hlater (j + 1) c (by omega) hc) _

end Fold

/-- A member of a list has a last position. -/
theorem List.exists_last_position {α : Type} [DecidableEq α] {a : α} {l : List α} (h : a ∈ l) :
    ∃ i : Nat, l[i]? = some a ∧ ∀ j : Nat, i < j → l[j]? ≠ some a := by
  induction l with
  | nil => cases h
  | cons b l ih =>
    by_cases hl : a ∈ l
    · obtain ⟨i, hi, hlast⟩ := ih hl
      refine ⟨i + 1, hi, fun j hj => ?_⟩
      obtain ⟨j, rfl⟩ : ∃ k, j = k + 1 := ⟨j - 1, by omega⟩
      exact hlast j (by omega)
    · refine ⟨0, by simp [(List.mem_cons.1 h).resolve_right hl], fun j hj heq => ?_⟩
      obtain ⟨j, rfl⟩ : ∃ k, j = k + 1 := ⟨j - 1, by omega⟩
      exact hl (List.mem_of_getElem? heq)

/-- The declarations on the way to `id` are different ones. -/
theorem ItemId.nodup_enclosing (id : ItemId) : id.enclosing.Nodup := by
  unfold enclosing
  refine List.Nodup.map_on (fun m hm n hn heq => ?_) List.nodup_range
  rw [List.mem_range] at hm hn
  have hlength := congrArg (fun i : ItemId => i.path.length) heq
  simp only [List.length_take] at hlength
  omega

/-! ### What the arguments bind -/

namespace Registry

variable {reg : Registry} {id scope : ItemId} {levels : Levels} {ref : ParamRef} {names : List Name} {level : List Ty}
variable {name : Name}

/-- A level does not touch the parameters of other declarations. -/
theorem find?_bindLevel_other (h : scope ≠ ref.owner) (env : Env) :
    (reg.bindLevel env scope level).find? ref = env.find? ref := by
  refine List.foldl_unchanged (g := fun e : Env => e.find? ref) (fun b _ e => ?_) env
  rw [Table.find?_insert, if_neg]
  rintro rfl
  exact h rfl

/-- A level does not touch names that its declaration does not introduce. -/
theorem find?_bindLevel_unnamed (h : ref.name ∉ (reg.typeParams? scope).getD []) (env : Env) :
    (reg.bindLevel env scope level).find? ref = env.find? ref := by
  refine List.foldl_unchanged (g := fun e : Env => e.find? ref) (fun b hb e => ?_) env
  rw [Table.find?_insert, if_neg]
  rintro rfl
  exact h (List.of_mem_zip hb).1

/-- A level binds each name that its declaration introduces to the argument at the name's last position. -/
theorem find?_bindLevel {i : Nat} {arg : Ty} (hnames : reg.typeParams? scope = some names)
    (hi : names[i]? = some name) (hlast : ∀ j : Nat, i < j → names[j]? ≠ some name) (harg : level[i]? = some arg) (env : Env) :
    (reg.bindLevel env scope level).find? ⟨scope, name⟩ = some arg := by
  unfold bindLevel
  rw [hnames, Option.getD_some]
  have hpair : (names.zip level)[i]? = some (name, arg) := List.getElem?_zip_eq_some.2 ⟨hi, harg⟩
  refine List.foldl_decided (g := fun e : Env => e.find? ⟨scope, name⟩) hpair (fun e => ?_) (fun j b hj hb e => ?_) env
  · rw [Table.find?_insert, if_pos rfl]
  · rw [Table.find?_insert, if_neg]
    intro heq
    have hname : b.1 = name := congrArg ParamRef.name heq
    exact hlast j hj (hname ▸ (List.getElem?_zip_eq_some.1 hb).1)

/-- The arguments bind a parameter as its own level does. -/
theorem find?_bindings {k : Nat} {arg : Ty} (hk : id.enclosing[k]? = some ref.owner) (hl : levels[k]? = some level)
    (hset : ∀ env, (reg.bindLevel env ref.owner level).find? ref = some arg) :
    (reg.bindings id levels).find? ref = some arg := by
  have hpair : (id.enclosing.zip levels)[k]? = some (ref.owner, level) := List.getElem?_zip_eq_some.2 ⟨hk, hl⟩
  refine List.foldl_decided (g := fun e : Env => e.find? ref) hpair hset (fun j b hj hb e => ?_) .empty
  refine find?_bindLevel_other (fun heq => ?_) e
  -- No declaration stands on the way twice.
  have hother := (List.getElem?_zip_eq_some.1 hb).1
  rw [heq] at hother
  have hsame := (List.getElem?_inj (List.getElem?_eq_some_iff.1 hk).1 id.nodup_enclosing).1 (hk.trans hother.symm)
  omega

/-- What no declaration on the way introduces is not bound. -/
theorem find?_bindings_other (h : ¬reg.Introduces id ref) : (reg.bindings id levels).find? ref = none := by
  refine List.foldl_unchanged (g := fun e : Env => e.find? ref) (fun b hb e => ?_) .empty
  by_cases howner : b.1 = ref.owner
  · refine find?_bindLevel_unnamed (fun hname => h ⟨?_, howner ▸ hname⟩) e
    exact howner ▸ (List.of_mem_zip hb).1
  · exact find?_bindLevel_other howner e

/-- The arguments with which a declaration is seen from inside: its own parameters on each level. -/
def selfLevels (reg : Registry) (id : ItemId) : Levels :=
  id.enclosing.map fun scope => ((reg.typeParams? scope).getD []).map fun name => .param ⟨scope, name⟩

theorem selfLevels_fits (hc : ∀ m ∈ reg, m.Consistent) (hk : ∀ scope ∈ id.enclosing, (reg.typeParams? scope).isSome) :
    (reg.selfLevels id).fits id = true := by
  simp only [Levels.fits, decide_eq_true_eq, selfLevels, List.map_map]
  rw [← Context.map_arity_enclosing]
  refine List.map_congr_left fun scope hs => ?_
  obtain ⟨names, hnames⟩ := Option.isSome_iff_exists.1 (hk scope hs)
  simp [hnames, typeParams?_length hc hnames]

/-- Fitting arguments have one for each name that a declaration on the way introduces. -/
theorem argument_of_position (hc : ∀ m ∈ reg, m.Consistent) (hf : levels.fits id = true) {k i : Nat}
    (hk : id.enclosing[k]? = some scope) (hnames : reg.typeParams? scope = some names) (hi : names[i]? = some name) :
    ∃ level arg, levels[k]? = some level ∧ level[i]? = some arg := by
  have hlengths : levels.map List.length = id.enclosing.map ItemId.arity :=
    (of_decide_eq_true hf).trans (Context.map_arity_enclosing id).symm
  have hlevel := congrArg (fun l : List Nat => l[k]?) hlengths
  simp only [List.getElem?_map, hk, Option.map_some, Option.map_eq_some_iff] at hlevel
  obtain ⟨level, hl, hlength⟩ := hlevel
  have hlt : i < level.length := by
    rw [hlength, ← typeParams?_length hc hnames]
    exact (List.getElem?_eq_some_iff.1 hi).1
  exact ⟨level, level[i], hl, List.getElem?_eq_getElem hlt⟩

/-- Fitting arguments put for each introduced parameter the argument of its level at the name's last position. -/
theorem substitute_param (hc : ∀ m ∈ reg, m.Consistent) (hf : levels.fits id = true) {k i : Nat}
    (hk : id.enclosing[k]? = some scope) (hnames : reg.typeParams? scope = some names) (hi : names[i]? = some name)
    (hlast : ∀ j : Nat, i < j → names[j]? ≠ some name) :
    ∃ level arg, levels[k]? = some level ∧ level[i]? = some arg ∧
      (Ty.param ⟨scope, name⟩).substitute (reg.bindings id levels) = arg := by
  obtain ⟨level, arg, hl, harg⟩ := argument_of_position hc hf hk hnames hi
  have hfound : (reg.bindings id levels).find? ⟨scope, name⟩ = some arg :=
    find?_bindings hk hl (find?_bindLevel hnames hi hlast harg)
  exact ⟨level, arg, hl, harg, by rw [Ty.substitute_eq_subst, Ty.subst, hfound, Option.getD_some]⟩

theorem substitute_param_other (h : ¬reg.Introduces id ref) :
    (Ty.param ref).substitute (reg.bindings id levels) = .param ref := by
  rw [Ty.substitute_eq_subst, Ty.subst, find?_bindings_other h, Option.getD_none]

/-- Each parameter stands for itself among a declaration's own parameters. -/
theorem substitute_param_selfLevels (hc : ∀ m ∈ reg, m.Consistent)
    (hk : ∀ scope ∈ id.enclosing, (reg.typeParams? scope).isSome) (ref : ParamRef) :
    (Ty.param ref).substitute (reg.bindings id (reg.selfLevels id)) = .param ref := by
  by_cases h : reg.Introduces id ref
  · obtain ⟨howner, hname⟩ := h
    obtain ⟨names, hnames⟩ := Option.isSome_iff_exists.1 (hk _ howner)
    rw [hnames, Option.getD_some] at hname
    obtain ⟨k, hk'⟩ := List.mem_iff_getElem?.1 howner
    obtain ⟨i, hi, hlast⟩ := List.exists_last_position hname
    obtain ⟨level, arg, hl, harg, hput⟩ := substitute_param hc (selfLevels_fits hc hk) hk' hnames hi hlast
    simp only [selfLevels, List.getElem?_map, hk', Option.map_some, hnames, Option.getD_some, Option.some.injEq] at hl
    subst hl
    rw [List.getElem?_map, hi, Option.map_some, Option.some.injEq] at harg
    exact hput.trans harg.symm
  · exact substitute_param_other h

end Registry

/-! ### The main statement -/

/-- Where all declarations on the way to `id` are known, fitting arguments are put in by one pass over the target, at every
depth. A parameter that a declaration on the way introduces becomes the argument of that declaration's level at the last
position of its name, and every other parameter stays. With its own parameters for arguments a declaration is seen as it is
written. -/
theorem parameters_are_bound_from_their_own_level (reg : Registry) (hc : ∀ m ∈ reg, m.Consistent) (id : ItemId)
    (hk : ∀ scope ∈ id.enclosing, (reg.typeParams? scope).isSome) :
    (∀ levels : Levels, levels.fits id = true → ∃ put : ParamRef → Ty,
      (∀ target : Ty, target.substitute (reg.bindings id levels) = target.replaceParams put) ∧
      (∀ (k i : Nat) (scope : ItemId) (names : List Name) (name : Name), id.enclosing[k]? = some scope →
        reg.typeParams? scope = some names → names[i]? = some name → (∀ j : Nat, i < j → names[j]? ≠ some name) →
        ∃ level arg, levels[k]? = some level ∧ level[i]? = some arg ∧ put ⟨scope, name⟩ = arg) ∧
      ∀ ref, ¬reg.Introduces id ref → put ref = .param ref) ∧
    (reg.selfLevels id).fits id = true ∧
    ∀ target : Ty, target.substitute (reg.bindings id (reg.selfLevels id)) = target := by
  have hpass : ∀ (levels : Levels) (target : Ty), target.substitute (reg.bindings id levels) =
      target.replaceParams fun ref => (Ty.param ref).substitute (reg.bindings id levels) := by
    intro levels target
    simp only [Ty.substitute_eq_subst]
    exact Ty.subst_eq_replaceParams _ target
  refine ⟨fun levels hf => ⟨_, hpass levels, ?_, fun ref => Registry.substitute_param_other⟩,
    Registry.selfLevels_fits hc hk, fun target => ?_⟩
  · intro k i scope names name hscope hnames hi hlast
    exact Registry.substitute_param hc hf hscope hnames hi hlast
  · rw [hpass, funext (Registry.substitute_param_selfLevels hc hk), Ty.replaceParams_param]

namespace Sample

def gridId : ItemId := (ItemId.root "Grids").child (.text "Grid") 2

def cellId : ItemId := gridId.child (.text "Cell") 1

def mapId : ItemId := cellId.child (.text "map") 1

/-- `class Grid<T, T>` with `class Grid<T, T>.Cell<T>` in it and `U Grid<T, T>.Cell<T>.map<U>(T)` in that. -/
def grids : Module :=
  Module.empty "Grids"
    |>.putType ⟨gridId, .classType, [.text "T", .text "T"], none, []⟩
    |>.putType ⟨cellId, .classType, [.text "T"], none, []⟩
    |>.putFunc ⟨mapId, [.text "U"], [⟨.text "item", .param ⟨cellId, .text "T"⟩⟩], .param ⟨mapId, .text "U"⟩, false, false⟩

theorem grids_consistent : ∀ m ∈ [grids], m.Consistent := by
  intro m hm
  obtain rfl := List.mem_singleton.1 hm
  exact .putFunc (.putType (.putType (.empty _) (by decide)) (by decide)) (by decide)

/-- Arguments for `map`: `int` and `bool` for `Grid`, its own `T` of `Grid` for `Cell`, and `string` for `map` itself. -/
def mapLevels : Levels := [[Builtin.int, Builtin.bool], [.param ⟨gridId, .text "T"⟩], [Builtin.string]]

end Sample

/-- The `T` of `Grid` stands for `bool`, the later of its two arguments; that of `Cell` for the `T` of `Grid`, which is not
replaced in turn. -/
theorem sample_parameters_are_bound_from_their_own_level : (∀ m ∈ [Sample.grids], m.Consistent) ∧
    Sample.mapLevels.fits Sample.mapId = true ∧
    Ty.substitute
        (.func (.param ⟨Sample.gridId, .text "T"⟩) [.param ⟨Sample.cellId, .text "T"⟩, .param ⟨Sample.mapId, .text "T"⟩])
        (Registry.bindings [Sample.grids] Sample.mapId Sample.mapLevels) =
      .func Builtin.bool [.param ⟨Sample.gridId, .text "T"⟩, .param ⟨Sample.mapId, .text "T"⟩] := by
  have hfits : Sample.mapLevels.fits Sample.mapId = true := by decide
  obtain ⟨put, hpass, hbound, hother⟩ := (parameters_are_bound_from_their_own_level [Sample.grids] Sample.grids_consistent
    Sample.mapId (by decide +kernel)).1 Sample.mapLevels hfits
  obtain ⟨_, _, hlevel, harg, hgrid⟩ := hbound 0 1 Sample.gridId [.text "T", .text "T"] (.text "T") rfl rfl rfl
    (by rintro (_ | _ | j) hj <;> simp at hj ⊢)
  cases hlevel
  cases harg
  obtain ⟨_, _, hlevel, harg, hcell⟩ := hbound 1 0 Sample.cellId [.text "T"] (.text "T") rfl rfl rfl
    (by rintro (_ | j) hj <;> simp at hj ⊢)
  cases hlevel
  cases harg
  have hmap := hother ⟨Sample.mapId, .text "T"⟩ (by decide +kernel)
  refine ⟨Sample.grids_consistent, hfits, ?_⟩
  rw [hpass, Ty.replaceParams, Ty.replaceParamsList, Ty.replaceParamsList, Ty.replaceParamsList, Ty.replaceParams,
    Ty.replaceParams, Ty.replaceParams, hgrid, hcell, hmap]

end ScriptCheck
