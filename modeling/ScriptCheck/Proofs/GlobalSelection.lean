import ScriptCheck.Proofs.MemberSelection

/-!
# What a call selects among the functions of all modules

A call that names a top-level function looks at the functions of that name in all modules at once, among the variables and
types of the name. Where there are no variables and types, the number of type arguments selects as it does among the members
of a type: the look-up collects the functions that take exactly so many and falls back on those that take more, while
`pickByArity` goes through the candidates by itself, and the two come to the same answer (`globalMeaning_eq_selected`).
-/

namespace ScriptCheck

/-- Steps that all succeed, one for each member of a list. -/
theorem Except.mapM_eq_ok_map {ε α β : Type} {f : α → Except ε β} {g : α → β} {l : List α} (h : ∀ a ∈ l, f a = .ok (g a)) :
    l.mapM f = .ok (l.map g) := by
  induction l with
  | nil => rfl
  | cons a l ih =>
    obtain ⟨ha, hl⟩ := List.forall_mem_cons.1 h
    rw [List.mapM_cons, ha, ih hl]
    rfl

/-- What a name means for which this was selected among the top-level functions. -/
def Meaning.selected (args : List Ty) : Except LookupError FuncRecord → Meaning
  | .ok r => .func (r.applied [] args)
  | .error (.ambiguous count) => .ambiguous count
  | .error _ => .notFound

namespace Context

variable {ctx : Context} {frame : Frame} {globals : PrivateGlobals} {key : Name} {args : List Ty}

/-- A top-level function takes the written arguments and its own remaining parameters. -/
theorem make_applied (hc : ∀ m ∈ ctx.registry, m.Consistent) {r : FuncRecord} (hr : r ∈ ctx.registry.globalFuncs key)
    (hle : args.length ≤ r.typeParams.length) : FuncRef.make r.id (r.applied [] args).levels = .ok (r.applied [] args) := by
  obtain ⟨mod, hid, -⟩ := Registry.globalFuncs_known hc hr
  exact FuncRef.make_eq_ok.2 ⟨FuncRecord.fits_open hid rfl hle, rfl⟩

/-- Where no variable and no type matches, a name means the functions that take exactly so many type arguments. -/
theorem globalMeanings_eq (hc : ∀ m ∈ ctx.registry, m.Consistent) (hvars : args = [] → ctx.registry.globalVars key = [])
    (htypes : ctx.globalTypeIds key args.length = []) : ctx.globalMeanings frame key args =
      .ok (((ctx.registry.globalFuncs key).filter fun r => r.typeParams.length = args.length).map fun r =>
        .func (r.applied [] args)) := by
  have hvars : (if args.isEmpty then ctx.registry.globalVars key else []) = [] := by
    split
    · exact hvars (List.isEmpty_iff.1 ‹_›)
    · rfl
  have hfuncs : ((ctx.registry.globalFuncs key).filter fun r => r.typeParams.length = args.length).mapM
      (fun r => FuncRef.make r.id [args]) = .ok
        (((ctx.registry.globalFuncs key).filter fun r => r.typeParams.length = args.length).map (·.applied [] args)) := by
    refine Except.mapM_eq_ok_map fun r hr => ?_
    obtain ⟨hmem, htakes⟩ := List.mem_filter.1 hr
    have hmake := make_applied hc hmem (of_decide_eq_true htakes).ge
    rwa [FuncRecord.applied, List.drop_of_length_le (of_decide_eq_true htakes).le, List.map_nil, List.append_nil] at hmake ⊢
  rw [globalMeanings, hvars, hfuncs, htypes]
  simp [bind, Except.bind, pure, Except.pure]

/-- Where no function takes exactly so many type arguments, a call means what they select among those that take more. -/
theorem partialMeaning_eq_selected (hc : ∀ m ∈ ctx.registry, m.Consistent) {picked : Except LookupError FuncRecord}
    (hexact : (ctx.registry.globalFuncs key).filter (fun r => r.typeParams.length = args.length) = [])
    (hpick : pickByArity (ctx.registry.globalFuncs key) args.length = .ok picked) :
    ctx.partialMeaning key args = .ok (.selected args picked) := by
  rw [pickByArity, hexact] at hpick
  rcases hmore : (ctx.registry.globalFuncs key).filter (fun r => args.length < r.typeParams.length) with _ | ⟨r, _ | ⟨r', rest⟩⟩
  · simp only [hmore, Except.bind_eq_ok, Except.pure_eq_ok] at hpick
    obtain ⟨-, -, rfl⟩ := hpick
    rw [partialMeaning, hmore]
    rfl
  · simp only [hmore, Except.ok.injEq] at hpick
    subst hpick
    obtain ⟨hmem, htakes⟩ := List.mem_filter.1 (hmore ▸ List.mem_singleton_self r)
    have hle := (of_decide_eq_true htakes).le
    rw [partialMeaning, hmore]
    dsimp only
    rw [FuncRecord.openParams_of_le hle]
    exact congrArg (· >>= fun f => pure (Meaning.func f)) (make_applied hc hmem hle)
  · simp only [hmore, Except.ok.injEq] at hpick
    subst hpick
    rw [partialMeaning, hmore]
    rfl

/-- Where no variable and no type matches, a call means what so many type arguments select. -/
theorem globalMeaning_eq_selected (hc : ∀ m ∈ ctx.registry, m.Consistent) (hvars : args = [] → ctx.registry.globalVars key = [])
    (htypes : ctx.globalTypeIds key args.length = []) {picked : Except LookupError FuncRecord}
    (hpick : pickByArity (ctx.registry.globalFuncs key) args.length = .ok picked) :
    ctx.globalMeaning frame key args true = .ok (.selected args picked) := by
  rw [globalMeaning, globalMeanings_eq hc hvars htypes]
  rcases hexact : (ctx.registry.globalFuncs key).filter (fun r => r.typeParams.length = args.length) with _ | ⟨r, _ | ⟨r', rest⟩⟩
  · rw [hexact]
    exact partialMeaning_eq_selected hc hexact hpick
  · simp only [pickByArity, hexact, Except.ok.injEq] at hpick
    rw [hexact, ← hpick]
    rfl
  · simp only [pickByArity, hexact, Except.ok.injEq] at hpick
    rw [hexact, ← hpick, List.map_cons, List.map_cons]
    simp [bind, Except.bind, pure, Except.pure, Meaning.selected]

/-- A name that is no variable of the frame or the script means what the modules say. -/
theorem lookup_eq_globalMeaning {name : String} {allowPartial : Bool}
    (h : args = [] → frame.lookup name = .ok none ∧ globals.lookup name = .ok none) :
    ctx.lookup frame globals name args allowPartial = ctx.globalMeaning frame (.text name) args allowPartial := by
  cases args with
  | nil =>
    obtain ⟨hlocal, hglobal⟩ := h rfl
    simp [lookup, hlocal, hglobal, bind, Except.bind]
  | cons t ts => rfl

end Context

/-- In modules that are put together from checked records, a call by a name that no variable and no type matches always has an
answer, and selects among the top-level functions of the name as a look-up of a member selects among those of a type. It means
a function exactly if one is selected for so many type arguments, namely that one with the written arguments and its own
remaining parameters; it is ambiguous between so many exactly if the selection is; and nothing is found exactly if there is no
function of the name or all of them take fewer type arguments. -/
theorem global_functions_are_selected_like_members (ctx : Context) (frame : Frame) (globals : PrivateGlobals) (name : String)
    (args : List Ty) (hm : ∀ m ∈ ctx.registry, m.Built)
    (hvars : args = [] → frame.lookup name = .ok none ∧ globals.lookup name = .ok none ∧
      ctx.registry.globalVars (.text name) = [])
    (htypes : ctx.globalTypeIds (.text name) args.length = []) :
    (∀ f, ctx.lookup frame globals name args true = .ok (.func f) ↔
      ∃ r, pickByArity (ctx.registry.globalFuncs (.text name)) args.length = .ok (.ok r) ∧ f = r.applied [] args) ∧
    (∀ count, ctx.lookup frame globals name args true = .ok (.ambiguous count) ↔
      pickByArity (ctx.registry.globalFuncs (.text name)) args.length = .ok (.error (.ambiguous count))) ∧
    (ctx.lookup frame globals name args true = .ok .notFound ↔ ctx.registry.globalFuncs (.text name) = [] ∨
      ∃ expected found,
        pickByArity (ctx.registry.globalFuncs (.text name)) args.length = .ok (.error (.typeArgCount expected found))) ∧
    ∃ meaning, ctx.lookup frame globals name args true = .ok meaning := by
  have hc : ∀ m ∈ ctx.registry, m.Consistent := fun m hmem => (hm m hmem).consistent
  rw [Context.lookup_eq_globalMeaning fun h => ⟨(hvars h).1, (hvars h).2.1⟩]
  by_cases hnone : ctx.registry.globalFuncs (.text name) = []
  · have hmeaning : ctx.globalMeaning frame (.text name) args true = .ok .notFound := by
      rw [Context.globalMeaning, Context.globalMeanings_eq hc (fun h => (hvars h).2.2) htypes, hnone]
      simp [Context.partialMeaning, hnone, bind, Except.bind]
    have hpick : pickByArity [] args.length = .error .outOfRange := rfl
    simp [hmeaning, hnone, hpick]
  · obtain ⟨picked, hpick, hselects⟩ := pickByArity_selects hnone args.length
    rw [Context.globalMeaning_eq_selected hc (fun h => (hvars h).2.2) htypes hpick, hpick]
    cases hselects <;> simp [Meaning.selected, hnone, eq_comm]

/-- `wrap` alone means `wrap<U>` with `U` left open. -/
theorem sample_wrap_is_selected : (∀ m ∈ [Builtin.declarations, Sample.library], m.Built) ∧
    (Sample.withLibrary.contextFor []).lookup .script .empty "wrap" [] true =
      .ok (.func ⟨(ItemId.root "Lib").child (.text "wrap") 1,
        [[.param ⟨(ItemId.root "Lib").child (.text "wrap") 1, .text "U"⟩]]⟩) := by
  have hm : ∀ m ∈ [Builtin.declarations, Sample.library], m.Built := by
    simpa using ⟨Builtin.declarations_built, Sample.library_built⟩
  refine ⟨hm, ?_⟩
  obtain ⟨hfunc, -⟩ := global_functions_are_selected_like_members (Sample.withLibrary.contextFor []) .script .empty "wrap" [] hm
    (fun _ => ⟨rfl, rfl, by decide +kernel⟩) (by decide +kernel)
  exact (hfunc _).2 ⟨_, rfl, rfl⟩

end ScriptCheck
