import ScriptCheck.Proofs.Matching
import ScriptCheck.Proofs.Walk

/-!
# Type arguments that are written

A function may be called with fewer type arguments than it takes. The places after the written ones are then left open: they
hold the function's own parameters, which matching replaces by what the arguments of the call show. So a written argument is
told from an open place by what it mentions alone. It is kept where it mentions no parameter of the called function, and a
function that is called with all its type arguments is not matched at all unless one of them is such a parameter. A type that
is written in the body of a function may mention the function's parameters, so a function that calls itself can be mistaken.
-/

namespace ScriptCheck

/-- The type arguments with which an expression names something. -/
def Expr.typeArgs? : Expr → Option (List TypeExpr)
  | .identifier _ _ typeArgs => some typeArgs
  | .member _ _ _ typeArgs => some typeArgs
  | _ => none

/-- The function's own level starts with these arguments, and the places after them are open. -/
structure FuncRef.NamedWith (f : FuncRef) (explicit : List Ty) : Prop where
  fits : f.levels.fits f.id = true
  own : ∃ names : List Name, Levels.own f.levels = explicit ++ names.map fun name => .param ⟨f.id, name⟩

/-- Written arguments that cannot be taken for open places of the function `id`: they do not mention its parameters, or there
are as many as it takes and none of them is one of its parameters. -/
def ToldApart (id : ItemId) (explicit : List Ty) : Prop :=
  (∀ t ∈ explicit, t.mentions id = false) ∨
    (explicit.length = id.arity ∧ ∀ ref, Ty.param ref ∈ explicit → ref.owner ≠ id)

/-! ### Levels -/

namespace Levels

@[simp] theorem own_nest (levels : Levels) (args : List Ty) : own (nest levels args) = args := by simp [own, nest]

@[simp] theorem own_withOwn (levels : Levels) (args : List Ty) : own (withOwn levels args) = args := own_nest _ args

/-- The innermost level is as long as the declaration has parameters. -/
theorem length_own {levels : Levels} {id : ItemId} (h : levels.fits id = true) : (own levels).length = id.arity := by
  have hlengths : levels.map List.length = id.path.map (·.arity) := of_decide_eq_true h
  have hlast := congrArg List.getLast? hlengths
  rw [List.getLast?_map, List.getLast?_map] at hlast
  rw [own, List.getLastD_eq_getLast?, ItemId.arity, ItemId.last?, ← hlast]
  cases levels.getLast? <;> rfl

end Levels

/-! ### Matching binds the called function's parameters alone -/

namespace Ty

theorem owner_ne_of_mentions {t : Ty} {owner : ItemId} (h : t.mentions owner = false) :
    ∀ ref ∈ t.paramRefs, ref.owner ≠ owner := by
  simpa [mentions] using h

/-- What matching finds out about a function's parameters does not change a type that does not mention them. -/
theorem substitute_unifyList {owner : ItemId} {t : Ty} (h : t.mentions owner = false) (patterns actuals : List Ty) :
    t.substitute (unifyList owner patterns actuals .empty) = t := by
  rw [substitute_eq_subst]
  refine subst_eq_self fun ref hr => ?_
  rw [(unifyList_extends owner patterns actuals .empty).find?_eq (owner_ne_of_mentions h ref hr), Table.find?_empty]

end Ty

/-! ### The function that is called -/

namespace FuncRef

variable {f g : FuncRef} {explicit params args : List Ty}

/-- Nothing is open in a function none of whose own arguments is one of its parameters. -/
theorem openParam?_eq_none : f.openParam? = none ↔ ∀ ref, Ty.param ref ∈ Levels.own f.levels → ref.owner ≠ f.id := by
  unfold openParam?
  rw [List.findSome?_eq_none_iff]
  constructor
  · intro h ref hr heq
    have hnone : (if ref.owner = f.id then some ref.name else none) = none := h _ hr
    rw [if_pos heq] at hnone
    cases hnone
  · intro h t ht
    cases t with
    | param ref => exact if_neg (h ref ht)
    | _ => rfl

theorem NamedWith.of_openParams {r : FuncRecord} {rest : List Ty} {levels : Levels}
    (hr : r.openParams explicit.length = .ok rest)
    (hf : FuncRef.make r.id (Levels.nest levels (explicit ++ rest)) = .ok f) : f.NamedWith explicit := by
  obtain ⟨hfits, rfl⟩ := FuncRef.make_eq_ok.1 hf
  unfold FuncRecord.openParams at hr
  split at hr
  · cases hr
    exact ⟨hfits, _, Levels.own_nest _ _⟩
  · cases hr

/-- A function that is named with as many type arguments as it takes has exactly these. -/
theorem NamedWith.own_eq (h : f.NamedWith explicit) (hl : explicit.length = f.id.arity) : Levels.own f.levels = explicit := by
  obtain ⟨names, hown⟩ := h.own
  have hlength := Levels.length_own h.fits
  rw [hown, List.length_append, List.length_map] at hlength
  have hnil : names = [] := List.eq_nil_of_length_eq_zero (by omega)
  simpa [hnil] using hown

/-- Matching keeps the written arguments that do not mention the function's parameters. -/
theorem NamedWith.prefix_inferFrom (h : f.NamedWith explicit) (hm : ∀ t ∈ explicit, t.mentions f.id = false)
    (hg : f.inferFrom params args = .ok g) : explicit <+: Levels.own g.levels := by
  obtain ⟨-, rfl⟩ := FuncRef.make_eq_ok.1 hg
  obtain ⟨names, hown⟩ := h.own
  have hkept : explicit.map (·.substitute (Ty.unifyList f.id params args .empty)) = explicit := by
    conv_rhs => rw [← List.map_id explicit]
    exact List.map_congr_left fun t ht => Ty.substitute_unifyList (hm t ht) params args
  rw [Levels.own_withOwn, hown, List.map_append, hkept]
  exact List.prefix_append _ _

/-- The function that a call is found to go to has the written arguments, where they are told apart from open ones. -/
theorem Completes.prefix_own (h : f.Completes params args g) (hf : f.NamedWith explicit) (ht : ToldApart f.id explicit) :
    explicit <+: Levels.own g.levels := by
  obtain ⟨-, hg⟩ := h
  split at hg
  · obtain ⟨names, hown⟩ := hf.own
    rw [hg, hown]
    exact List.prefix_append _ _
  · rename_i hopen
    rcases ht with hm | ⟨hl, hne⟩
    · exact hf.prefix_inferFrom hm hg
    · rw [← hf.own_eq hl] at hne
      exact absurd (openParam?_eq_none.2 hne) hopen

theorem Completes.id_eq (h : f.Completes params args g) : g.id = f.id := by
  obtain ⟨-, hg⟩ := h
  split at hg
  · rw [hg]
  · obtain ⟨-, rfl⟩ := FuncRef.make_eq_ok.1 hg
    rfl

end FuncRef

theorem Context.lookup_namedWith {ctx : Context} {frame : Frame} {globals : PrivateGlobals} {name : String}
    {args : List Ty} {allowPartial : Bool} {f : FuncRef}
    (h : ctx.lookup frame globals name args allowPartial = .ok (.func f)) : f.NamedWith args := by
  rcases lookup_cases h with ⟨_, _, -, -, hm⟩ | ⟨_, _, -, -, -, hm⟩ | ⟨-, hm⟩
  · cases hm
  · cases hm
  · rcases globalMeaning_cases hm with ⟨ms, hms, hmem⟩ | ⟨r, -, rest, g, hrest, hg, heq⟩ | heq | ⟨count, heq⟩
    · simp only [globalMeanings, Except.bind_eq_ok, Except.pure_eq_ok] at hms
      obtain ⟨funcs, hfuncs, types, -, rfl⟩ := hms
      have hmem : f ∈ funcs := by simpa [Frame.read] using hmem
      obtain ⟨r, hr, hmade⟩ := Except.mem_of_mapM_eq_ok hfuncs hmem
      obtain ⟨hfits, rfl⟩ := FuncRef.make_eq_ok.1 hmade
      exact ⟨hfits, [], by simp [Levels.own]⟩
    · cases heq
      have hmade : FuncRef.make r.id (Levels.nest [] (args ++ rest)) = .ok f := hg
      exact .of_openParams hrest hmade
    · cases heq
    · cases heq

theorem Registry.member_namedWith {_ : Patience} {reg : Registry} {receiver : Ty} {name : Name} {args : List Ty} {f : FuncRef}
    (h : reg.member receiver name args = .ok (.ok (.func f))) : f.NamedWith args := by
  rcases member_cases h with ⟨v, hv, -⟩ | ⟨g, hg, hfunc⟩
  · cases hv
  · cases hg
    obtain ⟨_, levels, -, hf⟩ := memberFunc_eq_ok (Q := fun _ => True) (fun _ _ _ _ _ _ => trivial) trivial hfunc
    obtain ⟨r, rest, -, hrest, hf⟩ := choose_eq_ok hf
    exact .of_openParams hrest hf

namespace Check

variable {ctx : Context} {node : Node} {s s' u : State} {f : FuncRef} {object : Option Nat}

theorem memberOf_namedWith {obj : Option Nat} {ty : Ty} {name : Name} {args : List Ty}
    (h : memberOf ctx node obj ty name args s = .ok (.func f object, s')) : f.NamedWith args := by
  unfold memberOf at h
  cases ty with
  | nominal id levels =>
    simp only at h
    split at h
    · cases (pure_eq_ok.1 h).1
    · obtain ⟨r, t, h₁, h₂⟩ := bind_eq_ok.1 h
      obtain ⟨hm, rfl⟩ := lift_eq_ok.1 h₁
      cases r with
      | error e =>
        obtain ⟨_, _, -, h₂⟩ := bind_eq_ok.1 h₂
        cases (pure_eq_ok.1 h₂).1
      | ok found =>
        obtain ⟨isStatic, t, -, h₂⟩ := bind_eq_ok.1 h₂
        split at h₂
        · obtain ⟨_, _, -, h₂⟩ := bind_eq_ok.1 h₂
          cases (pure_eq_ok.1 h₂).1
        · cases found with
          | func g =>
            cases (pure_eq_ok.1 h₂).1
            exact Registry.member_namedWith hm
          | var v =>
            obtain ⟨_, _, -, h₂⟩ := bind_eq_ok.1 h₂
            cases obj <;> cases (pure_eq_ok.1 h₂).1
  | unresolved => cases (pure_eq_ok.1 h).1
  | _ =>
    obtain ⟨_, _, -, h⟩ := bind_eq_ok.1 h
    cases (pure_eq_ok.1 h).1

/-- A named function is found with the types that its written type arguments mean, and these are noted. -/
theorem callable_namedWith {callee : Expr} {asValue : Check Ty}
    (h : callable ctx callee asValue s = .ok (.func f object, s')) :
    ∃ written explicit t t', callee.typeArgs? = some written ∧ typeExprs ctx written t = .ok (explicit, t') ∧
      (∀ n, s'.nodes.find? n = t'.nodes.find? n) ∧ f.NamedWith explicit := by
  cases callee with
  | identifier node name typeArgs =>
    simp only [callable, identifierCallable, bind_eq_ok] at h
    obtain ⟨explicit, t', h₁, meaning, v, h₂, h₃⟩ := h
    simp only [lookup, bind_eq_ok, get_apply, ok_inj] at h₂
    obtain ⟨_, _, ⟨rfl, rfl⟩, h₂⟩ := h₂
    obtain ⟨hm, rfl⟩ := lift_eq_ok.1 h₂
    cases meaning with
    | func g =>
      obtain ⟨hg, rfl⟩ := pure_eq_ok.1 h₃
      cases hg
      exact ⟨typeArgs, explicit, s, _, rfl, h₁, fun _ => rfl, Context.lookup_namedWith hm⟩
    | _ =>
      obtain ⟨_, _, -, h₃⟩ := bind_eq_ok.1 h₃
      cases (pure_eq_ok.1 h₃).1
  | member node obj name typeArgs =>
    rw [callable] at h
    obtain ⟨use, v, huse, h⟩ := bind_eq_ok.1 h
    simp only [memberUse, bind_eq_ok] at huse
    obtain ⟨r, t, -, explicit, t', h₁, h₂⟩ := huse
    have hsame : use = .func f object ∧ s' = v := by
      cases use with
      | func g o =>
        obtain ⟨hg, rfl⟩ := pure_eq_ok.1 h
        cases hg
        exact ⟨rfl, rfl⟩
      | storage storage ty =>
        simp only [bind_eq_ok] at h
        obtain ⟨_, _, -, _, _, -, h⟩ := h
        cases (pure_eq_ok.1 h).1
      | unresolved =>
        simp only [bind_eq_ok] at h
        obtain ⟨_, _, -, h⟩ := h
        cases (pure_eq_ok.1 h).1
    obtain ⟨rfl, rfl⟩ := hsame
    have hnodes : ∀ {o ty}, memberOf ctx node o ty (.text name) explicit t' = .ok (.func f object, s') →
        ∀ n, s'.nodes.find? n = t'.nodes.find? n :=
      fun hm n => (Keeps.touches (memberOf_gathers _ _ _ _ _) hm).nodes n (List.not_mem_nil)
    cases r with
    | type ty => exact ⟨typeArgs, explicit, t, t', rfl, h₁, hnodes h₂, memberOf_namedWith h₂⟩
    | value ty => exact ⟨typeArgs, explicit, t, t', rfl, h₁, hnodes h₂, memberOf_namedWith h₂⟩
  | _ =>
    rw [callable_of_not_named rfl] at h
    obtain ⟨_, _, -, h⟩ := bind_eq_ok.1 h
    cases (pure_eq_ok.1 h).1

theorem length_typeExprs : ∀ {written : List TypeExpr} {types : List Ty} {s s' : State},
    typeExprs ctx written s = .ok (types, s') → types.length = written.length
  | [], types, s, s', h => by
    rw [typeExprs] at h
    rw [← (pure_eq_ok.1 h).1]
    rfl
  | w :: ws, types, s, s', h => by
    simp only [typeExprs, bind_eq_ok, pure_eq_ok] at h
    obtain ⟨t, u, -, ts, v, h₂, rfl, rfl⟩ := h
    rw [List.length_cons, List.length_cons, length_typeExprs h₂]

/-- What written types mean is noted at their nodes. -/
theorem typeExprs_noted : ∀ {written : List TypeExpr} {types : List Ty} {s s' : State},
    (TypeExpr.idsOfList written).Nodup → typeExprs ctx written s = .ok (types, s') →
      written.map (fun w => s'.nodes.info? w.node.id) = types.map fun t => some (.type t)
  | [], types, s, s', _, h => by
    rw [typeExprs] at h
    rw [← (pure_eq_ok.1 h).1]
    rfl
  | w :: ws, types, s, s', hn, h => by
    simp only [typeExprs, bind_eq_ok, pure_eq_ok] at h
    obtain ⟨t, u, h₁, ts, v, h₂, rfl, rfl⟩ := h
    rw [TypeExpr.idsOfList, List.nodup_append] at hn
    obtain ⟨-, hws, hdisjoint⟩ := hn
    have hkept : v.nodes.find? w.node.id = u.nodes.find? w.node.id :=
      (typeExprs_effect ctx ws h₂).nodes _ fun hmem => hdisjoint _ w.node_mem_ids _ hmem rfl
    have hfirst : v.nodes.info? w.node.id = some (.type t) := by
      rw [NodeMap.info?, NodeMap.dataOf, hkept]
      exact typeExpr_noted h₁
    rw [List.map_cons, List.map_cons, typeExprs_noted hws h₂, hfirst]

/-- Matching hands a function on as it is exactly where nothing is open in it. -/
theorem inferTypeArgs_unchanged {params : List Ty} {args : List Argument} :
    inferTypeArgs node f params args s = .ok (some f, s) ↔ f.openParam? = none := by
  constructor
  · intro h
    unfold inferTypeArgs at h
    cases ho : f.openParam? with
    | none => rfl
    | some param =>
      simp only [ho, bind_eq_ok, lift_eq_ok] at h
      obtain ⟨g, t, ⟨-, rfl⟩, h⟩ := h
      cases hg : g.openParam? with
      | none =>
        simp only [hg, pure_eq_ok] at h
        cases h.1
        exact ho.symm.trans hg
      | some param =>
        simp only [hg] at h
        split at h
        · obtain ⟨_, _, -, h⟩ := bind_eq_ok.1 h
          cases (pure_eq_ok.1 h).1
        · cases (pure_eq_ok.1 h).1
  · intro h
    unfold inferTypeArgs
    rw [h]
    rfl

end Check

/-! ### The main statement -/

theorem Expr.typeArgs?_ids {e : Expr} {written : List TypeExpr} (h : e.typeArgs? = some written) :
    (TypeExpr.idsOfList written).Sublist e.ids.tail := by
  cases e with
  | identifier node name typeArgs =>
    cases h
    exact List.Sublist.refl _
  | member node object name typeArgs =>
    cases h
    exact List.sublist_append_right _ _
  | _ => cases h

theorem TypeExpr.node_mem_idsOfList {w : TypeExpr} {ws : List TypeExpr} (h : w ∈ ws) : w.node.id ∈ idsOfList ws := by
  induction ws with
  | nil => cases h
  | cons v vs ih =>
    rw [idsOfList, List.mem_append]
    rcases List.mem_cons.1 h with rfl | h
    · exact .inl w.node_mem_ids
    · exact .inr (ih h)

/-- A call that goes to a function goes to what completes the function that was named with the written type arguments. -/
theorem Visited.call_namedWith {A : Finished} (hk : Known A.notes) {p : Place} {node : Node} {callee : Expr} {args : List Expr}
    {g : FuncRef} {object : Option Nat} (h : Visited A ⟨p, .expr (.call node callee args)⟩)
    (hg : A.notes.info? node.id = some (.call g object)) :
    ∃ (written : List TypeExpr) (explicit : List Ty) (f : FuncRef) (params types : List Ty),
      callee.typeArgs? = some written ∧
      written.map (fun w => A.notes.info? w.node.id) = explicit.map (fun t => some (.type t)) ∧
      f.NamedWith explicit ∧ f.Completes params types g := by
  obtain ⟨ctx, mode, s, s', -, -, hh⟩ := h
  obtain ⟨hint, t, hv⟩ := hh.as_value rfl
  obtain ⟨c, u, hints, types, v, hcallee, -, hfound⟩ := hv.call hk
  rcases hfound with ⟨f, params, found, g', object', sig, rfl, hcompletes, hinfo, -⟩ | ⟨params, hinfo, -⟩
  · cases hg.symm.trans hinfo
    obtain ⟨written, explicit, t, t', hwritten, htypes, hsame, hnamed⟩ := Check.callable_namedWith hcallee.run
    have hids := Expr.typeArgs?_ids hwritten
    have hnotes : ∀ w ∈ written, A.notes.info? w.node.id = t'.nodes.info? w.node.id := by
      intro w hw
      rw [hcallee.inside.info? (hids.subset (TypeExpr.node_mem_idsOfList hw)), NodeMap.info?, NodeMap.dataOf, hsame]
      rfl
    refine ⟨written, explicit, f, params, found, hwritten, ?_, hnamed, hcompletes⟩
    rw [List.map_congr_left hnotes]
    exact Check.typeExprs_noted (hids.nodup (hcallee.nodup.sublist (List.tail_sublist _))) htypes
  · cases hg.symm.trans hinfo

namespace Sample

/-- `func A pick<A, B>(A first, B second) { return first; }` -/
def pick : FuncDecl where
  node := nd 0
  name := .text "pick"
  typeParams := ["A", "B"]
  params := [⟨nd 1, "first", .named (nd 2) "A" []⟩, ⟨nd 3, "second", .named (nd 4) "B" []⟩]
  ret := .named (nd 5) "A" []
  isSequence := false
  isStatic := true
  body := .mk (nd 6) [.ret (nd 7) (some (.identifier (nd 8) "first" []))]

/-- `pick<string>("a", 1);` -/
def picking : Script := [.func pick, .stmt (.expr (nd 9) (.call (nd 10)
  (.identifier (nd 11) "pick" [.named (nd 12) "string" []]) [.strLit (nd 13) "a", .intLit (nd 14) 1]))]

/-- `pick<string, int>` -/
def pickBoth : Expr := .identifier (nd 15) "pick" [.named (nd 16) "string" [], .named (nd 17) "int" []]

/-- What both name. -/
def picked : FuncRef := ⟨(ItemId.root "Sample").child (.text "pick") 2, [[Builtin.string, Builtin.int]]⟩

/-- The context in which bodies of the script are analysed. -/
def pickContext (out : Output) : Context :=
  { setup.contextFor picking with registry := [out.module, Builtin.declarations] }

/-- Whether this is the function that both name. -/
def isPicked : Callable → Bool
  | .func f object => f = picked && object = none
  | _ => false

theorem picking_output : ∃ out u, analyze setup picking = .ok (.ok out) ∧
    out.nodes.info? 10 = some (.call picked none) ∧ out.nodes.info? 12 = some (.type Builtin.string) ∧
    Check.callable (pickContext out) pickBoth (Check.expr (pickContext out) pickBoth none) .initial =
      .ok (.func picked none, u) := by
  have hrun : ((analyze setup picking).toOption.bind Except.toOption).any (fun out =>
      (out.nodes.info? 10 = some (.call picked none) ∧ out.nodes.info? 12 = some (.type Builtin.string)) ∧
      (Check.callable (pickContext out) pickBoth (Check.expr (pickContext out) pickBoth none) .initial).toOption.any
        (fun r => isPicked r.1) = true) = true := by
    decide +kernel
  obtain ⟨out, h, hout⟩ := exists_output hrun
  obtain ⟨⟨hcall, htype⟩, hfound⟩ := of_decide_eq_true hout
  cases hc : Check.callable (pickContext out) pickBoth (Check.expr (pickContext out) pickBoth none) .initial with
  | error fault =>
    rw [hc] at hfound
    cases hfound
  | ok r =>
    rw [hc] at hfound
    obtain ⟨c, u⟩ := r
    cases c with
    | func f object =>
      obtain ⟨hf, hobject⟩ := Bool.and_eq_true_iff.1 hfound
      obtain rfl := of_decide_eq_true hf
      obtain rfl := of_decide_eq_true hobject
      exact ⟨out, u, h, hcall, htype, hc⟩
    | _ => cases hfound

end Sample

/-- Type arguments that are written are taken as they stand, where they can be told from open ones. A call that goes through
goes to a function whose own arguments start with those that were written, unless one of them mentions a parameter of that
function. Where there are as many as the function takes it is handed on as it is, without a report, whatever the arguments of
the call are, exactly if none of them is such a parameter. -/
theorem written_type_arguments_are_kept (setup : Setup) (script : Script) :
    (∀ out, script.ids.Nodup → analyze setup script = .ok (.ok out) →
      ∀ p node callee args g object, ⟨p, .expr (.call node callee args)⟩ ∈ script.sites (.root setup.moduleName) →
        out.nodes.info? node.id = some (.call g object) →
        ∃ (written : List TypeExpr) (explicit : List Ty), callee.typeArgs? = some written ∧
          written.map (fun w => out.nodes.info? w.node.id) = explicit.map (fun t => some (.type t)) ∧
          (ToldApart g.id explicit → explicit <+: Levels.own g.levels)) ∧
    ∀ ctx callee s f object u, Check.callable ctx callee (Check.expr ctx callee none) s = .ok (.func f object, u) →
      ∃ (written : List TypeExpr) (explicit : List Ty) (t t' : State), callee.typeArgs? = some written ∧
        Check.typeExprs ctx written t = .ok (explicit, t') ∧ f.NamedWith explicit ∧ (written.length = f.id.arity →
          ∀ node params args v, Check.inferTypeArgs node f params args v = .ok (some f, v) ↔
            ∀ ref, Ty.param ref ∈ explicit → ref.owner ≠ f.id) := by
  constructor
  · intro out hn h p node callee args g object hsite hg
    have hvisited := analyze_visited hn h _ hsite
    obtain ⟨written, explicit, f, params, types, hwritten, hnotes, hnamed, hcompletes⟩ :=
      hvisited.call_namedWith (analyze_known h) hg
    refine ⟨written, explicit, hwritten, hnotes, fun ht => ?_⟩
    rw [hcompletes.id_eq] at ht
    exact hcompletes.prefix_own hnamed ht
  · intro ctx callee s f object u h
    obtain ⟨written, explicit, t, t', hwritten, htypes, -, hnamed⟩ := Check.callable_namedWith h
    refine ⟨written, explicit, t, t', hwritten, htypes, hnamed, fun hl node params args v => ?_⟩
    rw [← Check.length_typeExprs htypes] at hl
    rw [Check.inferTypeArgs_unchanged, FuncRef.openParam?_eq_none, hnamed.own_eq hl]

theorem sample_keeps_written_type_arguments : Sample.picking.ids.Nodup ∧
    ∃ out u, analyze Sample.setup Sample.picking = .ok (.ok out) ∧
      out.nodes.info? 10 = some (.call Sample.picked none) ∧ [Builtin.string] <+: Levels.own Sample.picked.levels ∧
      Check.callable (Sample.pickContext out) Sample.pickBoth (Check.expr (Sample.pickContext out) Sample.pickBoth none)
        .initial = .ok (.func Sample.picked none, u) ∧
      ∀ node params args v, Check.inferTypeArgs node Sample.picked params args v = .ok (some Sample.picked, v) := by
  have hn : Sample.picking.ids.Nodup := by decide +kernel
  obtain ⟨out, u, h, hcall, htype, hfound⟩ := Sample.picking_output
  have hsite := List.mem_of_getElem? (l := Sample.picking.sites (.root "Sample")) (i := 3) rfl
  obtain ⟨written, explicit, hwritten, hnotes, hkept⟩ :=
    (written_type_arguments_are_kept Sample.setup Sample.picking).1 out hn h _ _ _ _ _ _ hsite hcall
  cases hwritten
  have hlength : explicit.length = 1 := by simpa using congrArg List.length hnotes.symm
  obtain ⟨t, rfl⟩ := List.length_eq_one_iff.1 hlength
  cases htype.symm.trans (List.cons.inj hnotes).1
  obtain ⟨written, explicit, _, _, hwritten, htypes, hnamed, hall⟩ :=
    (written_type_arguments_are_kept Sample.setup Sample.picking).2 _ _ _ _ _ _ hfound
  cases hwritten
  have hown : [Builtin.string, Builtin.int] = explicit := hnamed.own_eq (Check.length_typeExprs htypes)
  refine ⟨hn, out, u, h, hcall, hkept (.inl (by decide)), hfound, fun node params args v => ?_⟩
  refine (hall rfl node params args v).2 ?_
  rw [← hown]
  simp [Builtin.string, Builtin.int]

namespace Sample

/-- `func void again<T>(T x) { again<T>(x); }` -/
def again : FuncDecl where
  node := nd 0
  name := .text "again"
  typeParams := ["T"]
  params := [⟨nd 1, "x", .named (nd 2) "T" []⟩]
  ret := .void (nd 3)
  isSequence := false
  isStatic := true
  body := .mk (nd 4) [.expr (nd 5) (.call (nd 6) (.identifier (nd 7) "again" [.named (nd 8) "T" []])
    [.identifier (nd 9) "x" []])]

/-- The id of `again<T>`. -/
def againId : ItemId := (ItemId.root "Sample").child (.text "again") 1

end Sample

/-- A function that calls itself with its own parameter as the type argument is told that the argument cannot be found. -/
theorem own_parameter_is_taken_for_open : analyze Sample.setup [.func Sample.again] = .ok (.error
    [⟨.cannotInferTypeArgs ⟨Sample.againId, [[.param ⟨Sample.againId, .text "T"⟩]]⟩ (.text "T"), Sample.nd 6⟩]) := by
  apply analyze_eq_problems
  decide +kernel

end ScriptCheck
