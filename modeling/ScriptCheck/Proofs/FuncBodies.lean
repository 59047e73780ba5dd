import Mathlib.Data.List.Perm.Subperm
import ScriptCheck.Proofs.FuncRecords
import ScriptCheck.Proofs.SiteTree

/-!
# The bodies of a script's functions

The bodies of the functions of a script are analysed one after the other, in the order of `Script.funcs` (`FuncsRun`). Each of
them notes something for its function's parameters and for the nodes of the body, and for no other node. The nodes of the types
that the declarations mention are none of these, so what was noted for them when the records were made stays.
-/

namespace ScriptCheck

/-- The nodes for which something is noted when a function's body is analysed. -/
def FuncDecl.bodyIds (decl : FuncDecl) : List Nat := decl.params.map (·.node.id) ++ decl.body.ids

/-- The nodes for which something is noted when the bodies of functions are analysed. -/
def funcBodyIds (ds : List (ItemId × FuncDecl)) : List Nat := ds.flatMap fun d => d.2.bodyIds

@[simp] theorem funcBodyIds_nil : funcBodyIds [] = [] := rfl

@[simp] theorem funcBodyIds_cons (d : ItemId × FuncDecl) (ds : List (ItemId × FuncDecl)) :
    funcBodyIds (d :: ds) = d.2.bodyIds ++ funcBodyIds ds := List.flatMap_cons

@[simp] theorem funcBodyIds_append (ds es : List (ItemId × FuncDecl)) :
    funcBodyIds (ds ++ es) = funcBodyIds ds ++ funcBodyIds es := List.flatMap_append

/-! ### Different nodes -/

theorem FuncParam.idsOfList_perm : ∀ params : List FuncParam,
    (FuncParam.idsOfList params).Perm (TypeExpr.idsOfList (params.map (·.ty)) ++ params.map (·.node.id))
  | [] => .refl _
  | p :: ps => by
    rw [FuncParam.idsOfList, List.map_cons, List.map_cons, TypeExpr.idsOfList, List.append_assoc]
    exact ((FuncParam.idsOfList_perm ps).append_left _).cons _ |>.trans
      (List.perm_middle.symm.trans ((List.perm_middle.symm).append_left _))

/-- The nodes of two parts, those of types and those of bodies, where the two kinds are listed apart. -/
theorem subperm_interleave {types bodies ids types' bodies' ids' : List Nat} (h : (types ++ bodies).Subperm ids)
    (h' : (types' ++ bodies').Subperm ids') : ((types ++ types') ++ (bodies ++ bodies')).Subperm (ids ++ ids') := by
  have hperm : ((types ++ types') ++ (bodies ++ bodies')).Perm ((types ++ bodies) ++ (types' ++ bodies')) := by
    rw [List.append_assoc, List.append_assoc]
    exact (List.perm_append_comm_assoc _ _ _).append_left _
  exact hperm.subperm.trans (h.append h')

/-- A function's types have other nodes than its parameters and its body. -/
theorem FuncDecl.ids_split (decl : FuncDecl) : (TypeExpr.idsOfList decl.types ++ decl.bodyIds).Subperm decl.ids := by
  rw [FuncDecl.types, FuncDecl.bodyIds, FuncDecl.ids, TypeExpr.idsOfList_append, TypeExpr.idsOfList_singleton]
  have hperm := FuncParam.idsOfList_perm decl.params
  refine .trans ?_ (List.sublist_cons_self _ _).subperm
  refine (List.Perm.subperm ?_).trans (hperm.symm.append_right _).subperm
  rw [List.append_assoc, List.append_assoc]
  exact (List.perm_append_comm_assoc _ _ _).append_left _

mutual

theorem TypeDecl.ids_split : ∀ (decl : TypeDecl) (outer : ItemId),
    (TypeExpr.idsOfList decl.types ++ funcBodyIds (decl.funcs outer)).Subperm decl.ids
  | .mk node kind name typeParams base members, outer => by
    rw [TypeDecl.types, TypeDecl.funcs, TypeDecl.ids, TypeExpr.idsOfList_append, TypeExpr.idsOfList_toList, List.append_assoc]
    exact ((List.subperm_append_left _).2 (Member.idsOfList_split members _)).trans (List.sublist_cons_self _ _).subperm

theorem Member.idsOfList_split : ∀ (members : List Member) (id : ItemId),
    (TypeExpr.idsOfList (Member.typesOfList members) ++ funcBodyIds (Member.funcsOfList id members)).Subperm
      (Member.idsOfList members)
  | [], id => by
    rw [Member.typesOfList, Member.funcsOfList, TypeExpr.idsOfList]
    exact List.nil_subperm
  | m :: ms, id => by
    rw [Member.typesOfList, Member.funcsOfList, Member.idsOfList, TypeExpr.idsOfList_append, funcBodyIds_append]
    exact subperm_interleave (m.ids_split id) (Member.idsOfList_split ms id)

theorem Member.ids_split : ∀ (m : Member) (id : ItemId), (TypeExpr.idsOfList m.types ++ funcBodyIds (m.funcs id)).Subperm m.ids
  | .type decl, id => by
    rw [Member.types, Member.funcs, Member.ids]
    exact decl.ids_split id
  | .func decl, id => by
    rw [Member.types, Member.funcs, Member.ids, funcBodyIds_cons, funcBodyIds_nil, List.append_nil]
    exact decl.ids_split
  | .field decl, id => by
    rw [Member.types, Member.funcs, Member.ids, TypeExpr.idsOfList_singleton, funcBodyIds_nil, List.append_nil]
    exact (List.sublist_cons_self _ _).subperm
  | .case decl, id => by
    rw [Member.types, Member.funcs, TypeExpr.idsOfList]
    exact List.nil_subperm

end

/-- The types that a script's declarations mention have other nodes than the bodies of its functions. -/
theorem Script.declIds_split (root : ItemId) : ∀ script : Script,
    (TypeExpr.idsOfList script.types ++ funcBodyIds (script.funcs root)).Subperm script.declIds
  | [] => List.nil_subperm
  | .type decl :: rest => by
    rw [Script.types, List.flatMap_cons, Script.funcs, Script.declIds, TypeExpr.idsOfList_append, funcBodyIds_append]
    exact subperm_interleave (decl.ids_split root) (Script.declIds_split root rest)
  | .func decl :: rest => by
    rw [Script.types, List.flatMap_cons, Script.funcs, Script.declIds, TypeExpr.idsOfList_append, funcBodyIds_append,
      Element.funcs, funcBodyIds_cons, funcBodyIds_nil, List.append_nil]
    exact subperm_interleave decl.ids_split (Script.declIds_split root rest)
  | .stmt st :: rest => Script.declIds_split root rest

namespace Script

theorem split_nodup (root : ItemId) {script : Script} (h : script.ids.Nodup) :
    (TypeExpr.idsOfList script.types ++ funcBodyIds (script.funcs root)).Nodup := by
  obtain ⟨ids, hperm, hsub⟩ := script.declIds_split root
  exact hperm.nodup_iff.1 ((h.sublist script.declIds_sublist).sublist hsub)

theorem typeIds_subset (script : Script) : TypeExpr.idsOfList script.types ⊆ script.declIds :=
  fun _ hn => (script.declIds_split (.root "")).subset (List.mem_append_left _ hn)

theorem funcBodyIds_subset (root : ItemId) (script : Script) : funcBodyIds (script.funcs root) ⊆ script.declIds :=
  fun _ hn => (script.declIds_split root).subset (List.mem_append_right _ hn)

end Script

/-! ### One body after the other -/

/-- The bodies of functions were analysed one after the other, each in this context with other declarations around it. -/
inductive FuncsRun (ctx : Context) : List (ItemId × FuncDecl) → State → State → Prop where
  | nil (s : State) : FuncsRun ctx [] s s
  | cons {d : ItemId × FuncDecl} {ds : List (ItemId × FuncDecl)} {s t u : State} (around : List DeclScope)
      (h : Check.funcBody { ctx with enclosing := around } d.1 d.2 s = .ok ((), t)) (hrest : FuncsRun ctx ds t u) :
      FuncsRun ctx (d :: ds) s u

namespace Check

theorem funcBody_touches {ctx : Context} {outer : ItemId} {decl : FuncDecl} {s s' : State} {a : Unit}
    (h : funcBody ctx outer decl s = .ok (a, s')) : Touches decl.bodyIds s s' := by
  obtain ⟨record, u, w, -, hparams, hbody, rfl⟩ := funcBody_run h
  have hnodes : ∀ p ∈ decl.params.map (fun p => (p.node, p.name)), p.1.id ∈ decl.bodyIds := by
    simp only [List.mem_map]
    rintro _ ⟨p, hp, rfl⟩
    exact List.mem_append_left _ (List.mem_map.2 ⟨p, hp, rfl⟩)
  have hp := (declareParams_effect _ _ hnodes hparams).toTouches
  have hb : Touches decl.bodyIds u w := (block_effect _ decl.body hbody).toTouches.mono (List.subset_append_right _ _)
  obtain ⟨hdiag, htemplates, hids, -⟩ := hp.trans hb
  exact ⟨hdiag, htemplates.trans (List.prefix_append _ _), hids, rfl⟩

theorem sites_run {ctx : Context} {a : Unit} {s' : State} : ∀ {fs : List FuncSite} {s : State},
    fs.forM (siteBody ctx) s = .ok (a, s') →
      FuncsRun ctx (fs.map fun f => (f.outer, f.decl)) s s'
  | [], s, h => by
    obtain ⟨-, rfl⟩ := pure_eq_ok.1 h
    exact .nil s
  | f :: fs, s, h => by
    obtain ⟨_, u, h₁, h₂⟩ := bind_eq_ok.1 h
    exact .cons f.around h₁ (sites_run h₂)

/-- The function bodies of a script are analysed in the order of its functions. -/
theorem scriptBodies_runs (script : Script) {ctx : Context} {s s' : State} {a : Unit}
    (h : scriptBodies ctx script s = .ok (a, s')) : FuncsRun ctx (script.funcs ctx.root) s s' := by
  rw [scriptBodies_sites] at h
  rw [script.funcs_eq ctx.root ctx.enclosing]
  exact sites_run h

end Check

/-- The bodies of functions leave the frame around them as it was. -/
theorem FuncsRun.frame {ctx : Context} {ds : List (ItemId × FuncDecl)} {s s' : State} (h : FuncsRun ctx ds s s') :
    s'.frame = s.frame := by
  induction h with
  | nil => rfl
  | cons _ hd _ ih =>
    obtain ⟨_, _, _, -, -, -, rfl⟩ := Check.funcBody_run hd
    exact ih

/-- The bodies of functions note something for their own nodes only. -/
theorem FuncsRun.touches {ctx : Context} {ds : List (ItemId × FuncDecl)} {s s' : State} (h : FuncsRun ctx ds s s') :
    Touches (funcBodyIds ds) s s' := by
  induction h with
  | nil s => exact .refl _ s
  | cons _ hd _ ih =>
    rw [funcBodyIds_cons]
    exact ((Check.funcBody_touches hd).mono (List.subset_append_left _ _)).trans (ih.mono (List.subset_append_right _ _))

/-! ### Where the bodies stand -/

/-- The sites in the functions of declarations. -/
def siteLists : DeclLists Site where
  func outer _ := FuncDecl.sites outer
  type outer _ := TypeDecl.sites outer
  members id _ := Member.sitesOfList id
  member id _ := Member.sites id

/-- The sites are those in the functions. -/
theorem sites_related : siteLists.Related funcLists (fun _ _ ws ds => ws = ds.flatMap fun d => d.2.sites d.1) where
  nil _ _ := rfl
  append h h' := by rw [h, h', List.flatMap_append]
  func _ _ _ := (List.append_nil _).symm
  field _ _ _ := rfl
  case _ _ _ := rfl
  stmt _ _ _ := rfl
  type h := h

/-- The sites of a type are those in its functions. -/
theorem TypeDecl.sites_eq (decl : TypeDecl) (outer : ItemId) :
    decl.sites outer = (decl.funcs outer).flatMap fun d => d.2.sites d.1 := sites_related.of_type decl outer []

/-- The sites of a declaration are those in its functions. -/
theorem Element.sites_eq {element : Element} (root : ItemId) (h : ∀ st, element ≠ .stmt st) :
    element.sites root = (element.funcs root).flatMap fun d => d.2.sites d.1 := by
  cases element with
  | type decl => exact decl.sites_eq root
  | func decl => rw [Element.sites, Element.funcs, List.flatMap_singleton]
  | stmt st => exact absurd rfl (h st)

theorem Script.mem_funcs {root : ItemId} {d : ItemId × FuncDecl} {element : Element} (hd : d ∈ element.funcs root) :
    ∀ {script : Script}, element ∈ script → d ∈ script.funcs root
  | e :: rest, h => by
    rw [Script.funcs, List.mem_append]
    rcases List.mem_cons.1 h with rfl | h
    · exact .inl hd
    · exact .inr (Script.mem_funcs hd h)

/-- The sites in the functions of a script are among its sites. -/
theorem Script.func_sites_subset {root : ItemId} {d : ItemId × FuncDecl} : ∀ {script : Script}, d ∈ script.funcs root →
    d.2.sites d.1 ⊆ script.sites root
  | e :: rest, h => by
    rw [Script.funcs, List.mem_append] at h
    rw [Script.sites, List.flatMap_cons]
    rcases h with h | h
    · have hst : ∀ st, e ≠ .stmt st := by
        rintro st rfl
        cases h
      rw [Element.sites_eq root hst]
      exact fun site hsite => List.mem_append_left _ (List.mem_flatMap.2 ⟨d, h, hsite⟩)
    · exact List.subset_append_of_subset_right _ (Script.func_sites_subset h)

/-- Every site is in a statement at the top level, or in what stands directly in a function's body. -/
theorem Script.exists_root {root : ItemId} {script : Script} {w : Site} (h : w ∈ script.sites root) :
    ∃ r : Site, w ∈ r.tree ∧ r.tree ⊆ script.sites root ∧ (∀ e, r.part ≠ .expr e) ∧ r.place.outer = [] ∧
      r.place.here.owner.part? = none := by
  obtain ⟨element, hmem, hsite⟩ := List.mem_flatMap.1 h
  by_cases hst : ∃ st, element = .stmt st
  · obtain ⟨st, rfl⟩ := hst
    exact ⟨⟨.script, .stmt st⟩, hsite, fun v hv => List.mem_flatMap.2 ⟨_, hmem, hv⟩, by simp, rfl, rfl⟩
  · rw [Element.sites_eq _ fun st heq => hst ⟨st, heq⟩] at hsite
    obtain ⟨d, hd, hsite⟩ := List.mem_flatMap.1 hsite
    have hsub := Script.func_sites_subset (Script.mem_funcs hd hmem)
    rw [FuncDecl.sites, Block.sites_eq] at hsite hsub
    obtain ⟨r, hr, hw⟩ := List.mem_flatMap.1 hsite
    obtain ⟨hplace, hpart⟩ := Block.row_sameBody hr
    refine ⟨r, hw, fun v hv => hsub (List.mem_flatMap.2 ⟨r, hr, hv⟩), hpart, hplace.outer, ?_⟩
    rw [hplace.owner]
    rfl

/-- With a site, all sites in its part are sites of the script. -/
theorem Script.tree_subset {root : ItemId} {script : Script} {w : Site} (h : w ∈ script.sites root) :
    w.tree ⊆ script.sites root := by
  obtain ⟨r, hw, hsub, -⟩ := Script.exists_root h
  exact fun v hv => hsub (Site.tree_subset hw hv)

/-- What the bodies of functions gather, one after the other. -/
theorem FuncsRun.gathers {β : Type} {R : List β → State → State → Prop} [Gathers R] {ctx : Context}
    {ds : List (ItemId × FuncDecl)} {f : ItemId × FuncDecl → List β} {s s' : State} (h : FuncsRun ctx ds s s')
    (hbody : ∀ d ∈ ds, ∀ around, Check.Keeps (R (f d)) (Check.funcBody { ctx with enclosing := around } d.1 d.2)) :
    R (ds.flatMap f) s s' := by
  induction h with
  | nil s =>
    rw [List.flatMap_nil]
    exact Std.Refl.refl s
  | cons around hd _ ih =>
    rw [List.flatMap_cons]
    exact Gathers.seq (hbody _ List.mem_cons_self around hd) (ih fun d hd => hbody d (List.mem_cons_of_mem _ hd))

end ScriptCheck
