import ScriptCheck.Proofs.LockstepBodies
import ScriptCheck.Proofs.NoUnresolved

/-!
# Function bodies on their own

All bodies of a script are analysed in one state, one after the other, and yet what a function's body holds matters to no
other: when it is replaced, the same declarations are collected and the same records made, and what is reported and noted
outside the body stays what it was. The body is analysed in a frame of its own, it reports and notes at its own nodes only,
and it cannot make variables of the script. So two runs that differ in it are in step again as soon as they leave it, up to
the number of templates made so far.
-/

namespace ScriptCheck

/-! ### Scripts that differ in one body -/

/-- The second member is the first with the body `old` of one function in it replaced by `new`. -/
inductive Member.Rebodied (old new : Block) : Member → Member → Prop where
  | func (decl : FuncDecl) (h : decl.body = old) : Rebodied old new (.func decl) (.func { decl with body := new })
  | type (node : Node) (kind : DeclKind) (name : String) (typeParams : List String) (base : Option TypeExpr)
      (before after : List Member) {m m' : Member} (h : Rebodied old new m m') :
      Rebodied old new (.type (.mk node kind name typeParams base (before ++ m :: after)))
        (.type (.mk node kind name typeParams base (before ++ m' :: after)))

/-- The second declaration is the first with the body `old` of one function in it replaced by `new`. -/
inductive Element.Rebodied (old new : Block) : Element → Element → Prop where
  | func (decl : FuncDecl) (h : decl.body = old) : Rebodied old new (.func decl) (.func { decl with body := new })
  | type {decl decl' : TypeDecl} (h : Member.Rebodied old new (.type decl) (.type decl')) :
      Rebodied old new (.type decl) (.type decl')

/-- The second script is the first with the body `old` of one function in it replaced by `new`. -/
inductive Script.Rebodied (old new : Block) : Script → Script → Prop where
  | mk (before after : Script) {e e' : Element} (h : Element.Rebodied old new e e') :
      Rebodied old new (before ++ e :: after) (before ++ e' :: after)

/-- The second list is the first with the body `old` of one function in it replaced by `new`. -/
inductive FuncSite.Rebodied (old new : Block) : List FuncSite → List FuncSite → Prop where
  | mk (before after : List FuncSite) (f : FuncSite) (h : f.decl.body = old) :
      Rebodied old new (before ++ f :: after) (before ++ { f with decl := { f.decl with body := new } } :: after)

/-- The nodes that belong to neither body. -/
def Block.outside (old new : Block) : Set Nat := { n | n ∉ old.ids ∧ n ∉ new.ids }

instance (old new : Block) : DecidablePred (· ∈ Block.outside old new) :=
  fun n => inferInstanceAs (Decidable (n ∉ old.ids ∧ n ∉ new.ids))

variable {old new : Block}

/-! ### The same declarations -/

namespace Member

namespace Rebodied

variable {m m' : Member}

theorem caseName? (h : Rebodied old new m m') : m.caseName? = none ∧ m'.caseName? = none := by
  cases h <;> exact ⟨rfl, rfl⟩

theorem collectMembers_congr (h : Rebodied old new m m')
    (hm : ∀ id seen c, collectMember id seen m' c = collectMember id seen m c) (after : List Member) (id : ItemId)
    (before : List Member) (seen : List String) (c : Collected) :
    collectMembers id seen (before ++ m' :: after) c = collectMembers id seen (before ++ m :: after) c := by
  induction before generalizing seen c with
  | nil => rw [List.nil_append, List.nil_append, collectMembers, collectMembers, hm, h.caseName?.1, h.caseName?.2]
  | cons b before ih =>
    rw [List.cons_append, List.cons_append, collectMembers, collectMembers]
    exact ih _ _

/-- What is collected does not depend on bodies. -/
theorem collect (h : Rebodied old new m m') (id : ItemId) (seen : List String) (c : Collected) :
    collectMember id seen m' c = collectMember id seen m c := by
  induction h generalizing id seen c with
  | func decl h => rfl
  | type node kind name typeParams base before after h ih =>
    rw [collectMember, collectMember, collectType, collectType]
    dsimp only
    split
    · rfl
    · exact h.collectMembers_congr ih after _ before _ _

theorem declareMembers_congr (hm : ∀ ctx id, Check.declareMember ctx id m' = Check.declareMember ctx id m)
    (after : List Member) (ctx : Context) (id : ItemId) (before : List Member) (made : Module) :
    Check.declareMembers ctx id (before ++ m' :: after) made = Check.declareMembers ctx id (before ++ m :: after) made := by
  induction before generalizing made with
  | nil => rw [List.nil_append, List.nil_append, Check.declareMembers, Check.declareMembers, hm]
  | cons b before ih =>
    rw [List.cons_append, List.cons_append, Check.declareMembers, Check.declareMembers]
    exact bind_congr ih

/-- The records that are made do not depend on bodies. -/
theorem declare (h : Rebodied old new m m') (ctx : Context) (id : ItemId) :
    Check.declareMember ctx id m' = Check.declareMember ctx id m := by
  induction h generalizing ctx id with
  | func decl h =>
    funext made
    rw [Check.declareMember, Check.declareMember]
    rfl
  | @type node kind name typeParams base before after m m' h ih =>
    have hcases : Check.enumCases (before ++ m' :: after) = Check.enumCases (before ++ m :: after) := by
      cases h <;> simp [Check.enumCases, List.filterMap_append]
    funext made
    rw [Check.declareMember, Check.declareMember, Check.declareType, Check.declareType, hcases]
    exact bind_congr fun base => by rw [declareMembers_congr ih after _ _ before made]

end Rebodied

end Member

namespace Script

namespace Rebodied

variable {script script' : Script}

/-- What is collected does not depend on bodies. -/
theorem collect (h : Rebodied old new script script') (root : ItemId) : script'.collect root = script.collect root := by
  obtain ⟨before, after, h⟩ := h
  unfold Script.collect
  rw [List.foldl_append, List.foldl_append, List.foldl_cons, List.foldl_cons]
  cases h with
  | func decl h => rfl
  | type h =>
    have hc := fun c => h.collect root [] c
    simp only [collectMember] at hc
    rw [collectElement, collectElement, hc]

/-- The records that are made do not depend on bodies. -/
theorem declare (h : Rebodied old new script script') (ctx : Context) (made : Module) :
    Check.declareElements ctx script' made = Check.declareElements ctx script made := by
  obtain ⟨before, after, h⟩ := h
  induction before generalizing made with
  | nil =>
    rw [List.nil_append, List.nil_append]
    cases h with
    | func decl h =>
      rw [Check.declareElements, Check.declareElements]
      rfl
    | type h =>
      have hd := h.declare ctx ctx.root
      rw [Check.declareElements, Check.declareElements]
      have hd := congrFun hd made
      rw [Check.declareMember, Check.declareMember] at hd
      rw [hd]
  | cons b before ih =>
    rw [List.cons_append, List.cons_append]
    cases b with
    | type decl =>
      rw [Check.declareElements, Check.declareElements]
      exact bind_congr fun made => ih made
    | func decl =>
      rw [Check.declareElements, Check.declareElements]
      exact bind_congr fun made => ih made
    | stmt st =>
      rw [Check.declareElements, Check.declareElements]
      exact ih made

theorem scriptStmts (h : Rebodied old new script script') (ctx : Context) :
    Check.scriptStmts ctx script' = Check.scriptStmts ctx script := by
  obtain ⟨before, after, h⟩ := h
  induction before with
  | nil => cases h <;> rfl
  | cons b before ih =>
    cases b with
    | type decl => exact ih
    | func decl => exact ih
    | stmt st => exact bind_congr fun _ => ih

end Rebodied

end Script

/-! ### The same functions but for one body -/

theorem FuncSite.Rebodied.append {fs fs' : List FuncSite} (h : Rebodied old new fs fs') (gs hs : List FuncSite) :
    Rebodied old new (gs ++ (fs ++ hs)) (gs ++ (fs' ++ hs)) := by
  obtain ⟨before, after, f, h⟩ := h
  simpa using mk (gs ++ before) (after ++ hs) f h

theorem Member.funcSitesOfList_append (id : ItemId) (around : List DeclScope) : ∀ ms ms' : List Member,
    funcSitesOfList id around (ms ++ ms') = funcSitesOfList id around ms ++ funcSitesOfList id around ms'
  | [], ms' => by rw [List.nil_append, funcSitesOfList, List.nil_append]
  | m :: ms, ms' => by
    rw [List.cons_append, funcSitesOfList, funcSitesOfList, funcSitesOfList_append id around ms ms', List.append_assoc]

theorem Member.Rebodied.funcSites {m m' : Member} (h : Rebodied old new m m') (id : ItemId) (around : List DeclScope) :
    FuncSite.Rebodied old new (m.funcSites id around) (m'.funcSites id around) := by
  induction h generalizing id around with
  | func decl h =>
    rw [Member.funcSites, Member.funcSites]
    exact .mk [] [] ⟨around, id, decl⟩ h
  | type node kind name typeParams base before after h ih =>
    rw [Member.funcSites, Member.funcSites, TypeDecl.funcSites, TypeDecl.funcSites, funcSitesOfList_append,
      funcSitesOfList_append, funcSitesOfList, funcSitesOfList]
    exact (ih _ _).append _ _

theorem Script.Rebodied.funcSites {script script' : Script} (h : Rebodied old new script script') (root : ItemId)
    (around : List DeclScope) : FuncSite.Rebodied old new (script.funcSites root around) (script'.funcSites root around) := by
  obtain ⟨before, after, h⟩ := h
  rw [Script.funcSites, Script.funcSites, List.flatMap_append, List.flatMap_append, List.flatMap_cons, List.flatMap_cons]
  refine .append ?_ _ _
  cases h with
  | func decl h => exact .mk [] [] ⟨around, root, decl⟩ h
  | type h =>
    have hsites := h.funcSites root around
    rwa [Member.funcSites, Member.funcSites] at hsites

/-! ### Runs that differ in one body -/

/-- The states differ at most in the templates and in what was reported and noted at nodes of the two bodies. -/
structure Apart (old new : Block) (s s' : State) : Prop extends Agree (Block.outside old new) s s' where
  diagnostics : s'.diagnostics.filter (fun d => decide (d.node.id ∈ Block.outside old new)) =
    s.diagnostics.filter fun d => decide (d.node.id ∈ Block.outside old new)

namespace Check

variable {ctx : Context}

/-- Runs of the two steps take states that differ at most inside the two bodies to such states. -/
def Parallel (old new : Block) (x y : Check Unit) : Prop :=
  ∀ ⦃s s' t t' : State⦄, Apart old new s s' → x s = .ok ((), t) → y s' = .ok ((), t') → Apart old new t t'

namespace Parallel

theorem bind {x y : Check Unit} {f g : Unit → Check Unit} (h : Parallel old new x y) (hf : Parallel old new (f ()) (g ())) :
    Parallel old new (x >>= f) (y >>= g) := by
  intro s s' t t' hs hx hy
  obtain ⟨_, u, hu, ht⟩ := bind_eq_ok.1 hx
  obtain ⟨_, u', hu', ht'⟩ := bind_eq_ok.1 hy
  exact hf (h hs hu hu') ht ht'

/-- Steps that stay in step outside the bodies. -/
theorem of_lockstep {x y : Check Unit} (h : Lockstep Eq (Block.outside old new) Eq x y) : Parallel old new x y := by
  intro s s' t t' hs hx hy
  have htogether := h hs.toAgree
  rw [hx, hy] at htogether
  obtain ⟨_, hr, -, hagree, hgain⟩ := htogether.of_ok
  cases hr
  obtain ⟨ds, ds', hd, hd', halike, -⟩ := hgain.diagnostics
  have hsame : ds' = ds := by
    clear hd hd'
    induction halike with
    | nil => rfl
    | cons h _ ih => rw [h.eq, ih]
  refine ⟨hagree, ?_⟩
  rw [hd, hd', hsame, List.filter_append, List.filter_append, hs.diagnostics]

end Parallel

/-- A block reports and notes at its own nodes only, and makes no variable of the script. -/
theorem block_aside {b : Block} {s t : State} (h : block ctx b s = .ok ((), t)) (hs : s.globalScope = false) :
    t.globals = s.globals ∧ (∀ n, n ∉ b.ids → t.nodes.find? n = s.nodes.find? n) ∧
      ∃ ds, t.diagnostics = s.diagnostics ++ ds ∧ ∀ d ∈ ds, d.node.id ∈ b.ids := by
  have heffect := block_effect ctx b h
  refine ⟨heffect.globals hs, heffect.nodes, ?_⟩
  have hself := block_lockstep (E := Eq) (N := { n | n ∈ b.ids }) (.refl (fun _ => rfl) ctx) b fun _ hn => hn
  obtain ⟨ds, -, hd, -, -, hin⟩ := (hself.gained h).diagnostics
  exact ⟨ds, hd, hin⟩

/-- The two runs part in the function whose body differs, and are in step again behind it. -/
theorem funcBody_parallel (ctx : Context) (outer : ItemId) (decl : FuncDecl) (h : decl.body = old) :
    Parallel old new (funcBody ctx outer decl) (funcBody ctx outer { decl with body := new }) := by
  intro s s' t t' hs hx hy
  obtain ⟨record, u, w, hrecord, hu, hw, rfl⟩ := funcBody_run hx
  obtain ⟨record', u', w', hrecord', hu', hw', rfl⟩ := funcBody_run hy
  obtain rfl : record = record' := Option.some.inj (hrecord.symm.trans hrecord')
  have henter : Apart old new (s.enter record.frame) (s'.enter record.frame) :=
    ⟨⟨rfl, rfl, hs.globals, hs.nodes⟩, hs.diagnostics⟩
  have hparams : Apart old new u u' := Parallel.of_lockstep (declareParams_lockstep _ _) henter hu hu'
  have hkeeps : Keeps (StmtEffect ((decl.params.map fun p => (p.node, p.name)).map (·.1.id)))
      (declareParams (decl.params.map fun p => (p.node, p.name)) (record.params.map (·.ty))) :=
    declareParams_effect _ _ fun p hp => List.mem_map_of_mem hp
  obtain ⟨hglobals, hnodes, ds, hd, hin⟩ := block_aside hw (hkeeps hu).globalScope
  obtain ⟨hglobals', hnodes', ds', hd', hin'⟩ := block_aside hw' (hkeeps hu').globalScope
  rw [h] at hnodes hin
  have hnone : ∀ es : List Diagnostic, (∀ d ∈ es, d.node.id ∉ Block.outside old new) →
      es.filter (fun d => decide (d.node.id ∈ Block.outside old new)) = [] := fun es hes => by simpa using hes
  refine ⟨⟨hs.frame, hs.globalScope, ?_, fun n hn => ?_⟩, ?_⟩
  · exact hglobals'.trans (hparams.globals.trans hglobals.symm)
  · change (w'.nodes.find? n).map _ = (w.nodes.find? n).map _
    rw [hnodes n hn.1, hnodes' n hn.2]
    exact hparams.nodes n hn
  · change w'.diagnostics.filter _ = w.diagnostics.filter _
    rw [hd, hd', List.filter_append, List.filter_append, hparams.diagnostics, hnone ds fun d hd hout => hout.1 (hin d hd),
      hnone ds' fun d hd hout => hout.2 (hin' d hd)]

/-- In a list without repetition, a part shares nothing with what stands around it. -/
theorem nodup_around {a b c : List Nat} (h : (a ++ (b ++ c)).Nodup) : (∀ n ∈ a, n ∉ b) ∧ ∀ n ∈ c, n ∉ b := by
  obtain ⟨-, hbc, hab⟩ := List.nodup_append.1 h
  obtain ⟨-, -, hd⟩ := List.nodup_append.1 hbc
  exact ⟨fun n hn hm => hab n hn n (List.mem_append_left _ hm) rfl, fun n hn hm => hd n hm n hn rfl⟩

/-- The bodies before and after the one that differs are analysed in step. -/
theorem sites_parallel (ctx : Context) {fs fs' : List FuncSite} (h : FuncSite.Rebodied old new fs fs')
    (hids : (funcSiteIds fs).Nodup) (hids' : (funcSiteIds fs').Nodup) :
    Parallel old new (fs.forM (siteBody ctx)) (fs'.forM (siteBody ctx)) := by
  obtain ⟨before, after, f, h⟩ := h
  rw [funcSiteIds, List.flatMap_append, List.flatMap_cons] at hids hids'
  obtain ⟨hb, ha⟩ := nodup_around hids
  obtain ⟨hb', ha'⟩ := nodup_around hids'
  have hold : old.ids ⊆ f.decl.ids := fun n hn => by simp [FuncDecl.ids, h, hn]
  have hnew : new.ids ⊆ FuncDecl.ids { f.decl with body := new } := fun n hn => by simp [FuncDecl.ids, hn]
  have hsame : ∀ gs : List FuncSite, (∀ n ∈ funcSiteIds gs, n ∈ Block.outside old new) →
      Parallel old new (gs.forM (siteBody ctx)) (gs.forM (siteBody ctx)) :=
    fun gs hgs => .of_lockstep (sites_lockstep (.refl (fun _ => rfl) ctx) gs hgs)
  have hbefore := hsame before fun n hn => ⟨fun ho => hb n hn (hold ho), fun ho => hb' n hn (hnew ho)⟩
  have hafter := hsame after fun n hn => ⟨fun ho => ha n hn (hold ho), fun ho => ha' n hn (hnew ho)⟩
  simp only [List.forM_eq_forM, List.forM_append, List.forM_cons]
  exact hbefore.bind ((funcBody_parallel _ f.outer f.decl h).bind hafter)

theorem bodies_apart {script script' : Script} (h : Script.Rebodied old new script script') (hids : script.ids.Nodup)
    (hids' : script'.ids.Nodup) {s t t' : State} (hx : bodies ctx script s = .ok ((), t))
    (hy : bodies ctx script' s = .ok ((), t')) : Apart old new t t' := by
  obtain ⟨_, u, hu, ht⟩ := bind_eq_ok.1 hx
  obtain ⟨_, u', hu', ht'⟩ := bind_eq_ok.1 hy
  rw [h.scriptStmts, hu] at hu'
  cases hu'
  rw [scriptBodies_sites] at ht ht'
  have hnodup : ∀ script : Script, script.ids.Nodup → (funcSiteIds (script.funcSites ctx.root ctx.enclosing)).Nodup :=
    fun script hids => hids.sublist ((script.funcSites_ids _ _).trans script.declIds_sublist)
  exact sites_parallel ctx (h.funcSites _ _) (hnodup _ hids) (hnodup _ hids') (s := u.afterStmts) ⟨.refl _ _, rfl⟩ ht ht'

/-- The analyses of two scripts that differ in one body make the same module, or none, and end in states that differ at most
inside the body. -/
theorem script_apart {script script' : Script} (h : Script.Rebodied old new script script') (hids : script.ids.Nodup)
    (hids' : script'.ids.Nodup) {s t t' : State} {made made' : Option Module} (hx : Check.script ctx script s = .ok (made, t))
    (hy : Check.script ctx script' s = .ok (made', t')) : made' = made ∧ Apart old new t t' := by
  unfold Check.script at hx hy
  rw [h.declare] at hy
  obtain ⟨m, u, hm, hx⟩ := bind_eq_ok.1 hx
  obtain ⟨m', u', hm', hy⟩ := bind_eq_ok.1 hy
  cases hm.symm.trans hm'
  obtain ⟨fine, v, hv, hx⟩ := bind_eq_ok.1 hx
  obtain ⟨fine', v', hv', hy⟩ := bind_eq_ok.1 hy
  cases hv.symm.trans hv'
  cases fine with
  | false =>
    obtain ⟨rfl, rfl⟩ := pure_eq_ok.1 hx
    obtain ⟨rfl, rfl⟩ := pure_eq_ok.1 hy
    exact ⟨rfl, .refl _ _, rfl⟩
  | true =>
    obtain ⟨_, w, hw, hx⟩ := bind_eq_ok.1 hx
    obtain ⟨_, w', hw', hy⟩ := bind_eq_ok.1 hy
    obtain ⟨rfl, rfl⟩ := pure_eq_ok.1 hx
    obtain ⟨rfl, rfl⟩ := pure_eq_ok.1 hy
    exact ⟨rfl, bodies_apart h hids hids' hw hw'⟩

end Check

/-! ### The main statement -/

/-- The problems that an analysis ends with. -/
def problemsOf : Except (List Diagnostic) Output → List Diagnostic
  | .error problems => problems
  | .ok _ => []

/-- An analysis ends with the problems among the declarations, or with all that its run reported. -/
theorem problemsOf_analyze {setup : Setup} {script : Script} {r : Except (List Diagnostic) Output}
    (h : analyze setup script = .ok r) :
    ((script.collect (.root setup.moduleName)).diagnostics ≠ [] ∧
      problemsOf r = (script.collect (.root setup.moduleName)).diagnostics) ∨
    ((script.collect (.root setup.moduleName)).diagnostics = [] ∧
      ∃ made s, Check.script (setup.contextFor script) script .initial = .ok (made, s) ∧ problemsOf r = s.diagnostics) := by
  unfold analyze at h
  dsimp only at h
  split at h
  · rename_i hc
    cases h
    exact .inl ⟨by simpa using hc, rfl⟩
  · rename_i hc
    refine .inr ⟨by simpa using hc, ?_⟩
    obtain ⟨⟨made, s⟩, hrun, h⟩ := Except.bind_eq_ok.1 h
    refine ⟨made, s, hrun, ?_⟩
    cases made with
    | none =>
      cases h
      rfl
    | some m =>
      dsimp only at h
      split at h
      · cases h
        rfl
      · rename_i hs
        obtain ⟨_, -, h⟩ := Except.bind_eq_ok.1 h
        cases h
        exact (by simpa using hs : s.diagnostics = []).symm

namespace Sample

/-- `{ return 1; }` -/
def plainBody : Block := .mk (nd 3) [.ret (nd 4) (some (.intLit (nd 5) 1))]

/-- `{ var f = () => "a"; return f(); }` -/
def windingBody : Block := .mk (nd 6) [
  .varDecl (nd 7) (.var (nd 8)) "f" (some (.lambda (nd 9) [] none (.expr (.strLit (nd 10) "a")))),
  .ret (nd 11) (some (.call (nd 12) (.identifier (nd 13) "f" []) []))]

/-- `int price()` with this body. -/
def pricing (body : Block) : FuncDecl where
  node := nd 1
  name := .text "price"
  typeParams := []
  params := []
  ret := .named (nd 2) "int" []
  isSequence := false
  isStatic := false
  body := body

/-- `func func<int> later() { return () => 2; }` -/
def later : FuncDecl where
  node := nd 14
  name := .text "later"
  typeParams := []
  params := []
  ret := .func (nd 15) (.named (nd 16) "int" []) []
  isSequence := false
  isStatic := false
  body := .mk (nd 17) [.ret (nd 18) (some (.lambda (nd 19) [] none (.expr (.intLit (nd 20) 2))))]

/-- `class Shop { int price() ... }` and `later` after it. -/
def shop (body : Block) : Script := [.type (.mk (nd 0) .classDecl "Shop" [] none [.func (pricing body)]), .func later]

theorem shop_rebodied : Script.Rebodied plainBody windingBody (shop plainBody) (shop windingBody) :=
  .mk [] [.func later] (.type (.type (nd 0) .classDecl "Shop" [] none [] [] (.func (pricing plainBody) rfl)))

/-- A script on its own. -/
def alone : Setup := ⟨"Sample", [], captures⟩

end Sample

/-- Where two scripts differ in the body of one function, the same is collected from both and the same records are made; and
what is reported at, and noted for, the nodes outside the body is the same for both, up to the positions of templates. -/
theorem function_bodies_are_independent (setup : Setup) (script script' : Script) (old new : Block)
    (h : Script.Rebodied old new script script') (hids : script.ids.Nodup) (hids' : script'.ids.Nodup) :
    script'.collect (.root setup.moduleName) = script.collect (.root setup.moduleName) ∧
    (∀ ctx m, Check.declareElements ctx script' m = Check.declareElements ctx script m) ∧
    (∀ made made' t t', Check.script (setup.contextFor script) script .initial = .ok (made, t) →
      Check.script (setup.contextFor script') script' .initial = .ok (made', t') →
      made' = made ∧
      t'.diagnostics.filter (fun d => decide (d.node.id ∈ Block.outside old new)) =
        t.diagnostics.filter (fun d => decide (d.node.id ∈ Block.outside old new)) ∧
      ∀ n ∈ Block.outside old new,
        (t'.nodes.find? n).map NodeData.unplaced = (t.nodes.find? n).map NodeData.unplaced) ∧
    ∀ r r', analyze setup script = .ok r → analyze setup script' = .ok r' →
      (problemsOf r').filter (fun d => decide (d.node.id ∈ Block.outside old new)) =
        (problemsOf r).filter fun d => decide (d.node.id ∈ Block.outside old new) := by
  have hcontext : setup.contextFor script' = setup.contextFor script := by rw [Setup.contextFor, h.collect, Setup.contextFor]
  refine ⟨h.collect _, h.declare, fun made made' t t' hx hy => ?_, fun r r' hr hr' => ?_⟩
  · rw [hcontext] at hy
    obtain ⟨hmade, hapart⟩ := Check.script_apart h hids hids' hx hy
    exact ⟨hmade, hapart.diagnostics, hapart.nodes⟩
  · rcases problemsOf_analyze hr with ⟨hc, hp⟩ | ⟨hc, made, s, hx, hp⟩
    · rcases problemsOf_analyze hr' with ⟨-, hp'⟩ | ⟨hc', -⟩
      · rw [hp, hp', h.collect]
      · exact absurd (h.collect _ ▸ hc') hc
    · rcases problemsOf_analyze hr' with ⟨hc', -⟩ | ⟨-, made', s', hy, hp'⟩
      · exact absurd (h.collect _ ▸ hc) hc'
      · rw [hcontext] at hy
        rw [hp, hp']
        exact (Check.script_apart h hids hids' hx hy).2.diagnostics

/-- The longer body makes a lambda and has a mistake. What is noted in `later` stays, but its lambda is at another position. -/
theorem sample_function_bodies_are_independent :
    Script.Rebodied Sample.plainBody Sample.windingBody (Sample.shop Sample.plainBody) (Sample.shop Sample.windingBody) ∧
    ∃ made t t', Check.script (Sample.alone.contextFor (Sample.shop Sample.plainBody)) (Sample.shop Sample.plainBody) .initial =
        .ok (made, t) ∧
      Check.script (Sample.alone.contextFor (Sample.shop Sample.windingBody)) (Sample.shop Sample.windingBody) .initial =
        .ok (made, t') ∧
      t.diagnostics = [] ∧ t'.diagnostics ≠ [] ∧ t'.nodes.find? 19 ≠ t.nodes.find? 19 ∧
      (t'.nodes.find? 19).map NodeData.unplaced = (t.nodes.find? 19).map NodeData.unplaced := by
  have hall : (Check.script (Sample.alone.contextFor (Sample.shop Sample.plainBody)) (Sample.shop Sample.plainBody)
      .initial).toOption.any (fun r => (Check.script (Sample.alone.contextFor (Sample.shop Sample.windingBody))
        (Sample.shop Sample.windingBody) .initial).toOption.any fun r' =>
          r.2.diagnostics = [] ∧ r'.2.diagnostics ≠ [] ∧ r'.2.nodes.find? 19 ≠ r.2.nodes.find? 19) = true := by decide +kernel
  have hmain := (function_bodies_are_independent Sample.alone _ _ _ _ Sample.shop_rebodied (by decide +kernel)
    (by decide +kernel)).2.2.1
  cases hx : Check.script (Sample.alone.contextFor (Sample.shop Sample.plainBody)) (Sample.shop Sample.plainBody) .initial with
  | error e =>
    rw [hx] at hall
    cases hall
  | ok r =>
    cases hy : Check.script (Sample.alone.contextFor (Sample.shop Sample.windingBody)) (Sample.shop Sample.windingBody)
        .initial with
    | error e =>
      rw [hx, hy] at hall
      cases hall
    | ok r' =>
      rw [hx, hy] at hall
      obtain ⟨hs, hs', hne⟩ := of_decide_eq_true hall
      obtain ⟨hmade, -, hnodes⟩ := hmain r.1 r'.1 r.2 r'.2 hx hy
      exact ⟨Sample.shop_rebodied, r.1, r.2, r'.2, rfl, by rw [← hmade], hs, hs', hne, hnodes 19 (by decide)⟩

end ScriptCheck
