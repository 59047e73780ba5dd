import ScriptCheck.Proofs.Nesting

/-!
# The bodies of a script, in order

A template is made when the analysis of a body is over, so lambdas and tasks come before the body they stand in. A blueprint
is all that a template says besides the number of slots, and the tree alone says what the blueprints of the lambdas and tasks
in a part are and in which order they come (`Expr.closures`). There is one for each site of a lambda or a task, and it comes
before that of the body around the site (`Ordered`).
-/

namespace ScriptCheck

/-- What a template says about its body, besides the number of slots. -/
structure Blueprint where
  kind : TemplateKind
  seqElem : Option Ty
  isThisCall : Bool
  body : Option Nat

def Template.blueprint (t : Template) : Blueprint := ⟨t.kind, t.seqElem, t.isThisCall, t.body⟩

namespace Blueprint

/-- The statements at the top level. -/
def script : Blueprint := ⟨.script, none, false, none⟩

/-- A lambda or a task, which yields nothing and has no `this` of its own. -/
def closure (kind : TemplateKind) (body : Nat) : Blueprint := ⟨kind, none, false, some body⟩

/-- A function with this record. -/
def func (id : ItemId) (record : FuncRecord) (body : Nat) : Blueprint :=
  ⟨.func id, if record.isSequence then some record.ret else none, !record.isStatic, some body⟩

end Blueprint

/-! ### The lambdas and tasks in a part -/

mutual

/-- The lambdas and tasks in an expression, each after those in its body. -/
def Expr.closures : Expr → List Blueprint
  | .identifier _ _ _ => []
  | .intLit _ _ => []
  | .boolLit _ _ => []
  | .strLit _ _ => []
  | .binary _ _ left right => left.closures ++ right.closures
  | .unary _ _ operand => operand.closures
  | .assign _ target value => target.closures ++ value.closures
  | .call _ callee args => callee.closures ++ Expr.closuresOfList args
  | .lambda node _ _ body => body.closures ++ [.closure (.lambda node.id) body.node.id]
  | .member _ object _ _ => object.closures
  | .index _ object index => object.closures ++ index.closures
  | .isTest _ value _ => value.closures

/-- The lambdas and tasks in several expressions. -/
def Expr.closuresOfList : List Expr → List Blueprint
  | [] => []
  | e :: es => e.closures ++ Expr.closuresOfList es

/-- The lambdas and tasks in the body of a lambda. -/
def Body.closures : Body → List Blueprint
  | .expr e => e.closures
  | .block b => b.closures

/-- The lambdas and tasks in a block. -/
def Block.closures : Block → List Blueprint
  | .mk _ ss => Stmt.closuresOfList ss

/-- The lambdas and tasks in several statements. -/
def Stmt.closuresOfList : List Stmt → List Blueprint
  | [] => []
  | s :: ss => s.closures ++ Stmt.closuresOfList ss

/-- The lambdas and tasks in a statement, each after those in its body. -/
def Stmt.closures : Stmt → List Blueprint
  | .varDecl _ _ _ init => Expr.closuresOfOption init
  | .ifThen _ cond thenBody elseBody => cond.closures ++ (thenBody.closures ++ Stmt.closuresOfOption elseBody)
  | .whileDo _ cond body => cond.closures ++ body.closures
  | .block _ b => b.closures
  | .expr _ e => e.closures
  | .ret _ value => Expr.closuresOfOption value
  | .yields _ e => e.closures
  | .breaks _ => []
  | .continues _ => []
  | .task node b => b.closures ++ [.closure (.task node.id) b.node.id]
  | .awaits _ b => b.closures

/-- The lambdas and tasks in an expression that may be missing. -/
def Expr.closuresOfOption : Option Expr → List Blueprint
  | none => []
  | some e => e.closures

/-- The lambdas and tasks in a statement that may be missing. -/
def Stmt.closuresOfOption : Option Stmt → List Blueprint
  | none => []
  | some s => s.closures

end

namespace Script

/-- The lambdas and tasks in the statements at the top level. -/
def closures : Script → List Blueprint
  | [] => []
  | .stmt s :: rest => s.closures ++ closures rest
  | .type _ :: rest => closures rest
  | .func _ :: rest => closures rest

theorem closures_eq : ∀ script : Script, script.closures = Stmt.closuresOfList script.stmts
  | [] => rfl
  | .stmt s :: rest => congrArg (s.closures ++ ·) (closures_eq rest)
  | .type _ :: rest => closures_eq rest
  | .func _ :: rest => closures_eq rest

end Script

/-- A function that is declared under `outer`, as its record has it. -/
def FuncDecl.blueprint? (reg : Registry) (outer : ItemId) (decl : FuncDecl) : Option Blueprint :=
  (reg.func? (decl.idUnder outer)).map fun r => .func (decl.idUnder outer) r decl.body.node.id

/-- A function after the lambdas and tasks in it. -/
def FuncDecl.blueprints (reg : Registry) (outer : ItemId) (decl : FuncDecl) : List Blueprint :=
  decl.body.closures ++ (decl.blueprint? reg outer).toList

/-- Functions in the order of their declarations. -/
def funcBlueprints (reg : Registry) (ds : List (ItemId × FuncDecl)) : List Blueprint :=
  ds.flatMap fun d => d.2.blueprints reg d.1

/-- All bodies of a script: the script's own comes before those of its functions. -/
def Script.blueprints (reg : Registry) (root : ItemId) (script : Script) : List Blueprint :=
  script.closures ++ Blueprint.script :: funcBlueprints reg (script.funcs root)

/-! ### Sites -/

/-- The lambda or task that stands at a site. -/
def Site.closure? : Site → Option Blueprint
  | ⟨_, .expr (.lambda node _ _ body)⟩ => some (.closure (.lambda node.id) body.node.id)
  | ⟨_, .stmt (.task node b)⟩ => some (.closure (.task node.id) b.node.id)
  | _ => none

/-- The kind of the template of a body. -/
def Owner.kind : Owner → TemplateKind
  | .script => .script
  | .func id => .func id
  | .lambda node _ _ _ => .lambda node.id
  | .task node _ => .task node.id

/-- The lambdas and tasks at the sites are those in the list, and each that does not stand directly in the body of `o` comes
before the one whose body it stands in. -/
structure Ordered (o : Owner) (sites : List Site) (l : List Blueprint) : Prop where
  perm : l.Perm (sites.filterMap Site.closure?)
  before : ∀ w ∈ sites, ∀ b ∈ w.closure?, w.place.here.owner = o ∨
    ∃ c, c.kind = w.place.here.owner.kind ∧ [b, c].Sublist l

namespace Ordered

variable {o : Owner} {sites sites' : List Site} {l l' : List Blueprint}

theorem nil : Ordered o [] [] := ⟨.nil, by simp⟩

theorem append (h : Ordered o sites l) (h' : Ordered o sites' l') : Ordered o (sites ++ sites') (l ++ l') where
  perm := by
    rw [List.filterMap_append]
    exact h.perm.append h'.perm
  before := by
    rw [List.forall_mem_append]
    constructor
    · intro w hw b hb
      refine (h.before w hw b hb).imp_right ?_
      rintro ⟨c, hc, hsub⟩
      exact ⟨c, hc, hsub.trans (List.sublist_append_left l l')⟩
    · intro w hw b hb
      refine (h'.before w hw b hb).imp_right ?_
      rintro ⟨c, hc, hsub⟩
      exact ⟨c, hc, hsub.trans (List.sublist_append_right l l')⟩

theorem flatMap {l : List Site} {f : Site → List Site} {g : Site → List Blueprint} (h : ∀ c ∈ l, Ordered o (f c) (g c)) :
    Ordered o (l.flatMap f) (l.flatMap g) := by
  induction l with
  | nil => exact nil
  | cons c cs ih =>
    rw [List.forall_mem_cons] at h
    exact h.1.append (ih h.2)

/-- A part that is no lambda or task. -/
theorem cons (h : Ordered o sites l) {p : Place} {part : Part} (hsite : Site.closure? ⟨p, part⟩ = none) :
    Ordered o (⟨p, part⟩ :: sites) l where
  perm := by
    rw [List.filterMap_cons_none hsite]
    exact h.perm
  before := by
    rw [List.forall_mem_cons]
    refine ⟨fun b hb => ?_, h.before⟩
    rw [hsite] at hb
    cases hb

theorem mem (h : Ordered o sites l) {w : Site} {b : Blueprint} (hw : w ∈ sites) (hb : w.closure? = some b) : b ∈ l :=
  h.perm.mem_iff.2 (List.mem_filterMap.2 ⟨w, hw, hb⟩)

/-- Once the body of `o` is added, every lambda and task comes before the body it stands in. -/
theorem before_own (h : Ordered o sites l) {own : Blueprint} (hown : own.kind = o.kind) {w : Site} (hw : w ∈ sites)
    {b : Blueprint} (hb : w.closure? = some b) : ∃ c, c.kind = w.place.here.owner.kind ∧ [b, c].Sublist (l ++ [own]) := by
  rcases h.before w hw b hb with howner | ⟨c, hc, hsub⟩
  · rw [howner]
    exact ⟨own, hown, (List.singleton_sublist.2 (h.mem hw hb)).append_right [own]⟩
  · exact ⟨c, hc, hsub.trans (List.sublist_append_left l [own])⟩

/-- A lambda or a task comes after all that stands in its body. -/
theorem closure (h : Ordered o sites l) {p : Place} {part : Part} {own : Blueprint} (hsite : Site.closure? ⟨p, part⟩ = some own)
    (hown : own.kind = o.kind) : Ordered p.here.owner (⟨p, part⟩ :: sites) (l ++ [own]) where
  perm := by
    rw [List.filterMap_cons_some hsite]
    exact List.perm_append_singleton own l |>.trans (h.perm.cons own)
  before := by
    rw [List.forall_mem_cons]
    exact ⟨fun _ _ => .inl rfl, fun w hw b hb => .inr (h.before_own hown hw hb)⟩

end Ordered

/-- The lambdas and tasks in a part. -/
def Part.closures : Part → List Blueprint
  | .expr e => e.closures
  | .stmt s => s.closures
  | .result e => e.closures

section Rows

variable (p : Place)

theorem Expr.closuresOfList_eq (es : List Expr) :
    Expr.closuresOfList es = (es.map (Site.mk p <| .expr ·)).flatMap (·.part.closures) := by
  induction es with
  | nil => rw [Expr.closuresOfList]; rfl
  | cons e es ih => rw [Expr.closuresOfList, ih]; rfl

theorem Stmt.closuresOfList_eq (ss : List Stmt) : Stmt.closuresOfList ss = (Stmt.row p ss).flatMap (·.part.closures) := by
  induction ss generalizing p with
  | nil => rw [Stmt.closuresOfList]; rfl
  | cons s ss ih => rw [Stmt.closuresOfList, ih (p.after s)]; rfl

theorem Block.closures_eq (b : Block) : b.closures = (b.row p).flatMap (·.part.closures) := by
  obtain ⟨_, ss⟩ := b
  rw [Block.closures, Block.row, Stmt.closuresOfList_eq]

theorem Body.closures_eq : ∀ body : Body, body.closures = (body.row p).flatMap (·.part.closures)
  | .expr e => by rw [Body.closures, Body.row, List.flatMap_singleton, Part.closures]
  | .block b => by rw [Body.closures, Body.row, b.closures_eq p]

end Rows

/-- The lambdas and tasks in a part are those below it, in order, and after them the part itself if it is one. -/
theorem Site.closures_eq (w : Site) : w.part.closures = w.below.flatMap (·.part.closures) ++ w.closure?.toList := by
  obtain ⟨p, e | s | e⟩ := w
  · cases e with
    | call node callee args =>
      simp [Part.closures, below, Part.children, Part.inner, closure?, Expr.closures, Expr.closuresOfList_eq p args]
    | lambda node params ret body =>
      simp [Part.closures, below, Part.children, Part.inner, closure?, Expr.closures,
        body.closures_eq (p.enter (.lambda node params ret body) (LambdaParam.visible params))]
    | _ => simp [Part.closures, below, Part.children, Part.inner, closure?, Expr.closures]
  · cases s with
    | varDecl node ty name init =>
      cases init <;> simp [Part.closures, below, Part.children, Part.inner, closure?, Stmt.closures, Expr.closuresOfOption]
    | ret node value =>
      cases value <;> simp [Part.closures, below, Part.children, Part.inner, closure?, Stmt.closures, Expr.closuresOfOption]
    | ifThen node cond thenBody elseBody =>
      cases elseBody <;>
        simp [Part.closures, below, Part.children, Part.inner, closure?, Stmt.closures, Stmt.closuresOfOption]
    | task node b =>
      simp [Part.closures, below, Part.children, Part.inner, closure?, Stmt.closures, b.closures_eq (p.enter (.task node b) [])]
    | _ => simp [Part.closures, below, Part.children, Part.inner, closure?, Stmt.closures, Block.closures_eq p]
  · simp [Part.closures, below, Part.children, Part.inner, closure?]

/-- The sites below a lambda or a task stand in its body. -/
theorem Owner.owner_below {o : Owner} {p : Place} {part : Part} {c : Site} (h : o.part? = some part)
    (hc : c ∈ (Site.mk p part).below) : c.place.here.owner = o := by
  cases o with
  | script => cases h
  | func id => cases h
  | lambda node params ret body =>
    cases h
    exact (Body.row_sameBody hc).1.owner
  | task node block =>
    cases h
    exact (Block.row_sameBody hc).1.owner

theorem Owner.closure?_part {o : Owner} {part : Part} (h : o.part? = some part) (p : Place) :
    ∃ own, Site.closure? ⟨p, part⟩ = some own ∧ own.kind = o.kind := by
  cases o <;> cases h <;> exact ⟨_, rfl, rfl⟩

theorem Site.closure?_eq_none {w : Site} (h : ∀ o : Owner, o.part? ≠ some w.part) : w.closure? = none := by
  obtain ⟨p, e | s | e⟩ := w
  · cases e with
    | lambda node params ret body => exact absurd rfl (h (.lambda node params ret body))
    | _ => rfl
  · cases s with
    | task node b => exact absurd rfl (h (.task node b))
    | _ => rfl
  · rfl

/-- Each lambda and task in a part comes before the one whose body it stands in. -/
theorem Site.closures_ordered (w : Site) : Ordered w.place.here.owner w.tree w.part.closures := by
  induction w using Site.induct with
  | h w ih =>
    rw [tree_eq, closures_eq]
    by_cases hw : ∃ o : Owner, o.part? = some w.part
    · obtain ⟨o, ho⟩ := hw
      obtain ⟨own, hown, hkind⟩ := Owner.closure?_part ho w.place
      have hbelow : Ordered o (w.below.flatMap tree) (w.below.flatMap (·.part.closures)) :=
        .flatMap fun c hc => Owner.owner_below ho hc ▸ ih c hc
      rw [hown]
      exact hbelow.closure hown hkind
    · have hnone : w.closure? = none := closure?_eq_none fun o ho => hw ⟨o, ho⟩
      rw [hnone, Option.toList_none, List.append_nil]
      refine .cons (.flatMap fun c hc => ?_) hnone
      rcases place_below hc with hsame | ⟨o, -, ho, -⟩
      · exact hsame.owner ▸ ih c hc
      · exact absurd ⟨o, ho⟩ hw

/-! ### The nodes of sites -/

/-- The node of the expression or statement at a site. The expression that is a lambda's body has a site of its own, so the
lambda's result counts for nothing. -/
def Site.node? : Site → Option Nat
  | ⟨_, .expr e⟩ => some e.node.id
  | ⟨_, .stmt s⟩ => some s.node.id
  | ⟨_, .result _⟩ => none

section Rows

variable (p : Place)

theorem Expr.idsOfList_eq (es : List Expr) : Expr.idsOfList es = (es.map (Site.mk p <| .expr ·)).flatMap (·.part.ids) := by
  induction es with
  | nil => rw [Expr.idsOfList]; rfl
  | cons e es ih => rw [Expr.idsOfList, ih]; rfl

theorem Stmt.idsOfList_eq (ss : List Stmt) : Stmt.idsOfList ss = (Stmt.row p ss).flatMap (·.part.ids) := by
  induction ss generalizing p with
  | nil => rw [Stmt.idsOfList]; rfl
  | cons s ss ih => rw [Stmt.idsOfList, ih (p.after s)]; rfl

theorem Block.row_ids (b : Block) : ((b.row p).flatMap (·.part.ids)).Sublist b.ids := by
  obtain ⟨_, ss⟩ := b
  rw [Block.row, ← Stmt.idsOfList_eq, Block.ids]
  exact List.sublist_cons_self _ _

theorem Body.row_ids : ∀ body : Body, ((body.row p).flatMap (·.part.ids)).Sublist body.ids
  | .expr e => by
    rw [Body.row, List.flatMap_singleton, Body.ids]
    exact List.Sublist.refl _
  | .block b => b.row_ids p

end Rows

/-- The numbers of a part are its own and, after it, those of what is below it. -/
theorem Site.ids_below (w : Site) : (w.node?.toList ++ w.below.flatMap (·.part.ids)).Sublist w.part.ids := by
  obtain ⟨p, e | s | e⟩ := w
  · cases e with
    | lambda node params ret body =>
      simp only [node?, below, Part.children, Part.inner, Part.ids, Expr.ids, Expr.node, List.map_nil, List.nil_append]
      exact (((body.row_ids _).trans (List.sublist_append_right _ _)).trans (List.sublist_append_right _ _)).cons_cons _
    | _ => simp [node?, below, Part.children, Part.inner, Part.ids, Expr.ids, Expr.node, Expr.idsOfList_eq p]
  · cases s with
    | varDecl node ty name init =>
      cases init <;> simp [node?, below, Part.children, Part.inner, Part.ids, Stmt.ids, Stmt.node, Expr.idsOfOption]
    | ret node value =>
      cases value <;> simp [node?, below, Part.children, Part.inner, Part.ids, Stmt.ids, Stmt.node, Expr.idsOfOption]
    | ifThen node cond thenBody elseBody =>
      cases elseBody <;> simp [node?, below, Part.children, Part.inner, Part.ids, Stmt.ids, Stmt.node, Stmt.idsOfOption]
    | block node b | task node b | awaits node b => exact (b.row_ids _).cons_cons _
    | _ => simp [node?, below, Part.children, Part.inner, Part.ids, Stmt.ids, Stmt.node]
  · simp [node?, below, Part.children, Part.inner, Part.ids]

/-- The nodes of the sites in a part are among those of the part, in order. -/
theorem Site.tree_nodes (w : Site) : (w.tree.filterMap node?).Sublist w.part.ids := by
  induction w using Site.induct with
  | h w ih =>
    refine List.Sublist.trans ?_ w.ids_below
    rw [tree_eq, ← List.singleton_append, List.filterMap_append, List.filterMap_flatMap]
    refine .append ?_ (List.Sublist.flatMap_right _ ih)
    cases hn : w.node? <;> simp [hn]

theorem FuncDecl.sites_nodes (decl : FuncDecl) (outer : ItemId) :
    ((decl.sites outer).filterMap Site.node?).Sublist decl.ids := by
  have hbody : ((decl.sites outer).filterMap Site.node?).Sublist decl.body.ids := by
    rw [FuncDecl.sites, Block.sites_eq, List.filterMap_flatMap]
    exact (List.Sublist.flatMap_right _ fun c _ => c.tree_nodes).trans (decl.body.row_ids _)
  exact ((hbody.trans (List.sublist_append_right _ _)).trans (List.sublist_append_right _ _)).cons _

/-- The sites of declarations and statements are at nodes of them, each at its own. -/
theorem sites_nodes_related : DeclLists.Related { siteLists with stmt := fun _ _ s => s.sites .script } idLists
    (fun _ _ ws ns => (ws.filterMap Site.node?).Sublist ns) where
  nil _ _ := .slnil
  append h h' := by
    rw [List.filterMap_append]
    exact h.append h'
  func id _ decl := decl.sites_nodes id
  field _ _ _ := List.nil_sublist _
  case _ _ _ := List.nil_sublist _
  stmt _ _ s := Site.tree_nodes ⟨.script, .stmt s⟩
  type h := (h.trans (List.sublist_append_right _ _)).cons _

theorem Script.sites_nodes (root : ItemId) (script : Script) : ((script.sites root).filterMap Site.node?).Sublist script.ids :=
  sites_nodes_related.of_script root [] {} {} script

/-! ### All bodies of a script -/

/-- A script's sites are those in its own statements and those in its functions. -/
theorem Script.closures_ordered (root : ItemId) : ∀ script : Script, ∃ own, Ordered .script own script.closures ∧
    (script.sites root).Perm (own ++ (script.funcs root).flatMap fun d => d.2.sites d.1)
  | [] => ⟨[], .nil, .nil⟩
  | .stmt s :: rest => by
    obtain ⟨own, hown, hsites⟩ := Script.closures_ordered root rest
    refine ⟨s.sites .script ++ own, (Site.closures_ordered ⟨.script, .stmt s⟩).append hown, ?_⟩
    rw [List.append_assoc]
    exact hsites.append_left _
  | .type decl :: rest => by
    obtain ⟨own, hown, hsites⟩ := Script.closures_ordered root rest
    refine ⟨own, hown, ?_⟩
    rw [Script.sites, List.flatMap_cons, Element.sites, decl.sites_eq, Script.funcs, Element.funcs, List.flatMap_append]
    exact (hsites.append_left _).trans (List.perm_append_comm_assoc _ _ _)
  | .func decl :: rest => by
    obtain ⟨own, hown, hsites⟩ := Script.closures_ordered root rest
    refine ⟨own, hown, ?_⟩
    rw [Script.sites, List.flatMap_cons, Script.funcs, Element.funcs, List.flatMap_append, List.flatMap_singleton]
    exact (hsites.append_left _).trans (List.perm_append_comm_assoc _ _ _)

theorem FuncDecl.closures_ordered (decl : FuncDecl) (outer : ItemId) :
    Ordered (.func (decl.idUnder outer)) (decl.sites outer) decl.body.closures := by
  rw [FuncDecl.sites, Block.sites_eq, Block.closures_eq (decl.place outer)]
  refine .flatMap fun c hc => ?_
  have howner : c.place.here.owner = .func (decl.idUnder outer) := (Block.row_sameBody hc).1.owner
  exact howner ▸ c.closures_ordered

namespace Script

variable {reg : Registry} {root : ItemId} {script : Script}

/-- There is one body for the script, one for each of its functions and one for each lambda and task. -/
theorem blueprints_perm (reg : Registry) (root : ItemId) (script : Script) : (script.blueprints reg root).Perm
    (.script :: ((script.funcs root).filterMap (fun d => d.2.blueprint? reg d.1) ++
      (script.sites root).filterMap Site.closure?)) := by
  obtain ⟨own, hown, hsites⟩ := script.closures_ordered root
  have hfuncs : (funcBlueprints reg (script.funcs root)).Perm ((script.funcs root).filterMap (fun d => d.2.blueprint? reg d.1) ++
      ((script.funcs root).flatMap fun d => d.2.sites d.1).filterMap Site.closure?) := by
    rw [List.filterMap_flatMap, List.filterMap_eq_flatMap_toList]
    refine .trans ?_ (List.flatMap_append_perm _ _ _).symm
    refine List.Perm.flatMap_left _ fun d _ => ?_
    exact ((d.2.closures_ordered d.1).perm.append_right _).trans List.perm_append_comm
  refine List.perm_middle.trans (.cons _ ((hown.perm.append hfuncs).trans ?_))
  refine (List.perm_append_comm_assoc _ _ _).trans (.append_left _ ?_)
  rw [← List.filterMap_append]
  exact (hsites.filterMap _).symm

/-- A lambda or a task comes before the body it stands in. -/
theorem blueprints_before (hrecords : ∀ d ∈ script.funcs root, (d.2.blueprint? reg d.1).isSome) {w : Site}
    (hw : w ∈ script.sites root) {b : Blueprint} (hb : w.closure? = some b) :
    ∃ c, c.kind = w.place.here.owner.kind ∧ [b, c].Sublist (script.blueprints reg root) := by
  obtain ⟨own, hown, hsites⟩ := script.closures_ordered root
  rcases List.mem_append.1 (hsites.mem_iff.1 hw) with hw | hw
  · obtain ⟨c, hc, hsub⟩ := hown.before_own (rfl : Blueprint.script.kind = .script) hw hb
    refine ⟨c, hc, hsub.trans ?_⟩
    exact ((List.nil_sublist _).cons_cons _).append_left _
  · obtain ⟨d, hd, hw⟩ := List.mem_flatMap.1 hw
    obtain ⟨f, hf⟩ := Option.isSome_iff_exists.1 (hrecords d hd)
    have hkind : f.kind = .func (d.2.idUnder d.1) := by
      obtain ⟨r, -, rfl⟩ := Option.map_eq_some_iff.1 hf
      rfl
    obtain ⟨c, hc, hsub⟩ := (d.2.closures_ordered d.1).before_own hkind hw hb
    refine ⟨c, hc, hsub.trans ?_⟩
    have hlist : d.2.blueprints reg d.1 = d.2.body.closures ++ [f] := by rw [FuncDecl.blueprints, hf, Option.toList_some]
    rw [← hlist]
    have hfunc : (d.2.blueprints reg d.1).Sublist (funcBlueprints reg (script.funcs root)) :=
      List.sublist_flatten_of_mem (List.mem_map_of_mem hd)
    exact hfunc.trans ((List.sublist_cons_self _ _).trans (List.sublist_append_right _ _))

end Script

end ScriptCheck
