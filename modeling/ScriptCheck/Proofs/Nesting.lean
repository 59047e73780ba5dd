import ScriptCheck.Proofs.FuncBodies

/-!
# Sites inside lambdas and tasks

The bodies around a site are those of the lambdas and tasks it stands in: each of them stands at a site of its own, and the
site is among those in its body (`Script.nested`); with a lambda or a task, all sites in its body are sites of the script
(`Script.inside_subset`). The free uses of a body are the uses at its sites of names that nothing inside the body binds
(`Body.uses_iff`), so what a capturer reads off the tree can be said in terms of sites.
-/

namespace ScriptCheck

/-! ### The bodies around a site -/

/-- Seen from the body around `p`, the bodies around `w` that are further in belong to lambdas and tasks among the sites `S`,
with `w` inside. -/
def Nested (S : List Site) (p : Place) (w : Site) : Prop :=
  ∃ inner h, w.place.levels = inner ++ h :: p.outer ∧ h.owner = p.here.owner ∧
    ∀ pre l post, inner = pre ++ l :: post → ∃ q part, l.owner.part? = some part ∧ ⟨q, part⟩ ∈ S ∧
      q.levels = post ++ h :: p.outer ∧ w ∈ l.owner.inside q

namespace Nested

variable {S : List Site} {p q : Place} {w : Site}

theorem self (S : List Site) (p : Place) (part : Part) : Nested S p ⟨p, part⟩ := by
  refine ⟨[], p.here, rfl, rfl, ?_⟩
  intro pre l post h
  simp at h

/-- Only the body around a place matters, not how far the walk has come in it. -/
theorem of_same (h : Nested S q w) (hsame : p.SameBody q) : Nested S p w := by
  obtain ⟨inner, l, hlevels, hl, hinner⟩ := h
  rw [hsame.outer] at hlevels
  refine ⟨inner, l, hlevels, hl.trans hsame.owner, fun pre m post hm => ?_⟩
  obtain ⟨q', part, hpart, hmem, hq', hin⟩ := hinner pre m post hm
  exact ⟨q', part, hpart, hmem, by rw [hq', hsame.outer], hin⟩

/-- What is nested in the body of a lambda or a task is nested in the body around that. -/
theorem enter {owner : Owner} {params : List (String × Nat)} {part : Part} (h : Nested S (p.enter owner params) w)
    (hpart : owner.part? = some part) (hsite : ⟨p, part⟩ ∈ S) (hin : w ∈ owner.inside p) : Nested S p w := by
  obtain ⟨inner, l, hlevels, hl, hinner⟩ := h
  refine ⟨inner ++ [l], p.here, by rw [hlevels, List.append_assoc]; rfl, rfl, fun pre m post hm => ?_⟩
  rcases List.eq_nil_or_concat post with rfl | ⟨rest, last, rfl⟩
  · obtain ⟨rfl, hlast⟩ := List.append_inj' hm rfl
    cases hlast
    have howner : l.owner = owner := hl
    exact ⟨p, part, by rw [howner, hpart], hsite, rfl, by rwa [howner]⟩
  · rw [List.concat_eq_append, ← List.cons_append, ← List.append_assoc] at hm
    obtain ⟨hpre, hlast⟩ := List.append_inj' hm rfl
    cases hlast
    obtain ⟨q', part', hpart', hmem, hq', hin'⟩ := hinner pre m rest hpre
    refine ⟨q', part', hpart', hmem, ?_, hin'⟩
    rw [hq', List.concat_eq_append, List.append_assoc]
    rfl

end Nested

/-- The bodies around a site in a part, further in than the body around the part, are those of lambdas and tasks in the part. -/
theorem Site.nested {S : List Site} (r : Site) : r.tree ⊆ S → ∀ w ∈ r.tree, Nested S r.place w := by
  induction r using Site.induct with
  | h r ih =>
    intro hsub w hw
    rcases mem_tree.1 hw with rfl | ⟨c, hc, hw⟩
    · exact .self S _ _
    · have hin : c.tree ⊆ r.tree := fun v hv => mem_tree.2 (.inr ⟨c, hc, hv⟩)
      have hbelow := ih c hc (List.Subset.trans hin hsub) w hw
      rcases place_below hc with hsame | ⟨owner, params, hpart, hsame⟩
      · exact hbelow.of_same hsame
      · refine (hbelow.of_same hsame).enter hpart (hsub r.self_mem_tree) ?_
        rw [Owner.inside_eq hpart]
        exact List.mem_flatMap.2 ⟨c, hc, hw⟩

/-- Each body around a site that is not the script's or a function's belongs to a lambda or a task at a site of the script,
and the site is among those in its body. -/
theorem Script.nested {root : ItemId} {script : Script} {w : Site} (hw : w ∈ script.sites root) {pre post : List Level}
    {l : Level} (hlevels : w.place.levels = pre ++ l :: post) (hl : l.owner.part? ≠ none) :
    ∃ q part, l.owner.part? = some part ∧ ⟨q, part⟩ ∈ script.sites root ∧ q.levels = post ∧ w ∈ l.owner.inside q := by
  obtain ⟨r, hr, hsub, -, houter, hpart⟩ := Script.exists_root hw
  obtain ⟨inner, h, hlevels', howner, hinner⟩ := r.nested hsub w hr
  rw [houter] at hlevels' hinner
  rw [hlevels'] at hlevels
  rcases List.eq_nil_or_concat post with rfl | ⟨rest, last, rfl⟩
  · obtain ⟨-, hlast⟩ := List.append_inj' hlevels rfl
    cases hlast
    rw [howner] at hl
    exact absurd hpart hl
  · rw [List.concat_eq_append, ← List.cons_append, ← List.append_assoc] at hlevels
    obtain ⟨hpre, hlast⟩ := List.append_inj' hlevels rfl
    cases hlast
    obtain ⟨q, part, hq, hmem, hqlevels, hin⟩ := hinner pre l rest hpre
    exact ⟨q, part, hq, hmem, by rw [hqlevels, List.concat_eq_append], hin⟩

/-- The sites in the body of a lambda or a task of the script are sites of the script. -/
theorem Script.inside_subset {root : ItemId} {script : Script} {p : Place} {part : Part} {o : Owner}
    (hsite : ⟨p, part⟩ ∈ script.sites root) (ho : o.part? = some part) : o.inside p ⊆ script.sites root := by
  rw [Owner.inside_eq ho]
  intro w hw
  obtain ⟨c, hc, hw⟩ := List.mem_flatMap.1 hw
  exact Script.tree_subset hsite (Site.mem_tree.2 (.inr ⟨c, hc, hw⟩))

/-- A site in a body has that body around it. -/
theorem Body.levels_of_sites {body : Body} {p : Place} {w : Site} (hw : w ∈ body.sites p) :
    ∃ inner l, w.place.levels = inner ++ l :: p.outer ∧ l.owner = p.here.owner := by
  rw [Body.sites_eq] at hw
  obtain ⟨c, hc, hw⟩ := List.mem_flatMap.1 hw
  obtain ⟨inner, l, hlevels, hl, -⟩ := (c.nested (List.Subset.refl _) w hw).of_same (Body.row_sameBody hc).1
  exact ⟨inner, l, hlevels, hl⟩

/-- A site in the body of a lambda or a task has that body around it. -/
theorem Owner.levels_of_inside {o : Owner} {p : Place} {w : Site} (hw : w ∈ o.inside p) :
    ∃ inner l, w.place.levels = inner ++ l :: p.levels ∧ l.owner = o := by
  cases o with
  | script => cases hw
  | func id => cases hw
  | lambda node params ret body => exact Body.levels_of_sites hw
  | task node block =>
    have hbody : w ∈ (Body.block block).sites (p.enter (.task node block) []) := by rwa [Body.sites]
    exact Body.levels_of_sites hbody

/-! ### Uses at sites -/

/-- The name that the part at a site itself uses, if it is a plain identifier or writes one. -/
def Part.uses : Part → List CaptureNeed
  | .expr (.identifier _ name typeArgs) => if typeArgs.isEmpty then [⟨name, .copy⟩] else []
  | .expr (.unary _ (.step _ _) operand) => operand.plainName?.toList.map (⟨·, .ref⟩)
  | .expr (.assign _ target _) => target.plainName?.toList.map (⟨·, .ref⟩)
  | _ => []

/-- Nothing that is further in than the bodies `outer` binds the name. -/
def Unbound (outer : List Level) (x : String) (q : Place) : Prop :=
  ∃ inner, q.levels = inner ++ outer ∧ ∀ l ∈ inner, l.find? x = none

theorem Level.find?_eq_none {l : Level} {x : String} : l.find? x = none ↔ x ∉ l.visible.map (·.1) := by
  simp only [Level.find?, Option.map_eq_none_iff, List.find?_eq_none, List.mem_map, decide_eq_true_eq, not_exists, not_and]

theorem unbound_self {p : Place} {x : String} : Unbound p.outer x p ↔ p.here.find? x = none := by
  constructor
  · rintro ⟨inner, hlevels, hinner⟩
    have hone : [p.here] ++ p.outer = inner ++ p.outer := hlevels
    exact hinner p.here (by rw [← List.append_cancel_right hone]; exact List.mem_singleton_self _)
  · exact fun h => ⟨[p.here], rfl, by simpa using h⟩

/-- Further in than `outer` is further in than `l`, and the body `l` itself. -/
theorem unbound_cons {outer : List Level} {l : Level} {x : String} {q : Place} (hq : ∃ inner, q.levels = inner ++ l :: outer) :
    Unbound outer x q ↔ Unbound (l :: outer) x q ∧ l.find? x = none := by
  constructor
  · rintro ⟨inner, hlevels, hinner⟩
    obtain ⟨inner', hlevels'⟩ := hq
    have heq : inner = inner' ++ [l] := by
      rw [hlevels'] at hlevels
      have hcancel : (inner' ++ [l]) ++ outer = inner ++ outer := by simpa using hlevels
      exact (List.append_cancel_right hcancel).symm
    subst heq
    exact ⟨⟨inner', hlevels', fun m hm => hinner m (by simp [hm])⟩, hinner l (by simp)⟩
  · rintro ⟨⟨inner, hlevels, hinner⟩, hl⟩
    refine ⟨inner ++ [l], by simp [hlevels], ?_⟩
    simp only [List.mem_append, List.mem_singleton]
    rintro m (hm | rfl)
    · exact hinner m hm
    · exact hl

/-- The names that are bound at a place by the body around it. -/
def Place.names (p : Place) : List String := p.here.visible.map (·.1)

section Uses

variable (keep : CaptureKind → Prop) (x : String)

/-- The name is used in one of the ways to keep. -/
def Uses (uses : List CaptureNeed) : Prop := ∃ kind, keep kind ∧ ⟨x, kind⟩ ∈ uses

/-- One of the sites uses the name in one of the ways to keep, and nothing further in than `outer` binds it there. -/
def UsedAt (outer : List Level) (sites : List Site) : Prop :=
  ∃ w ∈ sites, Uses keep x w.part.uses ∧ Unbound outer x w.place

end Uses

section Uses

variable {keep : CaptureKind → Prop} {x : String} {outer : List Level} {p : Place}
variable {name : String}

@[simp] theorem uses_nil : ¬Uses keep x [] := by simp [Uses]

@[simp] theorem uses_singleton {kind : CaptureKind} : Uses keep x [⟨name, kind⟩] ↔ keep kind ∧ x = name := by
  simp only [Uses, List.mem_singleton, CaptureNeed.mk.injEq]
  constructor
  · rintro ⟨k, hk, rfl, rfl⟩
    exact ⟨hk, rfl⟩
  · rintro ⟨hk, rfl⟩
    exact ⟨kind, hk, rfl, rfl⟩

@[simp] theorem uses_append {uses more : List CaptureNeed} :
    Uses keep x (uses ++ more) ↔ Uses keep x uses ∨ Uses keep x more := by
  simp only [Uses, List.mem_append, and_or_left, exists_or]

@[simp] theorem uses_unbound {bound : List String} {uses : List CaptureNeed} :
    Uses keep x (CaptureNeed.unbound bound uses) ↔ Uses keep x uses ∧ x ∉ bound := by
  simp only [Uses, CaptureNeed.mem_unbound, ← and_assoc, exists_and_right]

@[simp] theorem uses_freeUse {bound : List String} {kind : CaptureKind} :
    Uses keep x (freeUse bound name kind) ↔ keep kind ∧ x = name ∧ x ∉ bound := by
  unfold freeUse
  by_cases h : name ∈ bound
  · simp only [h, if_true, uses_nil, false_iff]
    rintro ⟨-, rfl, hx⟩
    exact hx h
  · simp only [h, if_false, uses_singleton]
    constructor
    · rintro ⟨hk, rfl⟩
      exact ⟨hk, rfl, h⟩
    · rintro ⟨hk, hx, -⟩
      exact ⟨hk, hx⟩

@[simp] theorem usedAt_nil : ¬UsedAt keep x outer [] := by simp [UsedAt]

@[simp] theorem usedAt_append {sites more : List Site} :
    UsedAt keep x outer (sites ++ more) ↔ UsedAt keep x outer sites ∨ UsedAt keep x outer more := by
  simp only [UsedAt, List.mem_append, or_and_right, exists_or]

theorem usedAt_cons {w : Site} {sites : List Site} :
    UsedAt keep x outer (w :: sites) ↔ (Uses keep x w.part.uses ∧ Unbound outer x w.place) ∨ UsedAt keep x outer sites := by
  simp [UsedAt]

theorem not_mem_names {p : Place} : x ∉ p.names ↔ p.here.find? x = none := Level.find?_eq_none.symm

/-- Sites in the body of a lambda or a task, seen from the body around it. -/
theorem usedAt_enter {sites : List Site} {l : Level} (h : ∀ w ∈ sites, ∃ inner, w.place.levels = inner ++ l :: outer) :
    UsedAt keep x outer sites ↔ UsedAt keep x (l :: outer) sites ∧ l.find? x = none := by
  constructor
  · rintro ⟨w, hw, huse, hfree⟩
    obtain ⟨hfree, hl⟩ := (unbound_cons (h w hw)).1 hfree
    exact ⟨⟨w, hw, huse, hfree⟩, hl⟩
  · rintro ⟨⟨w, hw, huse, hfree⟩, hl⟩
    exact ⟨w, hw, huse, (unbound_cons (h w hw)).2 ⟨hfree, hl⟩⟩

theorem Expr.eq_identifier_of_plainName? {e : Expr} (h : e.plainName? = some name) : ∃ node, e = .identifier node name [] := by
  unfold plainName? at h
  split at h
  · cases h
    exact ⟨_, rfl⟩
  · cases h

/-- A write is at the site that writes, or, where something is written that is no plain identifier, at a site in it. -/
theorem writeUses_iff (hk : keep .copy → keep .ref) {target : Expr} (part : Part) (rest : List Site)
    (hpart : part.uses = target.plainName?.toList.map (⟨·, .ref⟩))
    (ih : Uses keep x (target.freeUses p.names) ↔ UsedAt keep x p.outer (target.sites p)) :
    Uses keep x (writeUses p.names target (target.freeUses p.names)) ∨ UsedAt keep x p.outer rest ↔
      UsedAt keep x p.outer (⟨p, part⟩ :: (target.sites p ++ rest)) := by
  rw [usedAt_cons, usedAt_append, hpart, unbound_self, ← not_mem_names]
  cases hn : target.plainName? with
  | none => simp [writeUses, hn, ih]
  | some name =>
    obtain ⟨node, rfl⟩ := Expr.eq_identifier_of_plainName? hn
    rw [← ih]
    simp only [writeUses, hn, uses_freeUse, Expr.freeUses, List.isEmpty_nil, if_true, Option.toList_some, List.map_cons,
      List.map_nil, uses_singleton]
    constructor
    · rintro (⟨h₁, h₂, h₃⟩ | h)
      · exact .inl ⟨⟨h₁, h₂⟩, h₃⟩
      · exact .inr (.inr h)
    · rintro (⟨⟨h₁, h₂⟩, h₃⟩ | ⟨h₁, h₂, h₃⟩ | h)
      · exact .inl ⟨h₁, h₂, h₃⟩
      · exact .inl ⟨hk h₁, h₂, h₃⟩
      · exact .inr h

/-- The free uses of a body with these parameters, seen from the place of the lambda or task. -/
theorem uses_enter (body : Body) (owner : Owner) (params : List (String × Nat))
    (ih : Uses keep x (body.freeUses (p.enter owner params).names) ↔
      UsedAt keep x (p.enter owner params).outer (body.sites (p.enter owner params))) :
    Uses keep x (body.freeUses (params.map (·.1) ++ p.names)) ↔
      UsedAt keep x p.outer (body.sites (p.enter owner params)) := by
  have hnames : ∀ y, y ∈ params.map (·.1) ↔ y ∈ (p.enter owner params).names := by
    intro y
    simp [Place.names, Place.enter]
  have hlevels : ∀ w ∈ body.sites (p.enter owner params), ∃ inner, w.place.levels = inner ++ p.here :: p.outer := by
    intro w hw
    obtain ⟨inner, h, hlevels, -⟩ := Body.levels_of_sites hw
    exact ⟨inner ++ [h], by rw [hlevels, List.append_assoc]; rfl⟩
  rw [Body.freeUses_append, uses_unbound, Body.freeUses_congr hnames, ih, usedAt_enter hlevels, not_mem_names]
  rfl

/-- The names that are bound after a statement in a body. -/
theorem Place.names_after {p : Place} (hg : p.global = false) (st : Stmt) :
    (p.after st).names = st.declared?.toList ++ p.names := by
  cases st <;> simp [Place.after, Place.declare, hg, Place.names, Stmt.declared?]

theorem Place.global_after {p : Place} (hg : p.global = false) (st : Stmt) : (p.after st).global = false := by
  cases st <;> simp [Place.after, Place.declare, hg]

mutual

/-- The free uses of an expression are the uses at its sites of names that nothing inside the body binds. -/
theorem Expr.uses_iff (hk : keep .copy → keep .ref) : ∀ (e : Expr) {p : Place},
    Uses keep x (e.freeUses p.names) ↔ UsedAt keep x p.outer (e.sites p)
  | .identifier node name typeArgs, p => by
    rw [Expr.freeUses, Expr.sites, usedAt_cons, unbound_self, ← not_mem_names]
    cases typeArgs with
    | nil => simp [Part.uses, and_assoc]
    | cons t ts => simp [Part.uses]
  | .intLit node value, p => by simp [Expr.freeUses, Expr.sites, usedAt_cons, Part.uses]
  | .boolLit node value, p => by simp [Expr.freeUses, Expr.sites, usedAt_cons, Part.uses]
  | .strLit node value, p => by simp [Expr.freeUses, Expr.sites, usedAt_cons, Part.uses]
  | .binary node op left right, p => by
    rw [Expr.freeUses, Expr.sites, uses_append, usedAt_cons, usedAt_append, Expr.uses_iff hk left, Expr.uses_iff hk right]
    simp [Part.uses]
  | .unary node op operand, p => by
    rw [Expr.freeUses, Expr.sites]
    have ih := Expr.uses_iff hk operand (p := p)
    cases op with
    | step op before =>
      have hwrite := writeUses_iff hk (.expr (.unary node (.step op before) operand)) [] rfl ih
      simpa [operandUses] using hwrite
    | _ => simp [operandUses, usedAt_cons, Part.uses, ih]
  | .assign node target value, p => by
    rw [Expr.freeUses, Expr.sites, uses_append, Expr.uses_iff hk value]
    exact writeUses_iff hk _ _ rfl (Expr.uses_iff hk target)
  | .call node callee args, p => by
    rw [Expr.freeUses, Expr.sites, uses_append, usedAt_cons, usedAt_append, Expr.uses_iff hk callee,
      Expr.uses_list_iff hk args]
    simp [Part.uses]
  | .lambda node params ret body, p => by
    have henter := uses_enter body (.lambda node params ret body) (LambdaParam.visible params) (Body.uses_iff hk body
      (p := p.enter (.lambda node params ret body) (LambdaParam.visible params)) rfl)
    rw [LambdaParam.map_name_visible] at henter
    rw [Expr.freeUses, Expr.sites, usedAt_cons, henter]
    simp [Part.uses]
  | .member node object name typeArgs, p => by
    rw [Expr.freeUses, Expr.sites, usedAt_cons, Expr.uses_iff hk object]
    simp [Part.uses]
  | .index node object index, p => by
    rw [Expr.freeUses, Expr.sites, uses_append, usedAt_cons, usedAt_append, Expr.uses_iff hk object,
      Expr.uses_iff hk index]
    simp [Part.uses]
  | .isTest node value ty, p => by
    rw [Expr.freeUses, Expr.sites, usedAt_cons, Expr.uses_iff hk value]
    simp [Part.uses]

theorem Expr.uses_list_iff (hk : keep .copy → keep .ref) : ∀ (es : List Expr) {p : Place},
    Uses keep x (Expr.freeUsesOfList p.names es) ↔ UsedAt keep x p.outer (Expr.sitesOfList p es)
  | [], p => by simp [Expr.freeUsesOfList, Expr.sitesOfList]
  | e :: es, p => by
    rw [Expr.freeUsesOfList, Expr.sitesOfList, uses_append, usedAt_append, Expr.uses_iff hk e, Expr.uses_list_iff hk es]

/-- The free uses of a body are the uses at its sites of names that nothing inside the body binds. -/
theorem Body.uses_iff (hk : keep .copy → keep .ref) : ∀ (body : Body) {p : Place}, p.global = false →
    (Uses keep x (body.freeUses p.names) ↔ UsedAt keep x p.outer (body.sites p))
  | .expr e, p, hg => by
    rw [Body.freeUses, Body.sites, usedAt_cons, Expr.uses_iff hk e]
    simp [Part.uses]
  | .block b, p, hg => by
    rw [Body.freeUses, Body.sites, Block.uses_iff hk b]

theorem Block.uses_iff (hk : keep .copy → keep .ref) : ∀ (b : Block) {p : Place},
    Uses keep x (b.freeUses p.names) ↔ UsedAt keep x p.outer (b.sites p)
  | .mk node ss, p => by
    rw [Block.freeUses, Block.sites]
    exact Stmt.uses_list_iff hk ss (p := p.inner) rfl

theorem Stmt.uses_list_iff (hk : keep .copy → keep .ref) : ∀ (ss : List Stmt) {p : Place}, p.global = false →
    (Uses keep x (Stmt.freeUsesOfList p.names ss) ↔ UsedAt keep x p.outer (Stmt.sitesOfList p ss))
  | [], p, hg => by simp [Stmt.freeUsesOfList, Stmt.sitesOfList]
  | s :: ss, p, hg => by
    have ih := Stmt.uses_list_iff hk ss (p.global_after hg s)
    rw [Place.names_after hg, Place.outer_after] at ih
    rw [Stmt.freeUsesOfList, Stmt.sitesOfList, uses_append, usedAt_append, Stmt.uses_iff hk s, ih]

theorem Stmt.uses_iff (hk : keep .copy → keep .ref) : ∀ (s : Stmt) {p : Place},
    Uses keep x (s.freeUses p.names) ↔ UsedAt keep x p.outer (s.sites p)
  | .varDecl node ty name init, p => by
    rw [Stmt.freeUses, Stmt.sites, usedAt_cons, Expr.uses_option_iff hk init]
    simp [Part.uses]
  | .ifThen node cond thenBody elseBody, p => by
    have hthen : Uses keep x (thenBody.freeUses p.names) ↔ UsedAt keep x p.outer (thenBody.sites p.inner) :=
      Stmt.uses_iff hk thenBody (p := p.inner)
    have helse : Uses keep x (Stmt.freeUsesOfOption p.names elseBody) ↔
        UsedAt keep x p.outer (Stmt.sitesOfOption p.inner elseBody) := Stmt.uses_option_iff hk elseBody (p := p.inner)
    rw [Stmt.freeUses, Stmt.sites, uses_append, uses_append, usedAt_cons, usedAt_append, usedAt_append,
      Expr.uses_iff hk cond, hthen, helse]
    simp [Part.uses, or_assoc]
  | .whileDo node cond body, p => by
    have hbody : Uses keep x (body.freeUses p.names) ↔ UsedAt keep x p.outer (body.sites p.inner) :=
      Stmt.uses_iff hk body (p := p.inner)
    rw [Stmt.freeUses, Stmt.sites, uses_append, usedAt_cons, usedAt_append, Expr.uses_iff hk cond, hbody]
    simp [Part.uses]
  | .block node b, p => by
    rw [Stmt.freeUses, Stmt.sites, usedAt_cons, Block.uses_iff hk b]
    simp [Part.uses]
  | .expr node e, p => by
    rw [Stmt.freeUses, Stmt.sites, usedAt_cons, Expr.uses_iff hk e]
    simp [Part.uses]
  | .ret node value, p => by
    rw [Stmt.freeUses, Stmt.sites, usedAt_cons, Expr.uses_option_iff hk value]
    simp [Part.uses]
  | .yields node e, p => by
    rw [Stmt.freeUses, Stmt.sites, usedAt_cons, Expr.uses_iff hk e]
    simp [Part.uses]
  | .breaks node, p => by simp [Stmt.freeUses, Stmt.sites, usedAt_cons, Part.uses]
  | .continues node, p => by simp [Stmt.freeUses, Stmt.sites, usedAt_cons, Part.uses]
  | .task node b, p => by
    have henter : Uses keep x (b.freeUses p.names) ↔ UsedAt keep x p.outer (b.sites (p.enter (.task node b) [])) :=
      uses_enter (.block b) (.task node b) [] (Block.uses_iff hk b (p := p.enter (.task node b) []))
    rw [Stmt.freeUses, Stmt.sites, usedAt_cons, henter]
    simp [Part.uses]
  | .awaits node b, p => by
    rw [Stmt.freeUses, Stmt.sites, usedAt_cons, Block.uses_iff hk b]
    simp [Part.uses]

theorem Expr.uses_option_iff (hk : keep .copy → keep .ref) : ∀ (e : Option Expr) {p : Place},
    Uses keep x (Expr.freeUsesOfOption p.names e) ↔ UsedAt keep x p.outer (Expr.sitesOfOption p e)
  | none, p => by simp [Expr.freeUsesOfOption, Expr.sitesOfOption]
  | some e, p => by
    rw [Expr.freeUsesOfOption, Expr.sitesOfOption, Expr.uses_iff hk e]

theorem Stmt.uses_option_iff (hk : keep .copy → keep .ref) : ∀ (s : Option Stmt) {p : Place},
    Uses keep x (Stmt.freeUsesOfOption p.names s) ↔ UsedAt keep x p.outer (Stmt.sitesOfOption p s)
  | none, p => by simp [Stmt.freeUsesOfOption, Stmt.sitesOfOption]
  | some s, p => by
    rw [Stmt.freeUsesOfOption, Stmt.sitesOfOption, Stmt.uses_iff hk s]

end

end Uses

end ScriptCheck
