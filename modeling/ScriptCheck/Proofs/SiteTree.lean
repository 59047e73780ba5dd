import ScriptCheck.Proofs.NodeIds
import ScriptCheck.Proofs.Sites

/-!
# The tree of sites

Every site has the sites directly below it: the expressions that stand in its part at the same place, and the statements or the
result of the blocks and bodies that its part has (`Site.below`). The sites in a part are the site itself and, in order, those
in what is below it (`Site.tree_eq`), so what holds of a site whenever it holds of those below it holds of all
(`Site.induct`).
-/

namespace ScriptCheck

/-- The expressions that stand directly in a part and at the same place. -/
def Part.children : Part → List Expr
  | .expr (.binary _ _ left right) => [left, right]
  | .expr (.unary _ _ operand) => [operand]
  | .expr (.assign _ target value) => [target, value]
  | .expr (.call _ callee args) => callee :: args
  | .expr (.member _ object _ _) => [object]
  | .expr (.index _ object index) => [object, index]
  | .expr (.isTest _ value _) => [value]
  | .expr _ => []
  | .stmt (.varDecl _ _ _ init) => init.toList
  | .stmt (.ifThen _ cond _ _) => [cond]
  | .stmt (.whileDo _ cond _) => [cond]
  | .stmt (.expr _ e) => [e]
  | .stmt (.ret _ value) => value.toList
  | .stmt (.yields _ e) => [e]
  | .stmt _ => []
  | .result e => [e]

/-- The node numbers of a part. -/
def Part.ids : Part → List Nat
  | .expr e => e.ids
  | .stmt st => st.ids
  | .result e => e.ids

/-- The statements of one scope, each at its place. -/
def Stmt.row (p : Place) : List Stmt → List Site
  | [] => []
  | s :: ss => ⟨p, .stmt s⟩ :: Stmt.row (p.after s) ss

/-- The statements of a block, each at its place. -/
def Block.row (p : Place) : Block → List Site
  | .mk _ ss => Stmt.row p.inner ss

/-- The result or the statements of a lambda's body. -/
def Body.row (p : Place) : Body → List Site
  | .expr e => [⟨p, .result e⟩]
  | .block b => b.row p

/-- The statements and results that stand directly in a part, each at its place. -/
def Part.inner (p : Place) : Part → List Site
  | .expr (.lambda node params ret body) => body.row (p.enter (.lambda node params ret body) (LambdaParam.visible params))
  | .stmt (.ifThen _ _ thenBody elseBody) => ⟨p.inner, .stmt thenBody⟩ :: elseBody.toList.map (⟨p.inner, .stmt ·⟩)
  | .stmt (.whileDo _ _ body) => [⟨p.inner, .stmt body⟩]
  | .stmt (.block _ b) => b.row p
  | .stmt (.task node b) => b.row (p.enter (.task node b) [])
  | .stmt (.awaits _ b) => b.row p
  | _ => []

namespace Site

/-- The sites directly below a site. -/
def below (w : Site) : List Site := w.part.children.map (⟨w.place, .expr ·⟩) ++ w.part.inner w.place

/-- A site and all sites in its part. -/
def tree : Site → List Site
  | ⟨p, .expr e⟩ => e.sites p
  | ⟨p, .stmt s⟩ => s.sites p
  | ⟨p, .result e⟩ => ⟨p, .result e⟩ :: e.sites p

end Site

/-! ### Sites in order -/

theorem Expr.sitesOfList_eq (p : Place) (es : List Expr) :
    Expr.sitesOfList p es = (es.map (⟨p, .expr ·⟩)).flatMap Site.tree := by
  induction es with
  | nil => rw [Expr.sitesOfList]; rfl
  | cons e es ih => rw [Expr.sitesOfList, ih]; rfl

theorem Stmt.sitesOfList_eq (p : Place) (ss : List Stmt) : Stmt.sitesOfList p ss = (Stmt.row p ss).flatMap Site.tree := by
  induction ss generalizing p with
  | nil => rw [Stmt.sitesOfList]; rfl
  | cons s ss ih => rw [Stmt.sitesOfList, ih]; rfl

theorem Block.sites_eq (p : Place) : ∀ b : Block, b.sites p = (b.row p).flatMap Site.tree
  | .mk _ ss => by rw [Block.sites, Stmt.sitesOfList_eq, Block.row]

theorem Body.sites_eq (p : Place) : ∀ body : Body, body.sites p = (body.row p).flatMap Site.tree
  | .expr e => by rw [Body.sites, Body.row, List.flatMap_singleton, Site.tree]
  | .block b => by rw [Body.sites, b.sites_eq, Body.row]

namespace Site

/-- The sites in a part are the site itself and those in what is below it. -/
theorem tree_eq (w : Site) : w.tree = w :: w.below.flatMap tree := by
  obtain ⟨p, e | s | e⟩ := w
  · cases e <;> rw [tree, Expr.sites] <;>
      simp [below, Part.children, Part.inner, tree, Expr.sitesOfList_eq, Body.sites_eq]
  · cases s with
    | varDecl node ty name init => cases init <;> simp [below, Part.children, Part.inner, tree, Stmt.sites, Expr.sitesOfOption]
    | ret node value => cases value <;> simp [below, Part.children, Part.inner, tree, Stmt.sites, Expr.sitesOfOption]
    | ifThen node cond thenBody elseBody =>
      cases elseBody <;> simp [below, Part.children, Part.inner, tree, Stmt.sites, Stmt.sitesOfOption]
    | _ => simp [below, Part.children, Part.inner, tree, Stmt.sites, Block.sites_eq]
  · simp [below, Part.children, Part.inner, tree]

theorem self_mem_tree (w : Site) : w ∈ w.tree := by
  rw [tree_eq]
  exact List.mem_cons_self

/-- Whatever is in a part is the part itself or in something below it. -/
theorem mem_tree {v w : Site} : v ∈ w.tree ↔ v = w ∨ ∃ c ∈ w.below, v ∈ c.tree := by
  rw [tree_eq, List.mem_cons, List.mem_flatMap]

/-- What holds of a site whenever it holds of the sites directly below it holds of every site. -/
theorem induct {P : Site → Prop} (h : ∀ w, (∀ c ∈ w.below, P c) → P w) (w : Site) : P w := by
  induction hn : w.tree.length using Nat.strongRecOn generalizing w with
  | ind n ih =>
    refine h w fun c hc => ih c.tree.length ?_ c rfl
    -- The sites in `c` are some of those below `w`, and `w` itself is one more.
    have hle := (List.sublist_flatten_of_mem (List.mem_map_of_mem (f := tree) hc)).length_le
    rw [← hn, w.tree_eq, List.length_cons, List.flatMap_def]
    omega

/-- With a site, the sites in its part are there. -/
theorem tree_subset {v w : Site} (h : v ∈ w.tree) : v.tree ⊆ w.tree := by
  induction w using induct with
  | h w ih =>
    rcases mem_tree.1 h with rfl | ⟨c, hc, hv⟩
    · exact List.Subset.refl _
    · exact fun u hu => mem_tree.2 (.inr ⟨c, hc, ih c hc hv hu⟩)

end Site

/-! ### Places below a site -/

@[simp] theorem Place.outer_after (p : Place) (st : Stmt) : (p.after st).outer = p.outer := by
  cases st <;> simp only [after, declare]
  split <;> rfl

@[simp] theorem Place.owner_after (p : Place) (st : Stmt) : (p.after st).here.owner = p.here.owner := by
  cases st <;> simp only [after, declare]
  split <;> rfl

/-- Two places in one body, however far the walk has come in it. -/
structure Place.SameBody (p q : Place) : Prop where
  outer : q.outer = p.outer
  owner : q.here.owner = p.here.owner

/-- The statements of a scope stand in the body that the scope is in. -/
theorem Stmt.row_sameBody {p : Place} {c : Site} {ss : List Stmt} (h : c ∈ Stmt.row p ss) :
    p.SameBody c.place ∧ ∀ e, c.part ≠ .expr e := by
  induction ss generalizing p with
  | nil => cases h
  | cons s ss ih =>
    rcases List.mem_cons.1 h with rfl | h
    · exact ⟨⟨rfl, rfl⟩, by simp⟩
    · obtain ⟨hrest, hpart⟩ := ih h
      exact ⟨⟨by rw [hrest.outer, p.outer_after], by rw [hrest.owner, p.owner_after]⟩, hpart⟩

/-- The statements of a block stand in the body that the block is in. -/
theorem Block.row_sameBody {p : Place} {c : Site} : ∀ {b : Block}, c ∈ b.row p → p.SameBody c.place ∧ ∀ e, c.part ≠ .expr e
  | .mk _ _, h => ⟨⟨(Stmt.row_sameBody h).1.outer, (Stmt.row_sameBody h).1.owner⟩, (Stmt.row_sameBody h).2⟩

/-- What a lambda's body has stands in that body. -/
theorem Body.row_sameBody {p : Place} {c : Site} : ∀ {body : Body}, c ∈ body.row p → p.SameBody c.place ∧ ∀ e, c.part ≠ .expr e
  | .expr _, h => by
    rw [Body.row, List.mem_singleton] at h
    rw [h]
    exact ⟨⟨rfl, rfl⟩, by simp⟩
  | .block _, h => Block.row_sameBody h

/-- The lambda or task that a body belongs to. -/
def Owner.part? : Owner → Option Part
  | .script => none
  | .func _ => none
  | .lambda node params ret body => some (.expr (.lambda node params ret body))
  | .task node block => some (.stmt (.task node block))

/-- The sites in the body of a lambda or a task that stands at `p`. -/
def Owner.inside (p : Place) : Owner → List Site
  | .script => []
  | .func _ => []
  | .lambda node params ret body => body.sites (p.enter (.lambda node params ret body) (LambdaParam.visible params))
  | .task node block => block.sites (p.enter (.task node block) [])

/-- The body of a lambda or a task is all that is below it. -/
theorem Owner.inside_eq {o : Owner} {p : Place} {part : Part} (h : o.part? = some part) :
    o.inside p = (Site.mk p part).below.flatMap Site.tree := by
  cases o with
  | script => cases h
  | func id => cases h
  | lambda node params ret body =>
    cases h
    exact Body.sites_eq _ body
  | task node block =>
    cases h
    exact Block.sites_eq _ block

/-- A statement or result that stands directly in a part stands in the same body, or in the body of the lambda or task that the
part is. -/
theorem Part.inner_sameBody {p : Place} {part : Part} {c : Site} (h : c ∈ part.inner p) : (∀ e, c.part ≠ .expr e) ∧
    (p.SameBody c.place ∨ ∃ owner params, owner.part? = some part ∧ (p.enter owner params).SameBody c.place) := by
  rcases part with e | s | e
  · cases e with
    | lambda node params ret body =>
      obtain ⟨hplace, hpart⟩ := Body.row_sameBody h
      exact ⟨hpart, .inr ⟨.lambda node params ret body, _, rfl, hplace⟩⟩
    | _ => cases h
  · cases s with
    | ifThen node cond thenBody elseBody =>
      rcases List.mem_cons.1 h with rfl | h
      · exact ⟨by simp, .inl ⟨rfl, rfl⟩⟩
      · obtain ⟨s, -, rfl⟩ := List.mem_map.1 h
        exact ⟨by simp, .inl ⟨rfl, rfl⟩⟩
    | whileDo node cond body =>
      rw [Part.inner, List.mem_singleton] at h
      rw [h]
      exact ⟨by simp, .inl ⟨rfl, rfl⟩⟩
    | block node b => exact ⟨(Block.row_sameBody h).2, .inl (Block.row_sameBody h).1⟩
    | awaits node b => exact ⟨(Block.row_sameBody h).2, .inl (Block.row_sameBody h).1⟩
    | task node b =>
      obtain ⟨hplace, hpart⟩ := Block.row_sameBody h
      exact ⟨hpart, .inr ⟨.task node b, _, rfl, hplace⟩⟩
    | _ => cases h
  · cases h

namespace Site

/-- What is directly below a site stands in the same body, or in the body of the lambda or task at the site. -/
theorem place_below {w c : Site} (h : c ∈ w.below) : w.place.SameBody c.place ∨
    ∃ owner params, owner.part? = some w.part ∧ (w.place.enter owner params).SameBody c.place := by
  rcases List.mem_append.1 h with h | h
  · obtain ⟨e, -, rfl⟩ := List.mem_map.1 h
    exact .inl ⟨rfl, rfl⟩
  · exact (Part.inner_sameBody h).2

/-- Every expression in a part, unless it is the part itself, stands directly in another part, at the same place. -/
theorem exists_parent {p : Place} {e : Expr} {w : Site} (h : ⟨p, .expr e⟩ ∈ w.tree) :
    ⟨p, .expr e⟩ = w ∨ ∃ part, ⟨p, part⟩ ∈ w.tree ∧ e ∈ part.children := by
  induction w using induct with
  | h w ih =>
    refine (mem_tree.1 h).imp_right ?_
    rintro ⟨c, hc, hmem⟩
    rcases ih c hc hmem with rfl | ⟨part, hpart, he⟩
    · rcases List.mem_append.1 hc with hc | hc
      · obtain ⟨x, hx, heq⟩ := List.mem_map.1 hc
        cases heq
        exact ⟨w.part, w.self_mem_tree, hx⟩
      · exact absurd rfl ((Part.inner_sameBody hc).1 e)
    · exact ⟨part, mem_tree.2 (.inr ⟨c, hc, hpart⟩), he⟩

end Site

end ScriptCheck
