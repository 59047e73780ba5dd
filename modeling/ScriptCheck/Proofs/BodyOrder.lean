import Mathlib.Data.List.Flatten
import ScriptCheck.Proofs.Regions

/-!
# The order of the bodies

The analysis goes through the declarations of a script for its statements and again for the bodies of its functions.
`Script.stmts` and `Script.funcSites` list what it meets there, the functions with the declarations around them. The analysis is
one step after the other along these lists (`scriptStmts_eq`, `scriptBodies_sites`), so what is true of one body is true of all
of them by an induction on a list.
-/

namespace ScriptCheck

/-! ### Statements -/

/-- The statement, if it is one. -/
def Element.stmt? : Element → Option Stmt
  | .stmt s => some s
  | _ => none

/-- The statements at the top level, in their order. -/
def Script.stmts (script : Script) : List Stmt := script.filterMap Element.stmt?

/-- The nodes of statements, in order. -/
theorem Script.stmtIds_eq : ∀ script : Script, script.stmtIds = Stmt.idsOfList script.stmts
  | [] => rfl
  | .stmt s :: rest => congrArg (s.ids ++ ·) (stmtIds_eq rest)
  | .type _ :: rest => stmtIds_eq rest
  | .func _ :: rest => stmtIds_eq rest

/-- The statements of a script are one list. -/
theorem Check.scriptStmts_eq (ctx : Context) : ∀ script : Script, scriptStmts ctx script = stmts ctx script.stmts
  | [] => rfl
  | .stmt s :: rest => congrArg (fun x => stmt ctx s >>= fun _ => x) (scriptStmts_eq ctx rest)
  | .type _ :: rest => scriptStmts_eq ctx rest
  | .func _ :: rest => scriptStmts_eq ctx rest

/-! ### Functions -/

/-- A function of a script. -/
structure FuncSite where
  /-- The declarations around the function, innermost first. -/
  around : List DeclScope
  /-- The declaration that the function is declared under. -/
  outer : ItemId
  decl : FuncDecl

def FuncSite.region (f : FuncSite) : Region := f.decl.region f.outer f.around

mutual

/-- The functions of a type that is declared under `outer`. -/
def TypeDecl.funcSites (outer : ItemId) (around : List DeclScope) : TypeDecl → List FuncSite
  | .mk _ _ name typeParams _ members =>
    let id := outer.child (.text name) typeParams.length
    Member.funcSitesOfList id (⟨id, typeParams.map .text, true⟩ :: around) members

/-- The functions among several members. -/
def Member.funcSitesOfList (id : ItemId) (around : List DeclScope) : List Member → List FuncSite
  | [] => []
  | m :: ms => m.funcSites id around ++ Member.funcSitesOfList id around ms

/-- The functions of a member. -/
def Member.funcSites (id : ItemId) (around : List DeclScope) : Member → List FuncSite
  | .type decl => decl.funcSites id around
  | .func decl => [⟨around, id, decl⟩]
  | .field _ => []
  | .case _ => []

end

/-- The functions of a declaration or statement at the top level. -/
def Element.funcSites (root : ItemId) (around : List DeclScope) : Element → List FuncSite
  | .type decl => decl.funcSites root around
  | .func decl => [⟨around, root, decl⟩]
  | .stmt _ => []

/-- The functions of a script whose module has this root. -/
def Script.funcSites (root : ItemId) (around : List DeclScope) (script : Script) : List FuncSite :=
  script.flatMap (Element.funcSites root around)

/-! ### One body after the other -/

namespace Check

/-- Analyses the body of a function of the script. -/
def siteBody (ctx : Context) (f : FuncSite) : Check Unit := funcBody { ctx with enclosing := f.around } f.outer f.decl

mutual

/-- The bodies of a type are analysed site by site. -/
theorem typeBodies_sites (ctx : Context) (outer : ItemId) : ∀ decl : TypeDecl,
    typeBodies ctx outer decl = (decl.funcSites outer ctx.enclosing).forM (siteBody ctx)
  | .mk node kind name typeParams base members => by
    rw [typeBodies, TypeDecl.funcSites]
    exact memberBodies_sites (ctx.within ⟨_, typeParams.map .text, true⟩) _ members

/-- So are those of members. -/
theorem memberBodies_sites (ctx : Context) (id : ItemId) : ∀ members : List Member,
    memberBodies ctx id members = (Member.funcSitesOfList id ctx.enclosing members).forM (siteBody ctx)
  | [] => by rw [memberBodies, Member.funcSitesOfList, List.forM_eq_forM, List.forM_nil]
  | m :: ms => by
    rw [memberBodies, Member.funcSitesOfList, memberBody_sites ctx id m, memberBodies_sites ctx id ms]
    simp only [List.forM_eq_forM, List.forM_append]

theorem memberBody_sites (ctx : Context) (id : ItemId) : ∀ m : Member,
    memberBody ctx id m = (m.funcSites id ctx.enclosing).forM (siteBody ctx)
  | .type decl => by rw [memberBody, Member.funcSites, typeBodies_sites ctx id decl]
  | .func decl => by simp [memberBody, Member.funcSites, siteBody]
  | .field decl => by simp [memberBody, Member.funcSites]
  | .case decl => by simp [memberBody, Member.funcSites]

end

/-- So are those of a script. -/
theorem scriptBodies_sites (ctx : Context) : ∀ script : Script,
    scriptBodies ctx script = (script.funcSites ctx.root ctx.enclosing).forM (siteBody ctx)
  | [] => by simp [scriptBodies, Script.funcSites]
  | .type decl :: rest => by
    rw [scriptBodies, typeBodies_sites, scriptBodies_sites ctx rest]
    simp [Script.funcSites, Element.funcSites]
  | .func decl :: rest => by
    rw [scriptBodies, scriptBodies_sites ctx rest]
    simp [Script.funcSites, Element.funcSites, siteBody]
  | .stmt s :: rest => by
    rw [scriptBodies, scriptBodies_sites ctx rest]
    simp [Script.funcSites, Element.funcSites]

end Check

/-! ### The regions of the functions -/

/-- The functions of declarations. -/
def funcSiteLists : DeclLists FuncSite where
  func outer around decl := [⟨around, outer, decl⟩]
  type := TypeDecl.funcSites
  members := Member.funcSitesOfList
  member := Member.funcSites

/-- Each site has a region of its own. -/
theorem funcSites_related : funcSiteLists.Related regionLists (fun _ _ fs ps => (fs.map FuncSite.region).Sublist ps) where
  nil _ _ := .slnil
  append h h' := by
    rw [List.map_append]
    exact h.append h'
  func _ _ _ := .refl _
  field _ _ _ := List.nil_sublist _
  case _ _ _ := List.nil_sublist _
  stmt _ _ _ := List.nil_sublist _
  type h := h.cons _

/-- The nodes of functions. -/
def funcSiteIds (fs : List FuncSite) : List Nat := fs.flatMap fun f => f.decl.ids

@[simp] theorem funcSiteIds_append (fs gs : List FuncSite) : funcSiteIds (fs ++ gs) = funcSiteIds fs ++ funcSiteIds gs :=
  List.flatMap_append

/-- The sites of a type are parts of it. -/
theorem TypeDecl.funcSites_ids (outer : ItemId) (around : List DeclScope) (decl : TypeDecl) :
    (funcSiteIds (decl.funcSites outer around)).Sublist decl.ids := by
  have hsub := (funcSites_related.of_type decl outer around).flatMap Region.ids
  rwa [regions_related.of_type decl outer around, List.flatMap_map] at hsub

/-- Those of a script are parts of its declarations. -/
theorem Script.funcSites_ids (root : ItemId) (around : List DeclScope) : ∀ script : Script,
    (funcSiteIds (script.funcSites root around)).Sublist script.declIds
  | [] => List.nil_sublist _
  | .type decl :: rest => by
    rw [Script.funcSites, List.flatMap_cons, funcSiteIds_append, Script.declIds]
    exact (decl.funcSites_ids root around).append (Script.funcSites_ids root around rest)
  | .func decl :: rest => (List.Sublist.refl decl.ids).append (Script.funcSites_ids root around rest)
  | .stmt _ :: rest => Script.funcSites_ids root around rest

/-- The region of a site is one of the script. -/
theorem Script.region_of_funcSites {root : ItemId} {f : FuncSite} {script : Script} (h : f ∈ script.funcSites root []) :
    f.region ∈ script.regions root :=
  (funcSites_related.of_script root [] {} {} script).subset (List.mem_map_of_mem h)

end ScriptCheck
