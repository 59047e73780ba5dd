import Mathlib.Data.List.Nodup
import Mathlib.Data.List.Pairwise
import ScriptCheck.Analysis.Script
import ScriptCheck.Proofs.DeclLists
import ScriptCheck.Proofs.NodeIds

/-!
# The regions of a script

The nodes of a script fall into regions: those of a function, those of a field, those of the head of a type and those of a
statement at the top level. All nodes of a region have the same declarations around them, among these the function or the type
itself. `Script.regions` lists the regions in the order in which they are written.
-/

namespace ScriptCheck

/-- Nodes with the same declarations around them. -/
structure Region where
  /-- The declarations around the nodes, innermost first. -/
  around : List DeclScope
  /-- The declaration that the nodes are part of. -/
  id : ItemId
  ids : List Nat

/-- The region of a function that is declared under `outer`. -/
def FuncDecl.region (outer : ItemId) (around : List DeclScope) (decl : FuncDecl) : Region :=
  ⟨⟨decl.idUnder outer, decl.typeParams.map .text, false⟩ :: around, decl.idUnder outer, decl.ids⟩

mutual

/-- The regions of a type that is declared under `outer`: that of its head, and those of its members. -/
def TypeDecl.regions (outer : ItemId) (around : List DeclScope) : TypeDecl → List Region
  | .mk node _ name typeParams base members =>
    let id := outer.child (.text name) typeParams.length
    let inside := ⟨id, typeParams.map .text, true⟩ :: around
    ⟨inside, id, node.id :: TypeExpr.idsOfOption base⟩ :: Member.regionsOfList id inside members

/-- The regions of several members. -/
def Member.regionsOfList (id : ItemId) (around : List DeclScope) : List Member → List Region
  | [] => []
  | m :: ms => m.regions id around ++ Member.regionsOfList id around ms

/-- The regions of a member. -/
def Member.regions (id : ItemId) (around : List DeclScope) : Member → List Region
  | .type decl => decl.regions id around
  | .func decl => [decl.region id around]
  | .field decl => [⟨around, decl.idUnder id, decl.node.id :: decl.ty.ids⟩]
  | .case decl => [⟨around, id, [decl.node.id]⟩]

end

/-- The regions of a declaration or statement at the top level. -/
def Element.regions (root : ItemId) : Element → List Region
  | .type decl => decl.regions root []
  | .func decl => [decl.region root []]
  | .stmt s => [⟨[], root, s.ids⟩]

/-- The regions of a script whose module has this root. -/
def Script.regions (root : ItemId) : Script → List Region
  | [] => []
  | e :: rest => e.regions root ++ Script.regions root rest

/-- The nodes of declarations and statements. -/
def idLists : DeclLists Nat where
  func _ _ := FuncDecl.ids
  type _ _ := TypeDecl.ids
  members _ _ := Member.idsOfList
  member _ _ := Member.ids
  stmt _ _ := Stmt.ids

/-- Their regions. -/
def regionLists : DeclLists Region where
  func outer around decl := [decl.region outer around]
  type := TypeDecl.regions
  members := Member.regionsOfList
  member := Member.regions
  stmt root around s := [⟨around, root, s.ids⟩]

/-- Every node is in one of the regions, and they are met in the order of the nodes. -/
theorem regions_related : regionLists.Related idLists (fun _ _ ps ns => ps.flatMap Region.ids = ns) where
  nil _ _ := rfl
  append h h' := by rw [List.flatMap_append, h, h']
  func _ _ decl := List.append_nil decl.ids
  field _ _ _ := List.append_nil _
  case _ _ _ := rfl
  stmt _ _ st := List.append_nil st.ids
  type h := by simpa [regionLists, idLists, TypeDecl.regions, TypeDecl.ids] using h

/-- Every node of a script is in one of its regions, and they are met in the order of the nodes. -/
theorem Script.regions_ids (root : ItemId) (script : Script) : (script.regions root).flatMap Region.ids = script.ids :=
  regions_related.of_script root [] {} {} script

/-- A node of a script without repeated numbers is in only one region. -/
theorem Script.region_unique {root : ItemId} {script : Script} (hids : script.ids.Nodup) {p q : Region} {n : Nat}
    (hp : p ∈ script.regions root) (hq : q ∈ script.regions root) (hnp : n ∈ p.ids) (hnq : n ∈ q.ids) : p = q := by
  rw [← script.regions_ids root, List.nodup_flatMap] at hids
  have : Std.Symm (Function.onFun List.Disjoint Region.ids) := ⟨fun _ _ h _ ha hb => h hb ha⟩
  by_contra hne
  exact hids.2.forall hp hq hne hnp hnq

end ScriptCheck
