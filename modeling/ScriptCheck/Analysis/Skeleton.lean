import ScriptCheck.Analysis.Check

/-!
# The declarations of a script

Before any type is looked at, the ids of all declarations are collected, so that declarations can refer to each other in
any order. Types, functions and variables share one space of ids, and an id that is declared twice is reported at the second
place; what a type declared twice holds is not looked at. The cases of an enum have to differ only within their enum.
-/

namespace ScriptCheck

/-- What has been collected so far and what was wrong with it. -/
structure Collected where
  skeleton : Skeleton
  diagnostics : List Diagnostic

namespace Collected

/-- Nothing collected yet. -/
def empty : Collected := ⟨.empty, []⟩

/-- Reports a second declaration. -/
def duplicate (c : Collected) (name : String) (node : Node) : Collected :=
  { c with diagnostics := c.diagnostics ++ [⟨.duplicateDeclaration name, node⟩] }

/-- Collects a function under `outer`. -/
def addFunc (outer : ItemId) (c : Collected) (decl : FuncDecl) : Collected :=
  let id := decl.idUnder outer
  if c.skeleton.contains id then c.duplicate decl.name.display decl.node
  else { c with skeleton := { c.skeleton with funcs := c.skeleton.funcs ++ [id] } }

/-- Collects a variable under `outer`. -/
def addField (outer : ItemId) (c : Collected) (decl : FieldDecl) : Collected :=
  let id := decl.idUnder outer
  if c.skeleton.contains id then c.duplicate decl.name decl.node
  else { c with skeleton := { c.skeleton with vars := c.skeleton.vars ++ [id] } }

/-- Looks at a case of an enum that has the cases `seen` before it. -/
def addCase (seen : List String) (c : Collected) (decl : CaseDecl) : Collected :=
  if seen.contains decl.name then c.duplicate decl.name decl.node else c

end Collected

/-- The name of a case, where the member is one. -/
def Member.caseName? : Member → Option String
  | .case decl => some decl.name
  | _ => none

mutual

/-- Collects a type under `outer` and everything in it. -/
def collectType (outer : ItemId) : TypeDecl → Collected → Collected
  | .mk node kind name typeParams _ members, c =>
    let id := outer.child (.text name) typeParams.length
    if c.skeleton.contains id then c.duplicate name node
    else
      let declared : DeclaredType := ⟨kind.typeKind, typeParams.map .text, node⟩
      collectMembers id [] members
        { c with skeleton := { c.skeleton with types := c.skeleton.types.insert id declared } }

/-- Collects the members of a type; `seen` are the cases before them. -/
def collectMembers (id : ItemId) (seen : List String) : List Member → Collected → Collected
  | [], c => c
  | m :: ms, c => collectMembers id (m.caseName?.toList ++ seen) ms (collectMember id seen m c)

/-- Collects one member of a type. -/
def collectMember (id : ItemId) (seen : List String) : Member → Collected → Collected
  | .type decl, c => collectType id decl c
  | .func decl, c => c.addFunc id decl
  | .field decl, c => c.addField id decl
  | .case decl, c => c.addCase seen decl

end

/-- Collects a top-level declaration under the module's root. -/
def collectElement (root : ItemId) (c : Collected) : Element → Collected
  | .type decl => collectType root decl c
  | .func decl => c.addFunc root decl
  | .stmt _ => c

/-- The declarations of a script whose module has this root. -/
def Script.collect (root : ItemId) (script : Script) : Collected := script.foldl (collectElement root) .empty

end ScriptCheck
