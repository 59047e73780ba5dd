import ScriptCheck.Analysis.Check

/-!
# Lists along declarations

Much of what is said about a script is a list that is gathered from its declarations: its ids, its regions, its functions, the
types that it mentions. Such lists have one form (`DeclLists`). What relates the lists of two kinds for every function, field
and case, and passes from the members of a type to the type, relates them for every type and every script
(`DeclLists.Related`).
-/

namespace ScriptCheck

/-- What is in scope for the members of a type, besides what is around the type. -/
abbrev ItemId.typeScope (outer : ItemId) (name : String) (typeParams : List String) : DeclScope :=
  ⟨outer.child (.text name) typeParams.length, typeParams.map .text, true⟩

/-- What is listed for declarations, given the id above them and the declarations around them. For the members of a type it
is, one after the other, what is listed for each of them. -/
structure DeclLists (δ : Type) where
  func : ItemId → List DeclScope → FuncDecl → List δ
  type : ItemId → List DeclScope → TypeDecl → List δ
  members : ItemId → List DeclScope → List Member → List δ
  member : ItemId → List DeclScope → Member → List δ
  stmt : ItemId → List DeclScope → Stmt → List δ := fun _ _ _ => []
  members_nil : ∀ id around, members id around [] = [] := by intros; rfl
  members_cons : ∀ id around x xs, members id around (x :: xs) = member id around x ++ members id around xs := by intros; rfl
  member_func : ∀ id around decl, member id around (.func decl) = func id around decl := by intros; rfl
  member_type : ∀ id around decl, member id around (.type decl) = type id around decl := by intros; rfl

namespace DeclLists

variable {δ ε : Type}

/-- What is listed for a script is what is listed for each declaration and statement. -/
structure Script (l : DeclLists δ) (root : ItemId) (around : List DeclScope) (listed : ScriptCheck.Script → List δ) : Prop where
  nil : listed [] = [] := by rfl
  type : ∀ decl rest, listed (.type decl :: rest) = l.type root around decl ++ listed rest := by intros; rfl
  func : ∀ decl rest, listed (.func decl :: rest) = l.func root around decl ++ listed rest := by intros; rfl
  stmt : ∀ st rest, listed (.stmt st :: rest) = l.stmt root around st ++ listed rest := by intros; rfl

/-- `R` relates what is listed in two ways for single declarations, and passes from members to their type. -/
structure Related (l : DeclLists δ) (l' : DeclLists ε) (R : ItemId → List DeclScope → List δ → List ε → Prop) : Prop where
  nil : ∀ id around, R id around [] []
  append {id : ItemId} {around : List DeclScope} {ds ds' : List δ} {es es' : List ε} :
    R id around ds es → R id around ds' es' → R id around (ds ++ ds') (es ++ es')
  func : ∀ id around decl, R id around (l.func id around decl) (l'.func id around decl)
  field : ∀ id around decl, R id around (l.member id around (.field decl)) (l'.member id around (.field decl))
  case : ∀ id around decl, R id around (l.member id around (.case decl)) (l'.member id around (.case decl))
  stmt : ∀ id around st, R id around (l.stmt id around st) (l'.stmt id around st)
  type {outer : ItemId} {around : List DeclScope} {node : Node} {kind : DeclKind} {name : String} {typeParams : List String}
    {base : Option TypeExpr} {ms : List Member} :
    R (outer.typeScope name typeParams).id (outer.typeScope name typeParams :: around)
      (l.members (outer.typeScope name typeParams).id (outer.typeScope name typeParams :: around) ms)
      (l'.members (outer.typeScope name typeParams).id (outer.typeScope name typeParams :: around) ms) →
    R outer around (l.type outer around (.mk node kind name typeParams base ms))
      (l'.type outer around (.mk node kind name typeParams base ms))

namespace Related

variable {l : DeclLists δ} {l' : DeclLists ε} {R : ItemId → List DeclScope → List δ → List ε → Prop} (h : Related l l' R)

include h

mutual

/-- What is listed for a type is related. -/
theorem of_type : ∀ (decl : TypeDecl) (outer : ItemId) (around : List DeclScope),
    R outer around (l.type outer around decl) (l'.type outer around decl)
  | .mk _ _ _ _ _ members, _, _ => h.type (of_members members _ _)

/-- What is listed for its members is, one after the other. -/
theorem of_members : ∀ (ms : List Member) (id : ItemId) (around : List DeclScope),
    R id around (l.members id around ms) (l'.members id around ms)
  | [], id, around => by
    rw [l.members_nil, l'.members_nil]
    exact h.nil id around
  | m :: ms, id, around => by
    rw [l.members_cons, l'.members_cons]
    exact h.append (of_member m id around) (of_members ms id around)

/-- What is listed for a single member is. -/
theorem of_member : ∀ (m : Member) (id : ItemId) (around : List DeclScope),
    R id around (l.member id around m) (l'.member id around m)
  | .type decl, id, around => by
    rw [l.member_type, l'.member_type]
    exact of_type decl id around
  | .func decl, id, around => by
    rw [l.member_func, l'.member_func]
    exact h.func id around decl
  | .field decl, id, around => h.field id around decl
  | .case decl, id, around => h.case id around decl

end

/-- What is listed for a script is. -/
theorem of_script (root : ItemId) (around : List DeclScope) {listed : ScriptCheck.Script → List δ}
    {listed' : ScriptCheck.Script → List ε} (hl : l.Script root around listed) (hl' : l'.Script root around listed') :
    ∀ script, R root around (listed script) (listed' script)
  | [] => by
    rw [hl.nil, hl'.nil]
    exact h.nil root around
  | .type decl :: rest => by
    rw [hl.type, hl'.type]
    exact h.append (h.of_type decl root around) (of_script root around hl hl' rest)
  | .func decl :: rest => by
    rw [hl.func, hl'.func]
    exact h.append (h.func root around decl) (of_script root around hl hl' rest)
  | .stmt st :: rest => by
    rw [hl.stmt, hl'.stmt]
    exact h.append (h.stmt root around st) (of_script root around hl hl' rest)

end Related

end DeclLists

end ScriptCheck
