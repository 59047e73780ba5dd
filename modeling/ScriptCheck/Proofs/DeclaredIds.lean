import ScriptCheck.Analysis.Skeleton
import ScriptCheck.Proofs.DeclLists
import ScriptCheck.Proofs.FreeUses
import Mathlib.Data.List.Perm.Basic
import Mathlib.Data.List.Nodup

/-!
# The ids that a script declares

Collecting the declarations of a script reports nothing exactly if no two of them have the same id and no enum has the same
case twice (`collect_silent_iff`). Neither depends on the order of the declarations, and then what is known about a type
does not depend on it either (`find?_collect_perm`). `Script.declarations` lists the declarations themselves.
-/

namespace ScriptCheck

/-! ### What is declared -/

mutual

/-- The ids that a type declares and that are declared in it, each with what is known about it if it is a type. -/
def TypeDecl.declared (outer : ItemId) : TypeDecl → List (ItemId × Option DeclaredType)
  | .mk node kind name typeParams _ members =>
    let id := outer.child (.text name) typeParams.length
    (id, some ⟨kind.typeKind, typeParams.map .text, node⟩) :: Member.declaredOfList id members

/-- The ids that several members declare. -/
def Member.declaredOfList (id : ItemId) : List Member → List (ItemId × Option DeclaredType)
  | [] => []
  | m :: ms => m.declared id ++ Member.declaredOfList id ms

/-- The ids that a member declares. -/
def Member.declared (id : ItemId) : Member → List (ItemId × Option DeclaredType)
  | .type decl => decl.declared id
  | .func decl => [(decl.idUnder id, none)]
  | .field decl => [(decl.idUnder id, none)]
  | .case _ => []

end

mutual

/-- No type in the declaration has the same case twice. -/
def TypeDecl.CasesDiffer : TypeDecl → Prop
  | .mk _ _ _ _ _ members => Member.CasesDifferOfList [] members

/-- No case of the members is among `seen` or is there twice, and the same holds for the types among them. -/
def Member.CasesDifferOfList (seen : List String) : List Member → Prop
  | [] => True
  | m :: ms => m.CasesDiffer seen ∧ Member.CasesDifferOfList (m.caseName?.toList ++ seen) ms

/-- The member is no case among `seen`, and no type in it has the same case twice. -/
def Member.CasesDiffer (seen : List String) : Member → Prop
  | .type decl => decl.CasesDiffer
  | .func _ => True
  | .field _ => True
  | .case decl => decl.name ∉ seen

end

/-- The ids that a declaration at the top level declares. -/
def Element.declared (root : ItemId) : Element → List (ItemId × Option DeclaredType)
  | .type decl => decl.declared root
  | .func decl => [(decl.idUnder root, none)]
  | .stmt _ => []

/-- No type in the declaration has the same case twice. -/
def Element.CasesDiffer : Element → Prop
  | .type decl => decl.CasesDiffer
  | .func _ => True
  | .stmt _ => True

/-- The ids that a script declares. -/
def Script.declared (root : ItemId) (script : Script) : List (ItemId × Option DeclaredType) :=
  script.flatMap (Element.declared root)

/-- What is known about a type among these declarations. -/
def declaredType? (ds : List (ItemId × Option DeclaredType)) (id : ItemId) : Option DeclaredType := (Table.findIn id ds).join

/-! ### The declarations themselves -/

/-- A type, function or member variable, with the id of what it is declared in. -/
inductive Declaration where
  | type (outer : ItemId) (decl : TypeDecl)
  | func (outer : ItemId) (decl : FuncDecl)
  | field (outer : ItemId) (decl : FieldDecl)

namespace Declaration

/-- The id that is declared. -/
def id : Declaration → ItemId
  | type outer decl => decl.idUnder outer
  | func outer decl => decl.idUnder outer
  | field outer decl => decl.idUnder outer

/-- Whether it is a type. -/
def isType : Declaration → Bool
  | type _ _ => true
  | func _ _ => false
  | field _ _ => false

/-- The id that is declared, and whether it is that of a type. -/
def head (d : Declaration) : ItemId × Bool := (d.id, d.isType)

end Declaration

mutual

/-- What is declared in a type under `outer`, and the type itself. -/
def TypeDecl.declarations (outer : ItemId) : TypeDecl → List Declaration
  | .mk node kind name typeParams base members =>
    Member.declarationsOfList (outer.child (.text name) typeParams.length) members ++
      [.type outer (.mk node kind name typeParams base members)]

/-- What several members declare. -/
def Member.declarationsOfList (id : ItemId) : List Member → List Declaration
  | [] => []
  | m :: ms => m.declarations id ++ Member.declarationsOfList id ms

/-- What a member declares. -/
def Member.declarations (id : ItemId) : Member → List Declaration
  | .type decl => decl.declarations id
  | .func decl => [.func id decl]
  | .field decl => [.field id decl]
  | .case _ => []

end

/-- What is declared at the top level, and in it. -/
def Element.declarations (root : ItemId) : Element → List Declaration
  | .type decl => decl.declarations root
  | .func decl => [.func root decl]
  | .stmt _ => []

/-- What a script declares whose module has this root. -/
def Script.declarations (root : ItemId) (script : Script) : List Declaration := script.flatMap (Element.declarations root)

/-- An id that is declared, and whether it is that of a type. -/
def declaredHead (d : ItemId × Option DeclaredType) : ItemId × Bool := (d.1, d.2.isSome)

/-- The ids that declarations declare. -/
def declaredLists : DeclLists (ItemId × Option DeclaredType) where
  func outer _ decl := [(decl.idUnder outer, none)]
  type outer _ := TypeDecl.declared outer
  members id _ := Member.declaredOfList id
  member id _ := Member.declared id

/-- The declarations themselves. -/
def declarationLists : DeclLists Declaration where
  func outer _ decl := [.func outer decl]
  type outer _ := TypeDecl.declarations outer
  members id _ := Member.declarationsOfList id
  member id _ := Member.declarations id

/-- What is declared has the ids that are collected, though a type comes after its members. -/
theorem declarations_related : declarationLists.Related declaredLists
    (fun _ _ ds es => (ds.map Declaration.head).Perm (es.map declaredHead)) where
  nil _ _ := .nil
  append h h' := by
    rw [List.map_append, List.map_append]
    exact h.append h'
  func _ _ _ := .refl _
  field _ _ _ := .refl _
  case _ _ _ := .nil
  stmt _ _ _ := .nil
  type h := by
    simp only [declarationLists, TypeDecl.declarations, List.map_append]
    exact (List.perm_append_singleton _ _).trans (h.cons _)

/-- What is declared has the ids that are collected. -/
theorem Script.heads_declarations (root : ItemId) (script : Script) :
    ((script.declarations root).map Declaration.head).Perm ((script.declared root).map declaredHead) :=
  declarations_related.of_script root [] {} {} script

/-- So it is for the ids alone. -/
theorem Script.ids_declarations (root : ItemId) (script : Script) :
    ((script.declarations root).map Declaration.id).Perm ((script.declared root).map (·.1)) := by
  have hheads := (script.heads_declarations root).map (·.1)
  rw [List.map_map, List.map_map] at hheads
  exact hheads

/-! ### Collecting -/

/-- Where no key is there twice, the order of the pairs does not matter. -/
theorem Table.findIn_perm {κ ν : Type} [DecidableEq κ] {l l' : List (κ × ν)} (h : l.Perm l') (hnodup : (l.map (·.1)).Nodup)
    (k : κ) : Table.findIn k l' = Table.findIn k l := by
  induction h with
  | nil => rfl
  | cons e _ ih =>
    rw [List.map_cons, List.nodup_cons] at hnodup
    rw [Table.findIn, Table.findIn, ih hnodup.2]
  | swap e f l =>
    simp only [List.map_cons, List.nodup_cons, List.mem_cons, not_or] at hnodup
    simp only [Table.findIn]
    grind
  | trans h₁ _ ih ih' => rw [ih' ((h₁.map _).nodup_iff.1 hnodup), ih hnodup]

namespace Collected

variable {id : ItemId}

/-- From `c` to `c'` these declarations were collected: nothing was reported exactly if they are in order, and then `c'` has
them and what `c` had. Whatever is reported is a declaration that is there twice. -/
structure Collects (ds : List (ItemId × Option DeclaredType)) (inOrder : Prop) (c c' : Collected) : Prop where
  silent : c'.diagnostics = [] ↔
    c.diagnostics = [] ∧ inOrder ∧ (ds.map (·.1)).Nodup ∧ ∀ id ∈ ds.map (·.1), c.skeleton.contains id = false
  contains : c'.diagnostics = [] → ∀ id, c'.skeleton.contains id = true ↔ c.skeleton.contains id = true ∨ id ∈ ds.map (·.1)
  types : c'.diagnostics = [] → ∀ id, c'.skeleton.types.find? id = (c.skeleton.types.find? id).or (declaredType? ds id)
  found : ∀ {id t}, c'.skeleton.types.find? id = some t → c.skeleton.types.find? id = some t ∨ (id, some t) ∈ ds
  reported : ∀ d ∈ c'.diagnostics, d ∈ c.diagnostics ∨ ∃ name, d.problem = .duplicateDeclaration name

variable {ds es : List (ItemId × Option DeclaredType)} {P Q : Prop} {c c' c'' : Collected}

namespace Collects

/-- Nothing is collected. -/
theorem refl (c : Collected) : Collects [] True c c :=
  ⟨by simp, by simp, fun _ id => by simp [declaredType?, Table.findIn], .inl, fun _ => .inl⟩

/-- That they are in order may be said in another way. -/
theorem congr (h : Collects ds P c c') (hP : P ↔ Q) : Collects ds Q c c' :=
  ⟨by rw [← hP, h.silent], h.contains, h.types, h.found, h.reported⟩

/-- One declaration after the other. -/
theorem trans (h : Collects ds P c c') (h' : Collects es Q c' c'') : Collects (ds ++ es) (P ∧ Q) c c'' := by
  have hsilent : c''.diagnostics = [] ↔ c.diagnostics = [] ∧ (P ∧ Q) ∧ ((ds ++ es).map (·.1)).Nodup ∧
      ∀ id ∈ (ds ++ es).map (·.1), c.skeleton.contains id = false := by
    rw [h'.silent, List.map_append, List.nodup_append, List.forall_mem_append]
    constructor
    · rintro ⟨hc', hQ, hes, hfresh⟩
      obtain ⟨hc, hP, hds, hfresh'⟩ := h.silent.1 hc'
      have hnot : ∀ id ∈ es.map (·.1), ¬(c.skeleton.contains id = true ∨ id ∈ ds.map (·.1)) := by
        intro id hid hor
        rw [← h.contains hc' id, hfresh id hid] at hor
        cases hor
      refine ⟨hc, ⟨hP, hQ⟩, ⟨hds, hes, fun a ha b hb hab => hnot b hb (.inr (hab ▸ ha))⟩, hfresh', fun id hid => ?_⟩
      exact Bool.eq_false_iff.2 fun hcontains => hnot id hid (.inl hcontains)
    · rintro ⟨hc, ⟨hP, hQ⟩, ⟨hds, hes, hdiff⟩, hfresh, hfresh'⟩
      have hc' := h.silent.2 ⟨hc, hP, hds, hfresh⟩
      refine ⟨hc', hQ, hes, fun id hid => Bool.eq_false_iff.2 fun hcontains => ?_⟩
      rcases (h.contains hc' id).1 hcontains with hold | hnew
      · rw [hfresh' id hid] at hold
        cases hold
      · exact hdiff id hnew id hid rfl
  refine ⟨hsilent, fun hc id => ?_, fun hc id => ?_, fun ht => ?_, fun d hd => (h'.reported d hd).elim (h.reported d) .inr⟩
  · have hc' := (h'.silent.1 hc).1
    rw [h'.contains hc id, h.contains hc' id, List.map_append, List.mem_append, or_assoc]
  · have hc' := (h'.silent.1 hc).1
    obtain ⟨-, -, hnodup, -⟩ := hsilent.1 hc
    rw [h'.types hc id, h.types hc' id, Option.or_assoc, declaredType?, declaredType?, declaredType?, Table.findIn_append]
    congr 1
    -- An id of `ds` that is no type is none in `es` either, for there it would be declared again.
    rw [List.map_append, List.nodup_append] at hnodup
    cases hfound : Table.findIn id ds with
    | none => rfl
    | some d =>
      have hnone : Table.findIn id es = none := by
        rw [Table.findIn_eq_none]
        intro hid
        have hmem : id ∈ ds.map (·.1) := by
          by_contra hnot
          rw [Table.findIn_eq_none.2 hnot] at hfound
          cases hfound
        exact hnodup.2.2 id hmem id hid rfl
      rw [hnone]
      cases d <;> rfl
  · rcases h'.found ht with ht | hmem
    · exact (h.found ht).imp_right (List.mem_append_left _)
    · exact .inr (List.mem_append_right _ hmem)

/-- A declaration that is there twice is reported. -/
theorem duplicate (c : Collected) (name : String) (node : Node)
    (h : ¬(P ∧ (ds.map (·.1)).Nodup ∧ ∀ id ∈ ds.map (·.1), c.skeleton.contains id = false)) :
    Collects ds P c (c.duplicate name node) := by
  have hne : (c.duplicate name node).diagnostics ≠ [] := by simp [Collected.duplicate]
  refine ⟨iff_of_false hne fun hr => h hr.2, fun hc => absurd hc hne, fun hc => absurd hc hne, .inl, fun d hd => ?_⟩
  rcases List.mem_append.1 hd with hd | hd
  · exact .inl hd
  · exact .inr ⟨name, by rw [List.mem_singleton.1 hd]⟩

/-- One id that was not there is added. -/
theorem one {d : Option DeclaredType} (hfresh : c.skeleton.contains id = false) (hdiagnostics : c'.diagnostics = c.diagnostics)
    (hcontains : ∀ j, c'.skeleton.contains j = (c.skeleton.contains j || decide (j = id)))
    (htypes : ∀ j, c'.skeleton.types.find? j = (c.skeleton.types.find? j).or (if id = j then d else none)) :
    Collects [(id, d)] True c c' := by
  refine ⟨by simp [hdiagnostics, hfresh], fun _ j => by simp [hcontains], fun _ j => ?_, fun {j t} ht => ?_,
    fun d hd => .inl (hdiagnostics ▸ hd)⟩
  · rw [htypes, declaredType?, Table.findIn, Table.findIn]
    split <;> rfl
  · rw [htypes, Option.or_eq_some_iff] at ht
    rcases ht with ht | ⟨-, ht⟩
    · exact .inl ht
    · split at ht
      case isTrue heq => exact .inr (by rw [heq, ht, List.mem_singleton])
      case isFalse => cases ht

end Collects

/-- A function or a variable is collected unless its id is taken. -/
theorem item_collects {c c' : Collected} {name : String} {node : Node} (hdiagnostics : c'.diagnostics = c.diagnostics)
    (hcontains : ∀ j, c'.skeleton.contains j = (c.skeleton.contains j || decide (j = id)))
    (htypes : c'.skeleton.types = c.skeleton.types) :
    Collects [(id, none)] True c (if c.skeleton.contains id then c.duplicate name node else c') := by
  split
  case isTrue h => exact .duplicate c _ _ (by simp [h])
  case isFalse h => exact .one (Bool.eq_false_iff.2 h) hdiagnostics hcontains (by simp [htypes])

/-- A function is collected. -/
theorem addFunc_collects (outer : ItemId) (c : Collected) (decl : FuncDecl) :
    Collects [(decl.idUnder outer, none)] True c (c.addFunc outer decl) := by
  refine item_collects rfl (fun j => ?_) rfl
  simp only [Skeleton.contains, List.contains_eq_mem, List.mem_append, List.mem_singleton, Bool.decide_or]
  ac_rfl

/-- So is a field. -/
theorem addField_collects (outer : ItemId) (c : Collected) (decl : FieldDecl) :
    Collects [(decl.idUnder outer, none)] True c (c.addField outer decl) := by
  refine item_collects rfl (fun j => ?_) rfl
  simp only [Skeleton.contains, List.contains_eq_mem, List.mem_append, List.mem_singleton, Bool.decide_or]
  ac_rfl

/-- A case is collected unless it is there twice. -/
theorem addCase_collects (seen : List String) (c : Collected) (decl : CaseDecl) :
    Collects [] (decl.name ∉ seen) c (c.addCase seen decl) := by
  unfold addCase
  split
  case isTrue h => exact .duplicate c _ _ (by simpa using h)
  case isFalse h => exact (Collects.refl c).congr (by simpa using h)

/-- A type is collected. -/
theorem insert_collects {c : Collected} (hfresh : c.skeleton.contains id = false) (d : DeclaredType) :
    Collects [(id, some d)] True c { c with skeleton := { c.skeleton with types := c.skeleton.types.insert id d } } := by
  refine .one hfresh rfl (fun j => ?_) fun j => ?_
  · by_cases heq : id = j <;> simp [Skeleton.contains, Table.contains, heq, eq_comm]
  · simp only [Skeleton.contains, Table.contains, Bool.or_eq_false_iff, Option.isSome_eq_false_iff,
      Option.isNone_iff_eq_none] at hfresh
    rw [Table.find?_insert]
    by_cases heq : id = j
    · rw [if_pos heq, if_pos heq, ← heq, hfresh.1.1, Option.none_or]
    · rw [if_neg heq, if_neg heq, Option.or_none]

end Collected

open Collected

mutual

/-- So is a type with its members. -/
theorem collectType_collects (outer : ItemId) :
    ∀ (decl : TypeDecl) (c : Collected), Collects (decl.declared outer) decl.CasesDiffer c (collectType outer decl c)
  | .mk node kind name typeParams base members, c => by
    rw [collectType, TypeDecl.declared, TypeDecl.CasesDiffer]
    dsimp only
    split
    case isTrue h => exact .duplicate c _ _ (by simp [h])
    case isFalse h =>
      have hmembers := collectMembers_collects (outer.child (.text name) typeParams.length) [] members
      exact ((insert_collects (Bool.eq_false_iff.2 h) _).trans (hmembers _)).congr (by simp)

/-- So are members. -/
theorem collectMembers_collects (id : ItemId) (seen : List String) : ∀ (members : List Member) (c : Collected),
    Collects (Member.declaredOfList id members) (Member.CasesDifferOfList seen members) c (collectMembers id seen members c)
  | [], c => by
    rw [collectMembers, Member.declaredOfList, Member.CasesDifferOfList]
    exact .refl c
  | m :: ms, c => by
    rw [collectMembers, Member.declaredOfList, Member.CasesDifferOfList]
    exact (collectMember_collects id seen m c).trans (collectMembers_collects id _ ms _)

/-- So is a single member. -/
theorem collectMember_collects (id : ItemId) (seen : List String) : ∀ (m : Member) (c : Collected),
    Collects (m.declared id) (m.CasesDiffer seen) c (collectMember id seen m c)
  | .type decl, c => by
    rw [collectMember, Member.declared, Member.CasesDiffer]
    exact collectType_collects id decl c
  | .func decl, c => by
    rw [collectMember, Member.declared, Member.CasesDiffer]
    exact addFunc_collects id c decl
  | .field decl, c => by
    rw [collectMember, Member.declared, Member.CasesDiffer]
    exact addField_collects id c decl
  | .case decl, c => by
    rw [collectMember, Member.declared, Member.CasesDiffer]
    exact addCase_collects seen c decl

end

/-- So is what stands at the top level. -/
theorem collectElement_collects (root : ItemId) (c : Collected) :
    ∀ e : Element, Collects (e.declared root) e.CasesDiffer c (collectElement root c e)
  | .type decl => collectType_collects root decl c
  | .func decl => addFunc_collects root c decl
  | .stmt _ => .refl c

theorem foldl_collects (root : ItemId) (script : Script) (c : Collected) :
    Collects (script.declared root) (∀ e ∈ script, e.CasesDiffer) c (script.foldl (collectElement root) c) := by
  induction script generalizing c with
  | nil => exact (Collects.refl c).congr (by simp)
  | cons e rest ih => exact ((collectElement_collects root c e).trans (ih _)).congr (by simp)

/-! ### Collecting a script -/

/-- Nothing is reported exactly if no two declarations have the same id and the cases of each enum differ. -/
theorem collect_silent_iff (root : ItemId) (script : Script) : (script.collect root).diagnostics = [] ↔
    (∀ e ∈ script, e.CasesDiffer) ∧ ((script.declared root).map (·.1)).Nodup := by
  rw [Script.collect, (foldl_collects root script .empty).silent]
  simp [Collected.empty, Skeleton.empty, Skeleton.contains, Table.contains]

/-- Collecting reports nothing but declarations that are there twice. -/
theorem collect_reported (root : ItemId) (script : Script) :
    ∀ d ∈ (script.collect root).diagnostics, ∃ name, d.problem = .duplicateDeclaration name :=
  fun d hd => ((foldl_collects root script .empty).reported d hd).resolve_left List.not_mem_nil

/-- A type that is known after collecting is declared. -/
theorem mem_declared_of_collect {root : ItemId} {script : Script} {id : ItemId} {t : DeclaredType}
    (h : (script.collect root).skeleton.types.find? id = some t) : (id, some t) ∈ script.declared root :=
  ((foldl_collects root script .empty).found h).resolve_left nofun

theorem find?_collect {root : ItemId} {script : Script} (h : (script.collect root).diagnostics = []) (id : ItemId) :
    (script.collect root).skeleton.types.find? id = declaredType? (script.declared root) id :=
  (foldl_collects root script .empty).types h id

/-- The types among the declarations are known as they are declared. -/
def Skeleton.Knows (s : Skeleton) (ds : List (ItemId × Option DeclaredType)) : Prop :=
  ∀ d ∈ ds, ∀ t ∈ d.2, s.types.find? d.1 = some t

theorem Script.collect_knows {root : ItemId} {script : Script} (h : (script.collect root).diagnostics = []) :
    (script.collect root).skeleton.Knows (script.declared root) := by
  rintro ⟨id, d⟩ hd t rfl
  have hkeys : (Table.mk (script.declared root)).keys.Nodup := ((collect_silent_iff root script).1 h).2
  have hfound : Table.findIn id (script.declared root) = some (some t) := (Table.mem_entries_iff hkeys).1 hd
  rw [find?_collect h, declaredType?, hfound]
  rfl

section Order

variable {root : ItemId} {script script' : Script}

theorem declared_perm (h : script.Perm script') (root : ItemId) : (script.declared root).Perm (script'.declared root) :=
  h.flatMap_right _

theorem collect_silent_perm (h : script.Perm script') (hsilent : (script.collect root).diagnostics = []) :
    (script'.collect root).diagnostics = [] := by
  rw [collect_silent_iff] at hsilent ⊢
  exact ⟨fun e he => hsilent.1 e (h.mem_iff.2 he), ((declared_perm h root).map _).nodup_iff.1 hsilent.2⟩

/-- What is known about a type does not depend on the order of the declarations. -/
theorem find?_collect_perm (h : script.Perm script') (hsilent : (script.collect root).diagnostics = []) (id : ItemId) :
    (script'.collect root).skeleton.types.find? id = (script.collect root).skeleton.types.find? id := by
  rw [find?_collect hsilent, find?_collect (collect_silent_perm h hsilent), declaredType?, declaredType?,
    Table.findIn_perm (declared_perm h root) ((collect_silent_iff root script).1 hsilent).2]

end Order

end ScriptCheck
