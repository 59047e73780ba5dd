import ScriptCheck.Proofs.FuncRecords

/-!
# The types of a script

`Script.typeIds` lists the types that a script declares, those inside others among them. Where no declaration is reported
twice, the collected declarations know all of them, each with as many type parameters as its id says. What stands around one of
them, or around a function of the script, are types of the script again.
-/

namespace ScriptCheck

mutual

/-- A type that is declared under `outer`, and the types inside of it. -/
def TypeDecl.typeIds (outer : ItemId) : TypeDecl → List ItemId
  | .mk _ _ name typeParams _ members =>
    outer.child (.text name) typeParams.length :: Member.typeIdsOfList (outer.child (.text name) typeParams.length) members

/-- The types among several members. -/
def Member.typeIdsOfList (id : ItemId) : List Member → List ItemId
  | [] => []
  | m :: ms => m.typeIds id ++ Member.typeIdsOfList id ms

/-- The types of a member. -/
def Member.typeIds (id : ItemId) : Member → List ItemId
  | .type decl => decl.typeIds id
  | .func _ => []
  | .field _ => []
  | .case _ => []

end

/-- The types of a declaration or statement at the top level. -/
def Element.typeIds (root : ItemId) : Element → List ItemId
  | .type decl => decl.typeIds root
  | .func _ => []
  | .stmt _ => []

/-- The types of a script whose module has this root. -/
def Script.typeIds (root : ItemId) : Script → List ItemId
  | [] => []
  | e :: rest => e.typeIds root ++ Script.typeIds root rest

/-- A type is known with as many type parameters as its id says. -/
def Skeleton.Consistent (s : Skeleton) : Prop := ∀ {id t}, s.types.find? id = some t → t.typeParams.length = id.arity

/-- These are types among the declarations, and every type there is known with as many type parameters as its id says. -/
structure TypesAmong (ids : List ItemId) (ds : List (ItemId × Option DeclaredType)) : Prop where
  known : ∀ id ∈ ids, ∃ t, (id, some t) ∈ ds
  arity : ∀ {id t}, (id, some t) ∈ ds → t.typeParams.length = id.arity

namespace TypesAmong

variable {ids ids' : List ItemId} {ds ds' : List (ItemId × Option DeclaredType)}

/-- Nothing is declared. -/
theorem nil : TypesAmong [] [] := ⟨by simp, by simp⟩

/-- A type is declared. -/
theorem one {id : ItemId} {t : DeclaredType} (h : t.typeParams.length = id.arity) : TypesAmong [id] [(id, some t)] :=
  ⟨by simp, by simp [h]⟩

/-- A function or variable is declared. -/
theorem other (id : ItemId) : TypesAmong [] [(id, none)] := ⟨by simp, by simp⟩

/-- One declaration after the other. -/
theorem append (h : TypesAmong ids ds) (h' : TypesAmong ids' ds') : TypesAmong (ids ++ ids') (ds ++ ds') where
  known := List.forall_mem_append.2 ⟨fun id hid => (h.known id hid).imp fun _ => List.mem_append_left _,
    fun id hid => (h'.known id hid).imp fun _ => List.mem_append_right _⟩
  arity hd := (List.mem_append.1 hd).elim h.arity h'.arity

end TypesAmong

/-- The types among declarations. -/
def typeIdLists : DeclLists ItemId where
  func _ _ _ := []
  type outer _ := TypeDecl.typeIds outer
  members id _ := Member.typeIdsOfList id
  member id _ := Member.typeIds id

/-- The types are among what is declared. -/
theorem typesAmong_related : typeIdLists.Related declaredLists (fun _ _ => TypesAmong) where
  nil _ _ := .nil
  append := .append
  func _ _ _ := .other _
  field _ _ _ := .other _
  case _ _ _ := .nil
  stmt _ _ _ := .nil
  type h := (TypesAmong.one (t := ⟨_, _, _⟩) (by simp)).append h

theorem Script.typesAmong (root : ItemId) (script : Script) : TypesAmong (script.typeIds root) (script.declared root) :=
  typesAmong_related.of_script root [] {} {} script

namespace Script

variable {root : ItemId} {script : Script}

/-- The types that are collected have as many type parameters as their ids say. -/
theorem collect_consistent (root : ItemId) (script : Script) : (script.collect root).skeleton.Consistent :=
  fun ht => (script.typesAmong root).arity (mem_declared_of_collect ht)

/-- Where no declaration was reported twice, every type of the script is known. -/
theorem collect_types (h : (script.collect root).diagnostics = []) :
    ∀ id ∈ script.typeIds root, (script.collect root).skeleton.types.contains id = true := by
  intro id hid
  obtain ⟨t, ht⟩ := (script.typesAmong root).known id hid
  rw [Table.contains, collect_knows h _ ht t rfl, Option.isSome_some]

end Script

/-! ### The types around a place in a script -/

section Around

variable {id owner : ItemId} {around : List DeclScope} {region : Region} {scope : DeclScope}

theorem ItemId.mem_enclosing_child {outer : ItemId} {n : Name} {k : Nat} :
    owner ∈ (outer.child n k).enclosing ↔ owner ∈ outer.enclosing ∨ owner = outer.child n k := by
  rw [enclosing_child, List.mem_append, List.mem_singleton]

/-- Around a type in a declaration stand types in the declaration, and what stands around the declaration. -/
theorem enclosing_related : typeIdLists.Related typeIdLists
    (fun outer _ ids _ => ∀ id ∈ ids, ∀ owner ∈ id.enclosing, owner ∈ outer.enclosing ∨ owner ∈ ids) where
  nil _ _ := by simp
  append h h' := List.forall_mem_append.2
    ⟨fun id hid owner ho => (h id hid owner ho).imp_right (List.mem_append_left _),
      fun id hid owner ho => (h' id hid owner ho).imp_right (List.mem_append_right _)⟩
  func _ _ _ := by simp [typeIdLists]
  field _ _ _ := by simp [typeIdLists, Member.typeIds]
  case _ _ _ := by simp [typeIdLists, Member.typeIds]
  stmt _ _ _ := by simp [typeIdLists]
  type h := by
    refine List.forall_mem_cons.2 ⟨fun owner ho => ?_, fun id hid owner ho => ?_⟩
    · exact (ItemId.mem_enclosing_child.1 ho).imp_right (List.mem_cons.2 ∘ .inl)
    · rcases h id hid owner ho with h | h
      · exact (ItemId.mem_enclosing_child.1 h).imp_right (List.mem_cons.2 ∘ .inl)
      · exact .inr (List.mem_cons_of_mem _ h)

/-- Around a type of a script stand types of the script. -/
theorem Script.enclosing_typeIds {name : String} {script : Script} (hid : id ∈ script.typeIds (.root name))
    (howner : owner ∈ id.enclosing) : owner ∈ script.typeIds (.root name) := by
  have hlists : typeIdLists.Script (.root name) [] (Script.typeIds (.root name)) := {}
  exact (enclosing_related.of_script _ _ hlists hlists script id hid owner howner).resolve_left List.not_mem_nil

/-- The types around a region of a declaration are types in the declaration, and those around the declaration. -/
theorem scopes_related : regionLists.Related typeIdLists (fun _ around ps ids =>
    ∀ p ∈ ps, ∀ scope ∈ p.around, scope.isType = true → scope ∈ around ∨ scope.id ∈ ids) where
  nil _ _ := by simp
  append h h' := List.forall_mem_append.2
    ⟨fun p hp scope hs ht => (h p hp scope hs ht).imp_right (List.mem_append_left _),
      fun p hp scope hs ht => (h' p hp scope hs ht).imp_right (List.mem_append_right _)⟩
  func _ _ _ := List.forall_mem_singleton.2 (List.forall_mem_cons.2 ⟨fun ht => (by cases ht), fun _ hs _ => .inl hs⟩)
  field _ _ _ := List.forall_mem_singleton.2 fun _ hs _ => .inl hs
  case _ _ _ := List.forall_mem_singleton.2 fun _ hs _ => .inl hs
  stmt _ _ _ := List.forall_mem_singleton.2 fun _ hs _ => .inl hs
  type h := by
    refine List.forall_mem_cons.2 ⟨List.forall_mem_cons.2 ⟨fun _ => .inr List.mem_cons_self, fun _ hs _ => .inl hs⟩, ?_⟩
    intro p hp scope hs ht
    rcases h p hp scope hs ht with h | h
    · rcases List.mem_cons.1 h with rfl | h
      · exact .inr List.mem_cons_self
      · exact .inl h
    · exact .inr (List.mem_cons_of_mem _ h)

/-- The types around a place in a script are types of the script. -/
theorem Script.scopes_typeIds {root : ItemId} {script : Script} (hregion : region ∈ script.regions root)
    (hscope : scope ∈ region.around) (htype : scope.isType = true) : scope.id ∈ script.typeIds root :=
  (scopes_related.of_script root [] {} {} script region hregion scope hscope htype).resolve_left List.not_mem_nil

/-- The types around a function of a script are types of the script, and what stands around the script. -/
theorem Script.scopes_funcSites {root : ItemId} {f : FuncSite} (hscope : scope ∈ f.around) (htype : scope.isType = true) :
    ∀ {script : Script}, f ∈ script.funcSites root around → scope ∈ around ∨ scope.id ∈ script.typeIds root
  | [], hf => by cases hf
  | e :: rest, hf => by
    rw [Script.funcSites, List.flatMap_cons, List.mem_append] at hf
    rw [Script.typeIds, List.mem_append]
    rcases hf with hf | hf
    · cases e with
      | type decl =>
        have hregion := (funcSites_related.of_type decl root around).subset (List.mem_map_of_mem hf)
        exact (scopes_related.of_type decl root around _ hregion _ (List.mem_cons_of_mem _ hscope) htype).imp_right .inl
      | func decl =>
        obtain rfl := List.mem_singleton.1 hf
        exact .inl hscope
      | stmt st => cases hf
    · exact (Script.scopes_funcSites hscope htype hf).imp_right .inr

end Around

end ScriptCheck
