import ScriptCheck.Proofs.BaseCycles

/-!
# Declarations and their records

`Script.declarations` lists what a script declares: types, functions and member variables, those in other types among them.
That no declaration is reported twice can be read off this list, for it means that the ids differ and that no type has a case
twice. Then the script's module has one record for each entry of the list and nothing else (`Module.Records`).
-/

namespace ScriptCheck

/-! ### The cases of types -/

/-- The names of the cases that a type itself declares. -/
def TypeDecl.caseNames : TypeDecl → List String
  | .mk _ _ _ _ _ members => members.filterMap Member.caseName?

namespace Declaration

/-- The names of the cases that are declared directly in the declaration. -/
def caseNames : Declaration → List String
  | type _ decl => decl.caseNames
  | func _ _ => []
  | field _ _ => []

end Declaration

/-! ### Declarations that are reported twice -/

mutual

theorem TypeDecl.casesDiffer_iff (outer : ItemId) : ∀ decl : TypeDecl,
    decl.CasesDiffer ↔ ∀ d ∈ decl.declarations outer, d.caseNames.Nodup
  | .mk node kind name typeParams base members => by
    rw [TypeDecl.CasesDiffer, TypeDecl.declarations, List.forall_mem_append, List.forall_mem_singleton,
      Member.casesDifferOfList_iff (outer.child (.text name) typeParams.length) [] members]
    simp only [List.not_mem_nil, not_false_eq_true, implies_true, and_true]
    exact and_comm

/-- With some cases seen before, the cases of the members have to differ from these, too. -/
theorem Member.casesDifferOfList_iff (id : ItemId) (seen : List String) : ∀ members : List Member,
    Member.CasesDifferOfList seen members ↔
      ((members.filterMap Member.caseName?).Nodup ∧ ∀ name ∈ members.filterMap Member.caseName?, name ∉ seen) ∧
        ∀ d ∈ Member.declarationsOfList id members, d.caseNames.Nodup
  | [] => by simp [Member.CasesDifferOfList, Member.declarationsOfList]
  | m :: ms => by
    rw [Member.CasesDifferOfList, Member.declarationsOfList, List.forall_mem_append, Member.casesDiffer_iff id seen m,
      Member.casesDifferOfList_iff id _ ms]
    cases hm : m.caseName? with
    | none => simp [List.filterMap_cons_none hm, and_left_comm]
    | some name =>
      rw [List.filterMap_cons_some hm]
      simp only [Option.mem_def, Option.some.injEq, forall_eq', Option.toList_some, List.singleton_append, List.mem_cons,
        not_or, List.nodup_cons, forall_eq_or_imp]
      grind

theorem Member.casesDiffer_iff (id : ItemId) (seen : List String) : ∀ m : Member,
    m.CasesDiffer seen ↔ (∀ name ∈ m.caseName?, name ∉ seen) ∧ ∀ d ∈ m.declarations id, d.caseNames.Nodup
  | .type decl => by
    rw [Member.CasesDiffer, Member.declarations, TypeDecl.casesDiffer_iff id decl]
    simp [Member.caseName?]
  | .func decl => by simp [Member.CasesDiffer, Member.declarations, Member.caseName?, Declaration.caseNames]
  | .field decl => by simp [Member.CasesDiffer, Member.declarations, Member.caseName?, Declaration.caseNames]
  | .case decl => by simp [Member.CasesDiffer, Member.declarations, Member.caseName?]

end

theorem Element.casesDiffer_iff (root : ItemId) (e : Element) :
    e.CasesDiffer ↔ ∀ d ∈ e.declarations root, d.caseNames.Nodup := by
  cases e with
  | type decl => exact decl.casesDiffer_iff root
  | func decl => simp [Element.CasesDiffer, Element.declarations, Declaration.caseNames]
  | stmt st => simp [Element.CasesDiffer, Element.declarations]

/-- Nothing is reported exactly if the ids of all declarations differ and no type has a case twice. -/
theorem Script.collect_silent_iff_declarations (root : ItemId) (script : Script) : (script.collect root).diagnostics = [] ↔
    ((script.declarations root).map Declaration.id).Nodup ∧ ∀ d ∈ script.declarations root, d.caseNames.Nodup := by
  rw [collect_silent_iff, (Script.ids_declarations root script).nodup_iff, and_comm]
  refine and_congr_right fun _ => ?_
  simp only [Element.casesDiffer_iff root, Script.declarations, List.forall_mem_flatMap]

/-! ### One record each -/

/-- The records of the module are these, under their ids, which all differ; there is one for each declaration, in the same
order, and no others. -/
structure Module.Records (m : Module) (ds : List Declaration) (rs : List Record) : Prop where
  describes : List.Forall₂ Declaration.Describes ds rs
  ids : (rs.map Record.id).Nodup
  types : m.types.entries = rs.filterMap Record.type?
  funcs : m.funcs.entries = rs.filterMap Record.func?
  vars : m.vars.entries = rs.filterMap Record.var?

/-- The module of a script whose declarations have different ids has one record for each of them. -/
theorem Check.declareElements_records {ctx : Context} {script : Script} {m : Module} {s t : State}
    (h : declareElements ctx script (.empty ctx.moduleName) s = .ok (m, t))
    (hids : ((script.declarations ctx.root).map Declaration.id).Nodup) :
    ∃ rs, m.Records (script.declarations ctx.root) rs := by
  obtain ⟨rss, hrss, rfl, hnodup⟩ := exists_records h ((Script.ids_declarations ctx.root script).nodup_iff.1 hids)
  exact ⟨rss.flatten, records_describe hrss, hnodup, Module.holds_types.entries hnodup _, Module.holds_funcs.entries hnodup _,
    Module.holds_vars.entries hnodup _⟩

/-! ### The main statement -/

/-- Collecting the declarations of a script reports nothing exactly if the ids of all its types, functions and member variables
differ, at every depth and whatever their sort, and no type has a case twice. Then, where the declarations make a module, its
records are those of the declarations, one each and no others: each under the id of its declaration, with the declared type
parameters, kind and cases of a type, the type parameters of a function and whether it is a sequence function, and whether a
function or variable is static, which a function at the top level always is. So it is for the module of an analysis that
succeeds. -/
theorem declarations_have_one_record_each (setup : Setup) (script : Script) :
    ((script.collect (.root setup.moduleName)).diagnostics = [] ↔
      ((script.declarations (.root setup.moduleName)).map Declaration.id).Nodup ∧
        ∀ d ∈ script.declarations (.root setup.moduleName), d.caseNames.Nodup) ∧
    (∀ m s, (script.collect (.root setup.moduleName)).diagnostics = [] →
      Check.declareElements (setup.contextFor script) script (.empty setup.moduleName) .initial = .ok (m, s) →
      ∃ rs, m.Records (script.declarations (.root setup.moduleName)) rs) ∧
    ∀ out, analyze setup script = .ok (.ok out) →
      ∃ rs, out.module.Records (script.declarations (.root setup.moduleName)) rs := by
  have hsilent := script.collect_silent_iff_declarations (.root setup.moduleName)
  have hrecords : ∀ m s, (script.collect (.root setup.moduleName)).diagnostics = [] →
      Check.declareElements (setup.contextFor script) script (.empty setup.moduleName) .initial = .ok (m, s) →
      ∃ rs, m.Records (script.declarations (.root setup.moduleName)) rs :=
    fun m s hc hrun => Check.declareElements_records hrun (hsilent.1 hc).1
  refine ⟨hsilent, hrecords, fun out h => ?_⟩
  obtain ⟨m, s, ha, hs, -, rfl⟩ := analyze_eq_ok h
  obtain ⟨u, hdecl, -⟩ := Check.Quiet.script ⟨ha.run, hs⟩
  exact hrecords m u ha.collected hdecl.run

namespace Sample

/-- `class Hall { static int open; enum Mood { Calm, Loud } seq int rows<U>() { } }` and `func void open() { }` -/
def halls : Script := [
  .type (.mk (nd 0) .classDecl "Hall" [] none [
    .field ⟨nd 1, "open", .named (nd 2) "int" [], true⟩,
    .type (.mk (nd 3) .enumDecl "Mood" [] none [.case ⟨nd 4, "Calm"⟩, .case ⟨nd 5, "Loud"⟩]),
    .func ⟨nd 6, .text "rows", ["U"], [], .named (nd 7) "int" [], true, false, .mk (nd 8) []⟩]),
  .func ⟨nd 9, .text "open", [], [], .void (nd 10), false, false, .mk (nd 11) []⟩]

end Sample

/-- The five declarations of `halls` have a record each, and `open` at the top level is static although it does not say so. -/
theorem sample_declarations_have_one_record_each :
    (Sample.halls.collect (.root Sample.alone.moduleName)).diagnostics = [] ∧
    ∃ m s rs, Check.declareElements (Sample.alone.contextFor Sample.halls) Sample.halls (.empty Sample.alone.moduleName)
        .initial = .ok (m, s) ∧
      m.Records (Sample.halls.declarations (.root Sample.alone.moduleName)) rs ∧ rs.length = 5 ∧
      (m.funcs.find? (Sample.plainId "Sample" "open")).map (·.isStatic) = some true := by
  have hsilent : (Sample.halls.collect (.root Sample.alone.moduleName)).diagnostics = [] := by decide +kernel
  have hstatic : (Check.declareElements (Sample.alone.contextFor Sample.halls) Sample.halls (.empty Sample.alone.moduleName)
      .initial).toOption.bind (fun r => (r.1.funcs.find? (Sample.plainId "Sample" "open")).map (·.isStatic)) = some true := by
    decide +kernel
  cases hrun : Check.declareElements (Sample.alone.contextFor Sample.halls) Sample.halls (.empty Sample.alone.moduleName)
      .initial with
  | error e =>
    rw [hrun] at hstatic
    cases hstatic
  | ok r =>
    rw [hrun] at hstatic
    obtain ⟨-, hrecords, -⟩ := declarations_have_one_record_each Sample.alone Sample.halls
    obtain ⟨rs, hrs⟩ := hrecords r.1 r.2 hsilent hrun
    exact ⟨hsilent, r.1, r.2, rs, rfl, hrs, hrs.describes.length_eq.symm, hstatic⟩

end ScriptCheck
