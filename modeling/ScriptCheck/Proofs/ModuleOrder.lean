import ScriptCheck.Proofs.SameAnswers
import ScriptCheck.Proofs.TypeParamScopes

/-!
# The order of the modules does not matter

A module that is put together from checked records has only ids of its own name. So where no two modules have the same name, a
look-up by id finds its record in one of them at most, whichever is asked first. A look-up by name over all modules gives its
candidates in the order of the modules, but one of them is taken only if it is the only one, and otherwise they are counted. All
answers are therefore the same in any order of the modules, and with them the whole analysis: the notes in the order in which they
were made, the templates, the records and each diagnostic.
-/

namespace ScriptCheck

/-! ### Lists of which at most one has anything -/

theorem flatMap_eq_of_perm {α β : Type} {f : α → List β} {l l' : List α} (h : l.Perm l')
    (hf : l.Pairwise fun a b => f a = [] ∨ f b = []) : l'.flatMap f = l.flatMap f := by
  induction h with
  | nil => rfl
  | cons a _ ih => rw [List.flatMap_cons, List.flatMap_cons, ih (List.pairwise_cons.1 hf).2]
  | swap a b l =>
    rcases (List.pairwise_cons.1 hf).1 a List.mem_cons_self with hnil | hnil <;> simp [hnil]
  | trans h _ ih ih' => rw [ih' ((h.pairwise_iff fun hab => hab.symm).1 hf), ih hf]

theorem findSome?_eq_of_perm {α β : Type} {f : α → Option β} {l l' : List α} (h : l.Perm l')
    (hf : l.Pairwise fun a b => f a = none ∨ f b = none) : l'.findSome? f = l.findSome? f := by
  have hflat := flatMap_eq_of_perm (f := fun a => (f a).toList) h (by simpa using hf)
  simpa [List.head?_flatMap] using congrArg List.head? hflat

/-! ### Modules and their ids -/

/-- Each record of the module has an id of the module's name. -/
structure Module.Home (m : Module) : Prop where
  types : ∀ {id r}, m.types.find? id = some r → id.moduleName = m.name
  funcs : ∀ {id r}, m.funcs.find? id = some r → id.moduleName = m.name
  vars : ∀ {id r}, m.vars.find? id = some r → id.moduleName = m.name

/-- An id of another module is refused. -/
theorem Module.Built.home {m : Module} (h : m.Built) : m.Home := by
  induction h with
  | empty name => exact ⟨by simp [Module.empty], by simp [Module.empty], by simp [Module.empty]⟩
  | type _ _ hm ih =>
    obtain ⟨hname, rfl⟩ := Module.addType_eq_ok.1 hm
    refine ⟨fun {id r} hfind => ?_, ih.funcs, ih.vars⟩
    simp only [Module.putType, Table.find?_insert] at hfind
    split at hfind
    · rename_i hid
      exact hid ▸ hname
    · exact ih.types hfind
  | func _ _ hm ih =>
    obtain ⟨hname, rfl⟩ := Module.addFunc_eq_ok.1 hm
    refine ⟨ih.types, fun {id r} hfind => ?_, ih.vars⟩
    simp only [Module.putFunc, Table.find?_insert] at hfind
    split at hfind
    · rename_i hid
      exact hid ▸ hname
    · exact ih.funcs hfind
  | var _ _ hm ih =>
    obtain ⟨hname, rfl⟩ := Module.addVar_eq_ok.1 hm
    refine ⟨ih.types, ih.funcs, fun {id r} hfind => ?_⟩
    simp only [Module.putVar, Table.find?_insert] at hfind
    split at hfind
    · rename_i hid
      exact hid ▸ hname
    · exact ih.vars hfind

/-- The modules are put together from checked records, and no two have the same name. -/
structure Registry.Distinct (modules : List Module) : Prop where
  built : ∀ m ∈ modules, m.Built
  names : (modules.map (·.name)).Nodup

namespace Registry.Distinct

variable {front modules modules' : List Module}

/-- Of what only modules of one name have, one module has all. -/
theorem pairwise (h : Distinct modules) {P : Module → Prop} (name : String) (hP : ∀ m ∈ modules, ¬ P m → m.name = name) :
    modules.Pairwise fun a b => P a ∨ P b := by
  refine (List.pairwise_map.1 h.names).imp_of_mem fun ha hb hne => ?_
  by_contra hboth
  rw [not_or] at hboth
  exact hne ((hP _ ha hboth.1).trans (hP _ hb hboth.2).symm)

theorem findSome? (h : Distinct modules) (hperm : modules.Perm modules') {α : Type} {find : Module → Option α} {name : String}
    (hfind : ∀ m ∈ modules, ∀ a, find m = some a → name = m.name) :
    (front ++ modules').findSome? find = (front ++ modules).findSome? find := by
  rw [List.findSome?_append, List.findSome?_append, findSome?_eq_of_perm hperm]
  refine h.pairwise name fun m hm hsome => ?_
  obtain ⟨a, ha⟩ := Option.ne_none_iff_exists'.1 hsome
  exact (hfind m hm a ha).symm

theorem memberFuncs (h : Distinct modules) (hperm : modules.Perm modules') :
    Registry.memberFuncs (front ++ modules') = Registry.memberFuncs (front ++ modules) := by
  funext outer name
  rw [Registry.memberFuncs, Registry.memberFuncs, List.flatMap_append, List.flatMap_append, flatMap_eq_of_perm hperm]
  refine h.pairwise outer.moduleName fun m hm hsome => ?_
  obtain ⟨r, hr⟩ := List.exists_mem_of_ne_nil _ hsome
  obtain ⟨hid, hfind⟩ := (h.built m hm).consistent.funcsNamed hr
  rw [← (h.built m hm).home.funcs hfind, hid, ItemId.child_moduleName]

theorem alike (h : Distinct modules) (hperm : modules.Perm modules') :
    Registry.Alike Eq (front ++ modules) (front ++ modules') where
  reasons _ := rfl
  type? id := h.findSome? hperm fun m hm _ hr => (h.built m hm).home.types hr
  func? id := h.findSome? hperm fun m hm _ hr => (h.built m hm).home.funcs hr
  var? id := h.findSome? hperm fun m hm _ hr => (h.built m hm).home.vars hr
  weight := by
    unfold baseWeight
    refine (((hperm.symm.append_left front).flatMap_right _).foldr_eq' (fun _ _ _ _ _ => ?_) 0)
    exact Nat.add_left_comm _ _ _
  members _ _ := by rw [h.memberFuncs hperm]
  pick _ _ _ := by
    rw [h.memberFuncs hperm]
    exact (Registry.Alike.refl (fun _ => rfl) _).pick _ _ _
  globalTypes _ _ := (hperm.append_left front).filterMap _
  globalFuncs _ := (hperm.append_left front).flatMap_right _
  globalVars _ := (hperm.append_left front).filterMap _

end Registry.Distinct

/-! ### Contexts -/

namespace Context

variable {ctx ctx' : Context}

/-- What an identifier means in contexts that are alike, where the look-up itself cannot end in a fault. -/
theorem Alike.lookup_eq (h : ctx.Alike Eq ctx') (hc : ∀ m ∈ ctx.registry, m.Consistent) : ctx'.lookup = ctx.lookup := by
  have hglobal : ctx'.globalMeaning = ctx.globalMeaning := by
    funext frame name args allowPartial
    have hgives : Gives (fun _ => True) (ctx.globalMeaning frame name args allowPartial) := globalMeaning_gives hc
    obtain ⟨meaning, hm, -⟩ := hgives
    have hboth := h.globalMeaning frame name args allowPartial
    rw [hm] at hboth
    obtain ⟨_, hm', rfl⟩ := hboth.of_ok
    rw [hm, hm']
  funext frame globals name args allowPartial
  unfold Context.lookup
  rw [hglobal]

variable {modules modules' : List Module}

/-- Modules of different names may be asked in any order. -/
theorem same_of_perm (ctx : Context) (front : List Module) (h : Registry.Distinct modules) (hperm : modules.Perm modules')
    (hfront : ∀ m ∈ front, m.Consistent) :
    Context.Same { ctx with registry := front ++ modules } { ctx with registry := front ++ modules' } := by
  have halike : Context.Alike Eq { ctx with registry := front ++ modules } { ctx with registry := front ++ modules' } :=
    ⟨rfl, rfl, rfl, fun _ => rfl, h.alike hperm, rfl⟩
  have hc : ∀ m ∈ front ++ modules, m.Consistent :=
    List.forall_mem_append.2 ⟨hfront, fun m hm => (h.built m hm).consistent⟩
  exact ⟨halike, rfl, h.memberFuncs hperm, halike.lookup_eq hc⟩

end Context

/-! ### The main statement -/

theorem Check.script_of_perm {modules modules' : List Module} (ctx : Context) (front : List Module) (hroot : ctx.enclosing = [])
    (h : Registry.Distinct modules) (hperm : modules.Perm modules') (hfront : ∀ m ∈ front, m.Consistent) (script : Script) :
    Check.script { ctx with registry := front ++ modules' } script =
      Check.script { ctx with registry := front ++ modules } script := by
  refine (ctx.same_of_perm front h hperm hfront).script fun m s t hrun => ?_
  have hasked : Context.enclosing { ctx with registry := front ++ modules } = [] := hroot
  have hgathers := declareElements_gathers hasked hrun
  have hm : m.Consistent := hgathers.consistent (.empty _)
  exact ctx.same_of_perm (m :: front) h hperm (List.forall_mem_cons.2 ⟨hm, hfront⟩)

namespace Sample

/-- The module `Shelf` with `func int wrap(int value)`, which shares its name with a function of `Lib`. -/
def shelf : Module :=
  (Module.empty "Shelf").putFunc
    ⟨(ItemId.root "Shelf").child (.text "wrap") 0, [], [⟨.text "value", Builtin.int⟩], Builtin.int, false, true⟩

theorem shelf_built : shelf.Built :=
  .func (.empty "Shelf") (FuncRecord.check_eq_ok.2 ⟨rfl, rfl⟩) (Module.addFunc_eq_ok.2 ⟨rfl, rfl⟩)

/-- Scripts that refer to `Lib` and `Shelf`. -/
def withBoth : Setup := ⟨"Sample", [library, shelf], captures⟩

/-- `wrap<int>(wrap(3)).get();` -/
def wrapped : Script :=
  [.stmt (.expr (nd 0) (.call (nd 1) (.member (nd 2) (.call (nd 3) (.identifier (nd 4) "wrap" [.named (nd 5) "int" []])
      [.call (nd 6) (.identifier (nd 7) "wrap" []) [.intLit (nd 8) 3]]) "get" []) []))]

end Sample

/-- The order in which modules are referred to does not matter: where they are put together from checked records and no two have
the same name, an analysis gives the same with the modules in any other order, be it diagnostics, an output or a fault. -/
theorem module_order_is_irrelevant (setup : Setup) (modules : List Module) (script : Script)
    (hperm : setup.modules.Perm modules) (hbuilt : ∀ m ∈ setup.modules, m.Built)
    (hnames : (setup.modules.map (·.name)).Nodup) :
    analyze { setup with modules := modules } script = analyze setup script := by
  have hscript : Check.script (Setup.contextFor { setup with modules := modules } script) script =
      Check.script (setup.contextFor script) script :=
    Check.script_of_perm (setup.contextFor script) [Builtin.declarations] rfl ⟨hbuilt, hnames⟩ hperm
      (List.forall_mem_singleton.2 Builtin.declarations_consistent) script
  unfold Setup.contextFor at hscript
  unfold analyze
  dsimp only at hscript ⊢
  rw [hscript]

/-- The outer `wrap` is that of `Lib` and the inner one that of `Shelf`, whichever is referred to first. -/
theorem sample_module_order_is_irrelevant :
    Sample.withBoth.modules.Perm [Sample.shelf, Sample.library] ∧ (∀ m ∈ Sample.withBoth.modules, m.Built) ∧
    (Sample.withBoth.modules.map (·.name)).Nodup ∧
    ∃ out, analyze Sample.withBoth Sample.wrapped = .ok (.ok out) ∧
      out.nodes.ty? 3 = some (.nominal Sample.boxId [[Builtin.int]]) ∧ out.nodes.ty? 6 = some Builtin.int ∧
      analyze { Sample.withBoth with modules := [Sample.shelf, Sample.library] } Sample.wrapped = .ok (.ok out) := by
  have hperm : Sample.withBoth.modules.Perm [Sample.shelf, Sample.library] := .swap _ _ _
  have hbuilt : ∀ m ∈ Sample.withBoth.modules, m.Built := by
    simpa [Sample.withBoth] using ⟨Sample.library_built, Sample.shelf_built⟩
  have hnames : (Sample.withBoth.modules.map (·.name)).Nodup := by decide
  have hrun : ((analyze Sample.withBoth Sample.wrapped).toOption.bind Except.toOption).any (fun out =>
      out.nodes.ty? 3 = some (.nominal Sample.boxId [[Builtin.int]]) ∧ out.nodes.ty? 6 = some Builtin.int) = true := by
    decide +kernel
  obtain ⟨out, h, hout⟩ := exists_output hrun
  obtain ⟨hbox, hint⟩ := of_decide_eq_true hout
  exact ⟨hperm, hbuilt, hnames, out, h, hbox, hint,
    (module_order_is_irrelevant Sample.withBoth _ Sample.wrapped hperm hbuilt hnames).trans h⟩

end ScriptCheck
