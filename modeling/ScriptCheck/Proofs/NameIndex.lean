import ScriptCheck.Proofs.RecordLists

/-!
# Functions by name

A module keeps its functions twice: in the table of their records and in the list of ids under each name. Adding a function a
second time replaces its record and lists its id once more. So the two have to be shown to agree over any records that are
added one after the other (`Module.build`): what is listed under a name is one entry for each function of that name that was
added, in the order of adding, and each entry stands for the record that was added last.
-/

namespace ScriptCheck

/-! ### Tables that are written entry by entry -/

namespace Table

variable {κ ν : Type} [DecidableEq κ]
variable {t : Table κ ν}

theorem mem_keys_iff {k : κ} : k ∈ t.keys ↔ t.find? k ≠ none := by
  rw [ne_eq, find?, findIn_eq_none, not_not]
  rfl

/-- The last entry for a key counts, and a key without an entry keeps its value. -/
theorem find?_foldl_insert (es : List (κ × ν)) (t : Table κ ν) (k : κ) :
    (es.foldl (fun t e => t.insert e.1 e.2) t).find? k = ((es.reverse.find? (·.1 = k)).map (·.2)).or (t.find? k) := by
  induction es generalizing t with
  | nil => simp
  | cons e es ih =>
    rw [List.foldl_cons, ih, find?_insert, List.reverse_cons, List.find?_append]
    cases es.reverse.find? (·.1 = k) with
    | some e' => rfl
    | none => by_cases he : e.1 = k <;> simp [he]

theorem nodup_keys_foldl_insert (es : List (κ × ν)) (h : t.keys.Nodup) :
    (es.foldl (fun t e => t.insert e.1 e.2) t).keys.Nodup :=
  List.foldlRecOn (motive := fun t : Table κ ν => t.keys.Nodup) es _ h fun _ ht e _ => nodup_keys_insert ht e.1 e.2

/-- In a table with different keys, the values are what is found. -/
theorem mem_values_iff (h : t.keys.Nodup) {v : ν} : v ∈ t.values ↔ ∃ k, t.find? k = some v := by
  simp only [values, List.mem_map, Prod.exists, exists_eq_right, mem_entries_iff h]

end Table

/-! ### Records that are added one after the other -/

namespace Module

variable {m m' : Module} {name : String} {rs : List Record}

/-- Adds a record of this module; an earlier record of the same id is replaced. -/
def add (m : Module) : Record → Except Fault Module
  | .type r => m.addType r
  | .func r => m.addFunc r
  | .var r => m.addVar r

/-- The module of this name to which the records have been added. -/
def build (name : String) (rs : List Record) : Except Fault Module := rs.foldlM add (.empty name)

/-- A record is put under its id, unless that is an id of another module. -/
theorem add_eq_ok {r : Record} : m.add r = .ok m' ↔ r.id.moduleName = m.name ∧ m.put r = m' := by
  cases r with
  | type r => exact addType_eq_ok
  | func r => exact addFunc_eq_ok
  | var r => exact addVar_eq_ok

theorem foldlM_add_eq_ok : rs.foldlM add m = .ok m' ↔ (∀ r ∈ rs, r.id.moduleName = m.name) ∧ m.putAll rs = m' := by
  induction rs generalizing m with
  | nil => simp [putAll, pure, Except.pure]
  | cons r rs ih =>
    rw [List.foldlM_cons, Except.bind_eq_ok, List.forall_mem_cons, and_assoc]
    constructor
    · rintro ⟨m₁, hadd, hrest⟩
      obtain ⟨hname, rfl⟩ := add_eq_ok.1 hadd
      obtain ⟨hnames, hput⟩ := ih.1 hrest
      exact ⟨hname, fun r' hr' => (hnames r' hr').trans (name_put m r), hput⟩
    · rintro ⟨hname, hnames, hput⟩
      refine ⟨m.put r, add_eq_ok.2 ⟨hname, rfl⟩, ih.2 ⟨fun r' hr' => ?_, hput⟩⟩
      exact (hnames r' hr').trans (name_put m r).symm

/-- Records can be added to a module exactly if they belong to it, and they are then put under their ids. -/
theorem build_eq_ok :
    build name rs = .ok m ↔ (∀ r ∈ rs, r.id.moduleName = name) ∧ (empty name).putAll rs = m := foldlM_add_eq_ok

namespace Holds

variable {ν : Type} {get : Module → Table ItemId ν} {pick : Record → Option (ItemId × ν)}

/-- A module has under an id what was put there last. -/
theorem find?_putAll (h : Holds get pick) (name : String) (rs : List Record) (id : ItemId) :
    (get ((Module.empty name).putAll rs)).find? id = ((rs.filterMap pick).reverse.find? (·.1 = id)).map (·.2) := by
  rw [h.putAll, h.empty, Table.find?_foldl_insert, Table.find?_empty, Option.or_none]

theorem mem_keys_putAll (h : Holds get pick) {id : ItemId} (hid : id ∈ (get ((Module.empty name).putAll rs)).keys) :
    ∃ r ∈ rs, r.id = id := by
  obtain ⟨v, hv⟩ := Option.ne_none_iff_exists'.1 (Table.mem_keys_iff.1 hid)
  rw [h.find?_putAll] at hv
  obtain ⟨e, he, -⟩ := Option.map_eq_some_iff.1 hv
  obtain ⟨r, hr, hpick⟩ := List.mem_filterMap.1 (List.mem_reverse.1 (List.mem_of_find?_eq_some he))
  have hkey := List.find?_some he
  exact ⟨r, hr, (h.id r e hpick).symm.trans (of_decide_eq_true hkey)⟩

end Holds

/-! ### What is listed under a name -/

/-- The functions among the records, in order and once for each time. -/
def addedFuncs (rs : List Record) : List FuncRecord := (rs.filterMap Record.func?).map (·.2)

/-- Each function stands beside the id that it is put under. -/
theorem filterMap_func? (rs : List Record) : rs.filterMap Record.func? = (addedFuncs rs).map fun r => (r.id, r) := by
  rw [addedFuncs, List.map_map]
  refine ((List.map_congr_left fun e he => ?_).trans (List.map_id _)).symm
  obtain ⟨r, -, hr⟩ := List.mem_filterMap.1 he
  cases r <;> cases hr
  rfl

section Put

variable (name : String) (rs : List Record)
variable {r : FuncRecord}

theorem find?_funcs_putAll (id : ItemId) :
    ((empty name).putAll rs).funcs.find? id = (addedFuncs rs).reverse.find? (·.id = id) := by
  rw [holds_funcs.find?_putAll, filterMap_func?, ← List.map_reverse, List.find?_map, Option.map_map]
  exact Option.map_id'

/-- A record that is found was added under that id. -/
theorem added_of_find? {id : ItemId} (h : ((empty name).putAll rs).funcs.find? id = some r) :
    r.id = id ∧ r ∈ addedFuncs rs := by
  rw [find?_funcs_putAll] at h
  have hid := List.find?_some h
  exact ⟨of_decide_eq_true hid, List.mem_reverse.1 (List.mem_of_find?_eq_some h)⟩

/-- A function that was added has a record. -/
theorem find?_of_added (hr : r ∈ addedFuncs rs) : ∃ latest, ((empty name).putAll rs).funcs.find? r.id = some latest := by
  rw [find?_funcs_putAll, ← Option.isSome_iff_exists, List.find?_isSome]
  exact ⟨r, List.mem_reverse.2 hr, by simp⟩

theorem mem_values_putAll : r ∈ ((empty name).putAll rs).funcs.values ↔
    ((empty name).putAll rs).funcs.find? r.id = some r := by
  have hkeys : ((empty name).putAll rs).funcs.keys.Nodup := by
    rw [holds_funcs.putAll]
    exact Table.nodup_keys_foldl_insert _ List.nodup_nil
  rw [Table.mem_values_iff hkeys]
  constructor
  · rintro ⟨id, hid⟩
    rwa [(added_of_find? name rs hid).1]
  · exact fun h => ⟨r.id, h⟩

/-- An id is listed under its name once for each time that it was added. -/
theorem listed_eq (outer : ItemId) (key : Name) : (((empty name).putAll rs).funcIndex.find? (outer, key)).getD [] =
    ((addedFuncs rs).filter fun r => isNamed outer key r.id).map (·.id) := by
  rw [listed_putAll, filterMap_func?, List.map_map, List.filter_map, empty, Table.find?_empty, Option.getD_none, List.nil_append]
  rfl

theorem map_some_funcsNamed (outer : ItemId) (key : Name) : (((empty name).putAll rs).funcsNamed outer key).map some =
    ((addedFuncs rs).filter fun r => isNamed outer key r.id).map fun r => ((empty name).putAll rs).funcs.find? r.id := by
  rw [funcsNamed, listed_eq, List.filterMap_map, List.map_filterMap, ← List.filterMap_eq_map]
  refine List.filterMap_congr fun r hr => ?_
  obtain ⟨latest, hlatest⟩ := find?_of_added name rs (List.mem_of_mem_filter hr)
  simp [hlatest]

theorem mem_funcsNamed_putAll {outer : ItemId} {key : Name} :
    r ∈ ((empty name).putAll rs).funcsNamed outer key ↔
      r ∈ ((empty name).putAll rs).funcs.values ∧ isNamed outer key r.id = true := by
  rw [mem_values_putAll, funcsNamed, listed_eq, List.mem_filterMap]
  constructor
  · rintro ⟨id, hlisted, hfind⟩
    obtain ⟨r', hr', rfl⟩ := List.mem_map.1 hlisted
    have hid := (added_of_find? name rs hfind).1
    exact ⟨hid.symm ▸ hfind, hid.symm ▸ (List.mem_filter.1 hr').2⟩
  · rintro ⟨hfind, hnamed⟩
    have hadded := (added_of_find? name rs hfind).2
    exact ⟨r.id, List.mem_map.2 ⟨r, List.mem_filter.2 ⟨hadded, hnamed⟩, rfl⟩, hfind⟩

end Put

end Module

/-- Over any records that are added to a module one after the other, the functions that are found by name are the current records
of the functions of that name that were added, one for each time and in the order of adding; the current record is the one that
was added last. So they are, as a set, the module's functions that stand directly under the declaration and have the name; no id
is listed that has no record; and every id of the module is one of the module's own. -/
theorem name_index_agrees_with_records (name : String) (rs : List Record) (m : Module) (h : Module.build name rs = .ok m) :
    (∀ outer key, (m.funcsNamed outer key).map some =
      ((Module.addedFuncs rs).filter fun r => Module.isNamed outer key r.id).map fun r => m.funcs.find? r.id) ∧
    (∀ id, m.funcs.find? id = (Module.addedFuncs rs).reverse.find? (·.id = id)) ∧
    (∀ outer key r, r ∈ m.funcsNamed outer key ↔
      r ∈ m.funcs.values ∧ r.id.outer? = some outer ∧ r.id.last?.map (·.name) = some key) ∧
    (∀ outer key, ∀ id ∈ (m.funcIndex.find? (outer, key)).getD [], m.funcs.contains id = true) ∧
    ∀ id, id ∈ m.types.keys ∨ id ∈ m.funcs.keys ∨ id ∈ m.vars.keys → id.moduleName = name := by
  obtain ⟨hnames, rfl⟩ := Module.build_eq_ok.1 h
  have hhome : ∀ id, (∃ r ∈ rs, r.id = id) → id.moduleName = name := by
    rintro id ⟨r, hr, rfl⟩
    exact hnames r hr
  refine ⟨Module.map_some_funcsNamed name rs, Module.find?_funcs_putAll name rs, fun outer key r => ?_,
    fun outer key id hid => ?_,
    fun id hid => hhome id ?_⟩
  · rw [Module.mem_funcsNamed_putAll, Module.isNamed, decide_eq_true_eq]
  · rw [Module.listed_eq] at hid
    obtain ⟨r, hr, rfl⟩ := List.mem_map.1 hid
    exact Option.isSome_iff_exists.2 (Module.find?_of_added name rs (List.mem_of_mem_filter hr))
  · rcases hid with hid | hid | hid
    · exact Module.holds_types.mem_keys_putAll hid
    · exact Module.holds_funcs.mem_keys_putAll hid
    · exact Module.holds_vars.mem_keys_putAll hid

namespace Sample

/-- The record of `put` with these type parameters and this result. -/
def shelfPut (typeParams : List Name) (ret : Ty) : FuncRecord :=
  ⟨(ItemId.root "Shelf").child (.text "put") typeParams.length, typeParams, [], ret, false, true⟩

/-- `put` is added, then `put<T>`, and then `put` with another result. -/
def shelfRecords : List Record :=
  [.func (shelfPut [] .void), .func (shelfPut [.text "T"] .void), .func (shelfPut [] Builtin.int)]

end Sample

/-- Both entries for `put` show the record that was added last. -/
theorem sample_name_index : ∃ m, Module.build "Shelf" Sample.shelfRecords = .ok m ∧
    m.funcsNamed (.root "Shelf") (.text "put") =
      [Sample.shelfPut [] Builtin.int, Sample.shelfPut [.text "T"] .void, Sample.shelfPut [] Builtin.int] := by
  refine ⟨_, rfl, List.map_injective_iff.2 (Option.some_injective _) ?_⟩
  exact ((name_index_agrees_with_records "Shelf" Sample.shelfRecords _ rfl).1 (.root "Shelf") (.text "put")).trans rfl

end ScriptCheck
