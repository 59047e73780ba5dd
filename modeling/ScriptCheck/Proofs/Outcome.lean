import ScriptCheck.Proofs.Outline
import ScriptCheck.Proofs.ScopeDiscipline

/-!
# What a run makes of an outline

A run through a part of a body gives out slots, drops narrowings and notes types, and its outline says in which order. `Outcome`
states what has become of an outline when the run is over: which slots its declarations have, which narrowings are left, with
which types its names are read, and how the bodies inside are laid out. It speaks of the finished notes `fin`, which agree with
the run on the nodes of the part, so that the outcomes of two parts in a row need no more than to be put together
(`Outcome.seq`). `Follows` says of a step that each of its runs has the outcome of an outline, whether or not it reports
something. Steps that only look something up and note it have no part in all this (`Notes`).
-/

namespace ScriptCheck

/-! ### Places in notes -/

/-- The places that a note speaks of. -/
def NodeInfo.places : NodeInfo → List Storage
  | .storage st => [st]
  | .assign target => target.storage?.toList
  | .step target _ _ => target.storage?.toList
  | .varDecl st => [st]
  | .lambda c => c.captures.map (·.storage)
  | .task c => c.captures.map (·.storage)
  | _ => []

/-- A slot of the frame lies below `size`. -/
def Storage.InFrame (size : Nat) : Storage → Prop
  | .localSlot slot => slot < size
  | _ => True

/-- A slot of the script lies below `size`. -/
def Storage.InScript (size : Nat) : Storage → Prop
  | .privateGlobal slot => slot < size
  | _ => True

/-- Whether the value is kept in a slot, of the frame or of the script. -/
def Storage.isSlot : Storage → Bool
  | .localSlot _ => true
  | .privateGlobal _ => true
  | _ => false

/-- The slots of the frame that a note speaks of lie below `size`, and a lambda or a task carries in nothing else. -/
structure NodeInfo.InFrame (size : Nat) (info : NodeInfo) : Prop where
  places : ∀ st ∈ info.places, st.InFrame size
  captures : ∀ c ∈ info.closure?, ∀ x ∈ c.captures, x.storage.isLocal = true

/-- The slots of the script that a note speaks of lie below `size`. -/
def NodeInfo.InScript (size : Nat) (info : NodeInfo) : Prop := ∀ st ∈ info.places, st.InScript size

/-- The note speaks of no slot. -/
structure NodeInfo.Free (info : NodeInfo) : Prop where
  places : ∀ st ∈ info.places, st.isSlot = false
  closure : info.closure? = none

/-- The note speaks of no place. -/
structure NodeInfo.Placeless (info : NodeInfo) : Prop where
  places : info.places = []
  closure : info.closure? = none

namespace Storage

variable {st : Storage} {size size' : Nat}

theorem InFrame.mono (h : st.InFrame size) (hs : size ≤ size') : st.InFrame size' := by
  cases st with
  | localSlot slot => exact Nat.lt_of_lt_of_le h hs
  | _ => trivial

theorem InScript.mono (h : st.InScript size) (hs : size ≤ size') : st.InScript size' := by
  cases st with
  | privateGlobal slot => exact Nat.lt_of_lt_of_le h hs
  | _ => trivial

theorem inFrame_of_not_isSlot (h : st.isSlot = false) : st.InFrame size := by
  cases st <;> trivial

theorem inScript_of_not_isSlot (h : st.isSlot = false) : st.InScript size := by
  cases st <;> trivial

end Storage

namespace NodeInfo

variable {info : NodeInfo} {size size' : Nat}

theorem InFrame.mono (h : info.InFrame size) (hs : size ≤ size') : info.InFrame size' :=
  ⟨fun st hst => (h.places st hst).mono hs, h.captures⟩

theorem InScript.mono (h : info.InScript size) (hs : size ≤ size') : info.InScript size' :=
  fun st hst => Storage.InScript.mono (h st hst) hs

theorem Free.inFrame (h : info.Free) : info.InFrame size :=
  ⟨fun st hst => Storage.inFrame_of_not_isSlot (h.places st hst), by simp [h.closure]⟩

theorem Free.inScript (h : info.Free) : info.InScript size :=
  fun st hst => Storage.inScript_of_not_isSlot (h.places st hst)

theorem Placeless.free (h : info.Placeless) : info.Free := ⟨by simp [h.places], h.closure⟩

theorem Placeless.ne_storage (h : info.Placeless) (st : Storage) : info ≠ .storage st := by
  rintro rfl
  cases h.places

theorem IsType.placeless (h : info.IsType) : info.Placeless := by
  obtain ⟨ty, rfl⟩ := h
  exact ⟨rfl, rfl⟩

theorem IsType.free (h : info.IsType) : info.Free := h.placeless.free

end NodeInfo

namespace NodeMap

/-- The place that is noted as written at a node. -/
def write? (m : NodeMap) (n : Nat) : Option Storage :=
  match m.info? n with
  | some (.assign target) => target.storage?
  | some (.step target _ _) => target.storage?
  | _ => none

/-- Whether the place is noted as written at one of the nodes. -/
def writes (m : NodeMap) (nodes : List Nat) (st : Storage) : Bool := nodes.any fun n => m.write? n = some st

/-- The slot of the frame that is noted for a declaration. -/
def slotOf (m : NodeMap) (n : Nat) : Option Nat :=
  match m.info? n with
  | some (.varDecl (.localSlot slot)) => some slot
  | _ => none

/-- The slot of the script that is noted for a declaration. -/
def globalSlotOf (m : NodeMap) (n : Nat) : Option Nat :=
  match m.info? n with
  | some (.varDecl (.privateGlobal slot)) => some slot
  | _ => none

@[simp] theorem writes_nil (m : NodeMap) (st : Storage) : m.writes [] st = false := rfl

@[simp] theorem writes_append (m : NodeMap) (a b : List Nat) (st : Storage) :
    m.writes (a ++ b) st = (m.writes a st || m.writes b st) := List.any_append

end NodeMap

namespace Table

variable {κ ν : Type} {t : Table κ ν}

theorem filterKeys_filterKeys (t : Table κ ν) (p q : κ → Bool) :
    (t.filterKeys p).filterKeys q = t.filterKeys fun k => p k && q k := by
  simp [filterKeys, List.filter_filter, Bool.and_comm]

theorem filterKeys_of_forall {p : κ → Bool} (h : ∀ k ∈ t.keys, p k = true) : t.filterKeys p = t := by
  obtain ⟨entries⟩ := t
  simp only [filterKeys, Table.mk.injEq, List.filter_eq_self]
  exact fun e he => h e.1 (List.mem_map.2 ⟨e, he, rfl⟩)

theorem filterKeys_congr {p q : κ → Bool} (h : ∀ k ∈ t.keys, p k = q k) : t.filterKeys p = t.filterKeys q := by
  simp only [filterKeys, Table.mk.injEq]
  exact List.filter_congr fun e he => h e.1 (List.mem_map.2 ⟨e, he, rfl⟩)

theorem contains_of_mem_keys [DecidableEq κ] {k : κ} (h : k ∈ t.keys) : t.contains k = true := by
  obtain ⟨entries⟩ := t
  simp only [keys] at h
  unfold contains find?
  induction entries with
  | nil => simp at h
  | cons e rest ih =>
    obtain ⟨k', v⟩ := e
    by_cases hk : k' = k
    · simp [findIn, hk]
    · have hr : k ∈ rest.map (·.1) := by simpa [Ne.symm hk] using h
      simpa [findIn, hk] using ih hr

end Table

/-! ### Notes and declarations -/

/-- No note speaks of a slot of the script that was not made. -/
def State.NotesInScript (s : State) : Prop := ∀ n info, s.nodes.info? n = some info → info.InScript s.globals.size

/-- The type that the variable at a place is declared with. -/
inductive Context.Declares (ctx : Context) (s : State) : Storage → Ty → Prop where
  | frame {slot : Nat} {var : LocalVar} (h : s.frame.locals[slot]? = some var) : Declares ctx s (.localSlot slot) var.ty
  | script {slot : Nat} {ty : Ty} (h : s.globals.slots[slot]? = some ty) : Declares ctx s (.privateGlobal slot) ty
  | module {name : Name} {record : VarRecord} (h : record ∈ ctx.registry.globalVars name) :
      Declares ctx s (.moduleGlobal record.id) record.ty

theorem Context.Declares.mono {ctx : Context} {s s' : State} {st : Storage} {ty : Ty} (h : ctx.Declares s st ty)
    (hl : s.frame.locals <+: s'.frame.locals) (hg : s.globals.slots <+: s'.globals.slots) : ctx.Declares s' st ty := by
  cases h with
  | frame h =>
    obtain ⟨new, hnew⟩ := hl
    refine .frame ?_
    rw [← hnew, List.getElem?_append_left (List.getElem?_eq_some_iff.1 h).1]
    exact h
  | script h =>
    obtain ⟨new, hnew⟩ := hg
    refine .script ?_
    rw [← hnew, List.getElem?_append_left (List.getElem?_eq_some_iff.1 h).1]
    exact h
  | module h => exact .module h

/-! ### Bodies -/

/-- The node of the lambda or the task that a template is the body of. -/
def TemplateKind.node? : TemplateKind → Option Nat
  | .lambda n => some n
  | .task n => some n
  | _ => none

/-- What is noted about the lambda or the task that a body belongs to. -/
def BodyOutline.closure? (notes : NodeMap) (b : BodyOutline) : Option ClosureInfo :=
  b.kind.node?.bind fun n => (notes.info? n).bind NodeInfo.closure?

/-- The slots of a body in the order in which they are given out: the parameters', the captures', those of the
declarations. -/
def BodyOutline.slots (notes : NodeMap) (b : BodyOutline) : List (Option Nat) :=
  b.params.map notes.slotOf ++ ((b.closure? notes).toList.flatMap fun c => c.captures.map fun x => some x.slot) ++
    b.locals.map notes.slotOf

/-- How a body is laid out in the template at position `k`. -/
structure BodyOutline.LaidOut (notes : NodeMap) (b : BodyOutline) (k : Nat) (t : Template) : Prop where
  kind : t.kind = b.kind
  /-- The note about a lambda or a task leads to this template. -/
  position : ∀ n, b.kind.node? = some n → ∃ c, b.closure? notes = some c ∧ c.template = k
  /-- Every slot of the template is given out, in order. -/
  slots : b.slots notes = (List.range t.locals).map some
  /-- What is noted in the body stays within the template. -/
  own : ∀ n ∈ b.own, ∀ info, notes.info? n = some info → info.InFrame t.locals

/-- The bodies have these templates, one for one, and the first of them is at position `k`. -/
def BodiesLaidOut (notes : NodeMap) (bs : List BodyOutline) (k : Nat) (ts : List Template) : Prop :=
  List.Forall₂ (fun b t => b.1.LaidOut notes b.2 t) (bs.zipIdx k) ts

namespace BodiesLaidOut

variable {notes : NodeMap} {bs bs' : List BodyOutline} {k : Nat} {ts ts' : List Template}

theorem length_eq (h : BodiesLaidOut notes bs k ts) : ts.length = bs.length := by
  simpa using (List.Forall₂.length_eq h).symm

theorem append (h : BodiesLaidOut notes bs k ts) (h' : BodiesLaidOut notes bs' (k + ts.length) ts') :
    BodiesLaidOut notes (bs ++ bs') k (ts ++ ts') := by
  rw [BodiesLaidOut, List.zipIdx_append]
  rw [h.length_eq] at h'
  exact List.rel_append h h'

theorem concat {b : BodyOutline} {t : Template} (h : BodiesLaidOut notes bs k ts) (hb : b.LaidOut notes (k + ts.length) t) :
    BodiesLaidOut notes (bs ++ [b]) k (ts ++ [t]) := h.append (.cons hb .nil)

end BodiesLaidOut

/-! ### Outcomes -/

/-- What has become of an outline after a run from `s` to `s'`, by the finished notes. -/
structure Outcome (ctx : Context) (fin : NodeMap) (o : Outline) (s s' : State) : Prop where
  notes : s.NotesInScript → s'.NotesInScript
  locals : s.frame.locals <+: s'.frame.locals
  size : s'.frame.size = s.frame.size + o.locals.length
  /-- Declarations have the slots after those that were there. -/
  slots : o.locals.map fin.slotOf = (List.range' s.frame.size o.locals.length).map some
  globals : s.globals.slots <+: s'.globals.slots
  globalSize : s'.globals.size = s.globals.size + o.globals.length
  globalSlots : o.globals.map fin.globalSlotOf = (List.range' s.globals.size o.globals.length).map some
  own : ∀ n ∈ o.own, ∀ info, fin.info? n = some info → info.InFrame s'.frame.size
  /-- The narrowings that are left are those of the places that were not written. -/
  overrides : s'.frame.overrides = s.frame.overrides.filterKeys fun st => !fin.writes o.writes st
  /-- A name that is not narrowed inside is read with the declared type if its place was written before it, and as it would
  have been read at the start if not. -/
  reads : ∀ r ∈ o.reads, ∀ st, fin.info? r.node = some (.storage st) →
    (∀ c ∈ r.guards, ∀ ty, narrowingOf fin c ≠ some (st, ty)) → ∃ declared, ctx.Declares s' st declared ∧
      fin.ty? r.node = some (if fin.writes r.before st then declared else s.frame.readType st declared)
  /-- In a run that reports nothing, each body inside has its template. -/
  bodies : s'.diagnostics = [] → ∃ ts, s'.templates = s.templates ++ ts ∧
    BodiesLaidOut fin o.bodies s.templates.length ts

theorem Frame.readType_of_overrides {f g : Frame} {drop : Storage → Bool}
    (h : g.overrides = f.overrides.filterKeys fun st => !drop st) (st : Storage) (declared : Ty) :
    g.readType st declared = if drop st then declared else f.readType st declared := by
  unfold readType
  rw [h, Table.find?_filterKeys]
  cases drop st <;> rfl

namespace Outcome

variable {ctx : Context} {fin : NodeMap} {o o₁ o₂ : Outline} {s t u : State}

/-- Two runs in a row make of two outlines what their sequence says. -/
theorem seq (a : Outcome ctx fin o₁ s t) (b : Outcome ctx fin o₂ t u) (hd : t.diagnostics <+: u.diagnostics) :
    Outcome ctx fin (o₁.seq o₂) s u where
  notes hs := b.notes (a.notes hs)
  locals := a.locals.trans b.locals
  size := by
    rw [b.size, a.size, Outline.seq, List.length_append]
    omega
  slots := by
    simp only [Outline.seq, List.map_append, a.slots, b.slots, a.size, List.length_append]
    rw [← List.map_append, List.range'_append_1]
  globals := a.globals.trans b.globals
  globalSize := by
    rw [b.globalSize, a.globalSize, Outline.seq, List.length_append]
    omega
  globalSlots := by
    simp only [Outline.seq, List.map_append, a.globalSlots, b.globalSlots, a.globalSize, List.length_append]
    rw [← List.map_append, List.range'_append_1]
  own := by
    intro n hn info hinfo
    rcases List.mem_append.1 hn with hn | hn
    · exact (a.own n hn info hinfo).mono b.locals.length_le
    · exact b.own n hn info hinfo
  overrides := by
    rw [b.overrides, a.overrides, Table.filterKeys_filterKeys]
    simp only [Outline.seq, NodeMap.writes_append, Bool.not_or]
  reads := by
    intro r hr st hst hguards
    rcases List.mem_append.1 hr with hr | hr
    · obtain ⟨declared, hdecl, hty⟩ := a.reads r hr st hst hguards
      exact ⟨declared, hdecl.mono b.locals b.globals, hty⟩
    · obtain ⟨r, hmem, rfl⟩ := List.mem_map.1 hr
      obtain ⟨declared, hdecl, hty⟩ := b.reads r hmem st hst hguards
      refine ⟨declared, hdecl, hty.trans ?_⟩
      -- What the first part wrote is not narrowed any more when the second starts.
      rw [Frame.readType_of_overrides a.overrides]
      simp only [Read.after, NodeMap.writes_append]
      cases fin.writes o₁.writes st <;> cases fin.writes r.before st <;> rfl
  bodies := by
    intro hu
    have ht : t.diagnostics = [] := by
      rw [hu, List.prefix_nil] at hd
      exact hd
    obtain ⟨ts, hts, hall⟩ := a.bodies ht
    obtain ⟨us, hus, hall'⟩ := b.bodies hu
    refine ⟨ts ++ us, by rw [hus, hts, List.append_assoc], ?_⟩
    rw [hts, List.length_append] at hall'
    exact hall.append hall'

/-- Where the nodes of the body stand in the list does not matter, nor does a use of a name that names no place. -/
theorem relist (h : Outcome ctx fin o₁ s t) (hlocals : o₂.locals = o₁.locals) (hglobals : o₂.globals = o₁.globals)
    (hwrites : o₂.writes = o₁.writes) (hbodies : o₂.bodies = o₁.bodies) (hown : o₂.own ⊆ o₁.own)
    (hreads : ∀ r ∈ o₂.reads, r ∈ o₁.reads ∨ ∀ st, fin.info? r.node ≠ some (.storage st)) : Outcome ctx fin o₂ s t where
  notes := h.notes
  locals := h.locals
  size := hlocals ▸ h.size
  slots := hlocals ▸ h.slots
  globals := h.globals
  globalSize := hglobals ▸ h.globalSize
  globalSlots := hglobals ▸ h.globalSlots
  own n hn := h.own n (hown hn)
  overrides := hwrites ▸ h.overrides
  reads r hr st hst := (hreads r hr).elim (fun hr => h.reads r hr st hst) fun hne => absurd hst (hne st)
  bodies := hbodies ▸ h.bodies

/-- A change that no outline is about. -/
theorem unchanged (hnodes : t.nodes = s.nodes) (hlocals : t.frame.locals = s.frame.locals)
    (hoverrides : t.frame.overrides = s.frame.overrides) (hglobals : t.globals = s.globals)
    (htemplates : t.templates = s.templates) : Outcome ctx fin .empty s t where
  notes hs n info hi := by
    rw [hnodes] at hi
    rw [hglobals]
    exact hs n info hi
  locals := hlocals ▸ List.prefix_refl _
  size := by
    rw [Frame.size, hlocals]
    rfl
  slots := rfl
  globals := hglobals ▸ List.prefix_refl _
  globalSize := by
    rw [hglobals]
    rfl
  globalSlots := rfl
  own n hn := by simp [Outline.empty] at hn
  overrides := hoverrides.trans (Table.filterKeys_of_forall fun _ _ => rfl).symm
  reads r hr := by simp [Outline.empty] at hr
  bodies _ := ⟨[], by simp [htemplates], .nil⟩

end Outcome

/-! ### Steps that only note something -/

namespace Notes

variable {P : NodeInfo → Prop} {ids : List Nat} {s t : State}

theorem notesInScript (h : Notes P ids s t) (hP : ∀ info, P info → info.InScript s.globals.size) (hs : s.NotesInScript) :
    t.NotesInScript := by
  intro n info hi
  rw [h.globals]
  exact (h.infos n info hi).elim (hs n info) (hP info)

/-- Notes change nothing that an outline is about, beyond the nodes that stand in the body. -/
theorem outcome {ctx : Context} {fin : NodeMap} {o : Outline} (h : Notes P ids s t)
    (hP : ∀ info, P info → info.InScript s.globals.size) (hlocals : o.locals = []) (hglobals : o.globals = [])
    (hbodies : o.bodies = []) (hwrites : ∀ st, fin.writes o.writes st = false)
    (hown : ∀ n ∈ o.own, ∀ info, fin.info? n = some info → info.InFrame t.frame.size)
    (hreads : ∀ r ∈ o.reads, ∀ st, fin.info? r.node = some (.storage st) → ∃ declared, ctx.Declares t st declared ∧
      fin.ty? r.node = some (if fin.writes r.before st then declared else s.frame.readType st declared)) :
    Outcome ctx fin o s t where
  notes := h.notesInScript hP
  locals := h.frame ▸ List.prefix_refl _
  size := by rw [h.frame, hlocals, List.length_nil, Nat.add_zero]
  slots := by simp [hlocals]
  globals := h.globals ▸ List.prefix_refl _
  globalSize := by rw [h.globals, hglobals, List.length_nil, Nat.add_zero]
  globalSlots := by simp [hglobals]
  own := hown
  overrides := by
    rw [h.frame]
    exact (Table.filterKeys_of_forall fun st _ => by rw [hwrites st]; rfl).symm
  reads r hr st hst _ := hreads r hr st hst
  bodies _ := ⟨[], by simp [h.templates], hbodies ▸ .nil⟩

end Notes

/-! ### Steps that follow an outline -/

/-- The part with the nodes `ids` has not been analysed. A node may be known to name a type, for that is found out before
bodies are analysed. -/
structure Ready (ids : List Nat) (s : State) : Prop where
  nodup : ids.Nodup
  fresh : ∀ n ∈ ids, ∀ info, s.nodes.info? n = some info → info.IsType

theorem Ready.subperm {ids ids' : List Nat} {s : State} (h : Ready ids' s) (hs : ids.Subperm ids') : Ready ids s := by
  refine ⟨?_, fun n hn => h.fresh n (hs.subset hn)⟩
  obtain ⟨l, hperm, hsub⟩ := hs
  exact hperm.nodup_iff.1 (h.nodup.sublist hsub)

/-- A part that comes later is as it was before an earlier one with other nodes. -/
theorem Ready.later {ids ids' : List Nat} {s t : State} (h : Ready (ids ++ ids') s) (ht : Touches ids s t) : Ready ids' t := by
  obtain ⟨-, hnodup, hdisjoint⟩ := List.nodup_append.1 h.nodup
  refine ⟨hnodup, fun n hn info hinfo => ?_⟩
  have hsame := ht.nodes n fun hm => hdisjoint n hm n hn rfl
  rw [NodeMap.info?, NodeMap.dataOf, hsame] at hinfo
  exact h.fresh n (List.mem_append_right _ hn) info hinfo

/-- What the finished notes say about a node of the part is about a type, or it was noted by the run. -/
theorem Ready.noted {P : NodeInfo → Prop} {fin : NodeMap} {ids : List Nat} {s s' : State} (h : Ready ids s)
    (hn : Notes P ids s s') (hfin : Agrees fin ids s') {n : Nat} (hm : n ∈ ids) {info : NodeInfo}
    (hinfo : fin.info? n = some info) : info.IsType ∨ P info := by
  rw [hfin.info? hm] at hinfo
  exact (hn.infos n info hinfo).imp_left (h.fresh n hm info)

namespace Check

variable {α β : Type} {ctx : Context} {ids ids' : List Nat} {o o' : Bool → Outline}
variable {n : Nat}

/-- Each run of the step that starts in a state with `pre`, through a part with the nodes `ids`, makes of an outline what the
finished notes say. The outline may depend on whether the part stands directly in the script's body. -/
structure FollowsFrom (pre : State → Prop) (ctx : Context) (ids : List Nat) (o : Bool → Outline) (x : Check α) : Prop where
  touches : Keeps (Touches ids) x
  outcome : ∀ {fin : NodeMap} {s s' : State} {a : α}, x s = .ok (a, s') → pre s → Ready ids s → Agrees fin ids s' →
    Outcome ctx fin (o s.globalScope) s s'

/-- Each run of the step makes of an outline what the finished notes say. -/
abbrev Follows (ctx : Context) (ids : List Nat) (o : Bool → Outline) (x : Check α) : Prop :=
  FollowsFrom (fun _ => True) ctx ids o x

namespace FollowsFrom

variable {pre : State → Prop}
variable {x : Check α}

theorem weaken {pre' : State → Prop} (h : FollowsFrom pre ctx ids o x) (hp : ∀ s, pre' s → pre s) :
    FollowsFrom pre' ctx ids o x where
  touches := h.touches
  outcome hr hpre hready hfin := h.outcome hr (hp _ hpre) hready hfin

theorem subperm (h : FollowsFrom pre ctx ids o x) (hs : ids.Subperm ids') : FollowsFrom pre ctx ids' o x where
  touches := h.touches.weaken fun _ _ ht => ht.mono hs.subset
  outcome hr hpre hready hfin := h.outcome hr hpre (hready.subperm hs) (hfin.subset hs.subset)

theorem sublist (h : FollowsFrom pre ctx ids o x) (hs : ids.Sublist ids') : FollowsFrom pre ctx ids' o x :=
  h.subperm hs.subperm

/-- The node of a part is listed first and noted last. -/
theorem node_first (h : FollowsFrom pre ctx (ids ++ [n]) o x) :
    FollowsFrom pre ctx (n :: ids) o x := h.subperm (List.perm_append_singleton n ids).subperm

/-- The same, where the part has two parts inside. -/
theorem node_first₂ (h : FollowsFrom pre ctx (ids ++ (ids' ++ [n])) o x) : FollowsFrom pre ctx (n :: (ids ++ ids')) o x := by
  rw [← List.append_assoc] at h
  exact h.node_first

/-- Two steps through parts with different nodes, where the second relies on what the first gives. -/
theorem bind {Q : α → State → Prop} {f : α → Check β} (hx : FollowsFrom pre ctx ids o x)
    (hq : ∀ {s t : State} {a : α}, pre s → x s = .ok (a, t) → Q a t)
    (hf : ∀ a, (∃ s t, x s = .ok (a, t)) → FollowsFrom (Q a) ctx ids' o' (f a)) :
    FollowsFrom pre ctx (ids ++ ids') (fun g => (o g).seq (o' g)) (x >>= f) where
  touches := by
    intro s b u h
    obtain ⟨a, t, h₁, h₂⟩ := bind_eq_ok.1 h
    exact (hx.touches h₁).append ((hf a ⟨s, t, h₁⟩).touches h₂)
  outcome := by
    intro fin s u b h hpre hready hfin
    obtain ⟨a, t, h₁, h₂⟩ := bind_eq_ok.1 h
    have hf := hf a ⟨s, t, h₁⟩
    have hdisjoint : ∀ n ∈ ids, n ∉ ids' := fun n hn hn' => (List.nodup_append.1 hready.nodup).2.2 n hn n hn' rfl
    have htouch := hf.touches h₂
    have hfirst : Outcome ctx fin (o s.globalScope) s t :=
      hx.outcome h₁ hpre (hready.subperm (List.sublist_append_left _ _).subperm)
        (hfin.back htouch (List.subset_append_left _ _) hdisjoint)
    have hsecond := hf.outcome h₂ (hq hpre h₁) (hready.later (hx.touches h₁))
      (hfin.subset (List.subset_append_right _ _))
    rw [(hx.touches h₁).globalScope] at hsecond
    exact hfirst.seq hsecond htouch.diagnostics

/-- A look-up before a step. -/
theorem after_lift {x : Except Fault α} {f : α → Check β} (hf : ∀ a, FollowsFrom pre ctx ids o (f a)) :
    FollowsFrom pre ctx ids o ((liftM x : Check α) >>= f) where
  touches := by
    intro s b u h
    obtain ⟨a, t, h₁, h₂⟩ := bind_eq_ok.1 h
    obtain ⟨-, rfl⟩ := lift_eq_ok.1 h₁
    exact (hf a).touches h₂
  outcome := by
    intro fin s u b h hpre hready hfin
    obtain ⟨a, t, h₁, h₂⟩ := bind_eq_ok.1 h
    obtain ⟨-, rfl⟩ := lift_eq_ok.1 h₁
    exact (hf a).outcome h₂ hpre hready hfin

end FollowsFrom

namespace Follows

variable {x : Check α} {f : α → Check β}

/-- Two steps through parts with different nodes. -/
theorem bind (hx : Follows ctx ids o x) (hf : ∀ a, Follows ctx ids' o' (f a)) :
    Follows ctx (ids ++ ids') (fun g => (o g).seq (o' g)) (x >>= f) := FollowsFrom.bind hx (fun _ _ => trivial) fun a _ => hf a

/-- Notes that speak of no slot, some of them for nodes that stand in the body. -/
theorem of_notes (own : List Nat) (h : Keeps (Notes NodeInfo.Free ids) x) (hown : own ⊆ ids) :
    Follows ctx ids (fun _ => { Outline.empty with own := own }) x where
  touches := h.weaken fun _ _ hn => hn.touches
  outcome := by
    intro fin s s' a hr _ hready hfin
    have hn := h hr
    refine hn.outcome (fun info hf => hf.inScript) rfl rfl rfl (fun _ => rfl) ?_ (by simp [Outline.empty])
    intro n hmem info hinfo
    exact (hready.noted hn hfin (hown hmem) hinfo).elim (·.free.inFrame) (·.inFrame)

/-- Notes that have nothing to do with the body. -/
theorem nothing (h : Keeps (Notes NodeInfo.Free ids) x) (hs : ids.Sublist ids') :
    Follows ctx ids' (fun _ => .empty) x := (of_notes [] h (List.nil_subset _)).sublist hs

theorem node (h : Keeps (Notes NodeInfo.Free ids) x) (hn : n ∈ ids) :
    Follows ctx ids (fun _ => .node n) x := of_notes [n] h (by simpa using hn)

/-- A step and notes that have nothing to do with the body. -/
theorem andNotes (hx : Follows ctx ids o x)
    (hf : ∀ a, Keeps (Notes NodeInfo.Free ids') (f a)) : Follows ctx (ids ++ ids') o (x >>= f) := by
  have h : Follows ctx (ids ++ ids') (fun g => (o g).seq .empty) (x >>= f) :=
    hx.bind fun a => nothing (hf a) (List.Sublist.refl _)
  simpa only [Outline.seq_empty] using h

/-- Notes that have nothing to do with the body, and a step. -/
theorem afterNotes (hx : Keeps (Notes NodeInfo.Free ids) x)
    (hf : ∀ a, (∃ s t, x s = .ok (a, t)) → Follows ctx ids' o (f a)) : Follows ctx (ids ++ ids') o (x >>= f) := by
  have h : Follows ctx (ids ++ ids') (fun g => Outline.seq .empty (o g)) (x >>= f) :=
    FollowsFrom.bind (nothing hx (List.Sublist.refl _)) (fun _ _ => trivial) hf
  simpa only [Outline.empty_seq] using h

/-- A step and reports. -/
theorem andReports (hx : Follows ctx ids o x)
    (hf : ∀ a, Keeps (Notes NodeInfo.Free []) (f a)) : Follows ctx ids o (x >>= f) := by
  simpa only [List.append_nil] using hx.andNotes hf

end Follows

/-- Reports before a step that relies on something that they do not change. -/
theorem FollowsFrom.after_reports {pre : State → Prop} {x : Check α} {f : α → Check β}
    (hx : Keeps (Notes NodeInfo.Free []) x) (hpre : ∀ s t, Notes NodeInfo.Free [] s t → pre s → pre t)
    (hf : ∀ a, FollowsFrom pre ctx ids o (f a)) : FollowsFrom pre ctx ids o (x >>= f) := by
  have hfirst : FollowsFrom pre ctx [] (fun _ => .empty) x :=
    (Follows.nothing hx (List.Sublist.refl _)).weaken fun _ _ => trivial
  have h := hfirst.bind (Q := fun _ => pre) (fun h hr => hpre _ _ (hx hr) h) fun a _ => hf a
  simpa only [Outline.empty_seq, List.nil_append] using h

end Check

end ScriptCheck
