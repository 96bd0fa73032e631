import Flowgraph.Proofs.Parts

/-! Control flow that is a list. Its loops stand in the third place and are read as they are elsewhere, but their
    numbers are not straightened before. So a document with other numbers in such a loop is read just if the number
    of the loop's kind can be read as it stands. -/

namespace Flowgraph

open Json Json.Record Placeholder PolicyNumbers

/-! ### Records that are lists -/

namespace Json.Record

theorem read_map_eq_ok {f : α → β} {r : Record σ α} {s : Scope} {i : Nat} {x : β} :
    (f <$> r).read s i = .ok x ↔ ∃ a, r.read s i = .ok a ∧ f a = x := map_eq_ok

theorem read_seq_eq_ok {r : Record σ (α → β)} {q : Record σ α} {s : Scope} {i : Nat} {x : β} :
    (r <*> q).read s i = .ok x ↔
      ∃ f, r.read s i = .ok f ∧ ∃ a, q.read s (i + r.names.length) = .ok a ∧ f a = x := by
  change (bothOrFirst (r.read s i) (q.read s (i + r.names.length))).map (fun fx => fx.1 fx.2) = .ok x ↔ _
  simp only [map_eq_ok, Rereads.bothOrFirst_eq_ok, Prod.exists]
  constructor
  · rintro ⟨f, a, ⟨left, right⟩, same⟩
    exact ⟨f, left, a, right, same⟩
  · rintro ⟨f, left, a, right, same⟩
    exact ⟨f, a, ⟨left, right⟩, same⟩

/-- What the fields of a record are read from in a list. -/
def scopeAlong (title : String) (r : Record σ α) (p : Place) (items : List Value) : Scope :=
  ⟨title, r.names.flatten, r.names.length, p.inner, .listed (items.map Value.toTree) none⟩

theorem decode_arr_eq_ok {title : String} {r : Record σ α} {p : Place} {items : List Value} {a : α}
    (hp : p.origin ≠ .text) (closed : r.opened = false) :
    r.decode title p (Value.arr items).toTree = .ok a ↔
      items.length ≤ r.names.length ∧ r.read (r.scopeAlong title p items) 0 = .ok a := by
  rw [Value.toTree, decode, closed, Place.enter_of_ne_text hp, itemsToTrees_eq_map]
  simp only [bind, Except.bind, overlong?, List.length_map, Option.map_none]
  rw [← scopeAlong]
  cases read : r.read (r.scopeAlong title p items) 0 with
  | error e => simp [Except.mapError]
  | ok b =>
    by_cases long : r.names.length < items.length
    · simp [Except.mapError, long, throw, throwThe, MonadExceptOf.throw]
    · simp [Except.mapError, long, pure, Except.pure, Nat.le_of_not_lt long]

/-- A list that may be absent is read from what stands in its place. -/
theorem read_unlessEmpty_listed {name : String} {get : σ → List α} {c : Codec α} {s : Scope}
    {items : List Value} (listed : s.shape = .listed (items.map Value.toTree) none) {i : Nat} {xs : List α} :
    (unlessEmpty name get c).read s i = .ok xs ↔ ReadsDefaulted (.list c) s.place items[i]?.toList [] xs := by
  simp only [unlessEmpty, readField, listed, List.getElem?_map]
  cases items[i]? with
  | none => simp [ReadsDefaulted]
  | some v => simp [ReadsDefaulted, mapError_eq_ok, Codec.list]

end Json.Record

/-- Control flow that is a list is read place by place. -/
theorem FlowControl.decode_arr_eq_ok {p : Place} (hp : p.origin ≠ .text) {items : List Value}
    {f : FlowControl} :
    FlowControl.codec.decode p (Value.arr items).toTree = .ok f ↔
      items.length ≤ 4 ∧
      ReadsDefaulted (.list Conditional.codec) p.inner items[0]?.toList [] f.conditions ∧
      ReadsDefaulted (.list ParallelBlock.codec) p.inner items[1]?.toList [] f.parallels ∧
      ReadsDefaulted (.list LoopBlock.codec) p.inner items[2]?.toList [] f.loops ∧
      ReadsDefaulted (.list Route.codec) p.inner items[3]?.toList [] f.routes := by
  rw [FlowControl.codec, Record.codec, Record.decode_arr_eq_ok hp rfl]
  refine and_congr Iff.rfl ?_
  simp only [read_seq_eq_ok, read_map_eq_ok]
  constructor
  · rintro ⟨_, ⟨_, ⟨_, ⟨conditions, first, rfl⟩, parallels, second, rfl⟩, loops, third, rfl⟩, routes, fourth, rfl⟩
    exact ⟨(read_unlessEmpty_listed rfl).mp first, (read_unlessEmpty_listed rfl).mp second,
      (read_unlessEmpty_listed rfl).mp third, (read_unlessEmpty_listed rfl).mp fourth⟩
  · rintro ⟨first, second, third, fourth⟩
    exact ⟨_, ⟨_, ⟨_, ⟨_, (read_unlessEmpty_listed rfl).mpr first, rfl⟩, _, (read_unlessEmpty_listed rfl).mpr second,
      rfl⟩, _, (read_unlessEmpty_listed rfl).mpr third, rfl⟩, _, (read_unlessEmpty_listed rfl).mpr fourth, rfl⟩

theorem FlowControl.readsLoops_arr {items loops : List Value} {f : FlowControl}
    (third : items[2]? = some (.arr loops))
    (read : FlowControl.codec.decode ⟨.value, 1⟩ (Value.arr items).toTree = .ok f) :
    List.Forall₂ (fun v l => LoopBlock.codec.decode ⟨.value, 3⟩ v.toTree = .ok l) loops f.loops := by
  obtain ⟨-, -, -, reads, -⟩ := (decode_arr_eq_ok (by decide)).mp read
  rw [third] at reads
  rcases reads with ⟨other, -⟩ | ⟨_, same, list⟩
  · cases other
  · cases same
    have list : Decoder.list LoopBlock.codec.decode ⟨.value, 2⟩ (Value.arr loops).toTree = .ok f.loops := list
    obtain ⟨_, same, each⟩ := (Decoder.list_eq_ok (by decide)).mp list
    cases same
    exact each

/-- Control flow that is a list is read with another loop in the place of one. -/
theorem FlowControl.decode_setLoop_arr {items loops : List Value} {f : FlowControl}
    (third : items[2]? = some (.arr loops))
    (read : FlowControl.codec.decode ⟨.value, 1⟩ (Value.arr items).toTree = .ok f) {i : Nat} {v : Value}
    {l : LoopBlock} (decoded : LoopBlock.codec.decode ⟨.value, 3⟩ v.toTree = .ok l) :
    FlowControl.codec.decode ⟨.value, 1⟩ (Value.arr (items.set 2 (.arr (loops.set i v)))).toTree
      = .ok { f with loops := f.loops.set i l } := by
  have list : Decoder.list LoopBlock.codec.decode ⟨.value, 2⟩ (Value.arr (loops.set i v)).toTree
      = .ok (f.loops.set i l) :=
    (Decoder.list_eq_ok (by decide)).mpr ⟨_, rfl, forall₂_set (readsLoops_arr third read) decoded i⟩
  obtain ⟨short, first, second, -, fourth⟩ := (decode_arr_eq_ok (by decide)).mp read
  refine (decode_arr_eq_ok (by decide)).mpr ⟨?_, ?_, ?_, ?_, ?_⟩
  · rwa [List.length_set]
  · rwa [List.getElem?_set_ne (by decide)]
  · rwa [List.getElem?_set_ne (by decide)]
  · rw [getElem?_set_self third]
    exact .inr ⟨_, rfl, list⟩
  · rwa [List.getElem?_set_ne (by decide)]

/-! ### Loops in a list of lists -/

namespace Json.Value

/-- The list with another thing made of one of its items. -/
def updateItem (v : Value) (i : Nat) (f : Value → Value) : Value :=
  match v.items[i]? with
  | some u => v.setItem i (f u)
  | none => v

variable {v : Value} {i : Nat} {f g : Value → Value}

theorem updateItem_of_some {u : Value} (there : v.items[i]? = some u) : v.updateItem i f = v.setItem i (f u) := by
  rw [updateItem, there]

theorem apply_updateItem {answers : Object} (commutes : ∀ u, apply answers (f u) = g (apply answers u)) :
    apply answers (v.updateItem i f) = (apply answers v).updateItem i g := by
  rw [updateItem, updateItem, items_apply, List.getElem?_map]
  cases v.items[i]? with
  | none => rfl
  | some u => simp only [Option.map_some, apply_setItem, commutes]

theorem canonical_of_mem_items {u : Value} (canonical : v.canonical = v) (mem : u ∈ v.items) :
    u.canonical = u := by
  cases v with
  | arr items => exact canonical_of_mem canonical mem
  | null | bool _ | num _ | str _ | obj _ => cases mem

theorem canonical_updateItem (canonical : v.canonical = v)
    (keeps : ∀ u, u.canonical = u → (f u).canonical = f u) :
    (v.updateItem i f).canonical = v.updateItem i f := by
  cases there : v.items[i]? with
  | none =>
    rw [updateItem, there]
    exact canonical
  | some u =>
    rw [updateItem_of_some there]
    exact canonical_setItem canonical (keeps u (canonical_of_mem_items canonical (List.mem_of_getElem? there)))

theorem straightLoops_updateItem (v : Value) (i : Nat) (f : Value → Value) :
    straightLoops (v.updateItem i f) = (straightLoops v).updateItem i f := by
  cases v with
  | arr items =>
    have kept (items : List Value) : straightLoops (.arr items) = .arr items := rfl
    rw [kept, updateItem]
    split <;> rfl
  | null | bool _ | num _ | str _ | obj _ => rfl

theorem isNull_updateItem (v : Value) (i : Nat) (f : Value → Value) : (v.updateItem i f).isNull = v.isNull := by
  rw [updateItem]
  split
  · exact isNull_setItem ..
  · rfl

end Json.Value

/-- Where numbers stand in a template: in what holds them, or in a loop of a control flow that is a list. -/
inductive Setting where
  | held (h : Holder)
  | listedLoop (i : Nat)

namespace Setting

def keys : Setting → List String
  | .held h => h.keys
  | .listedLoop _ => loopFields.map Prod.fst

/-- What becomes of the value under a key; in a list it stays. -/
def settle : Setting → String → Value → Option Value
  | .held h => h.settle
  | .listedLoop _ => fun _ v => some v

def find? (template : Value) : Setting → Option Value
  | .held h => h.find? template
  | .listedLoop i => ((template.member? "flow_control").bind (·.items[2]?)).bind (·.items[i]?)

def replace (template x : Value) : Setting → Value
  | .held h => h.replace template x
  | .listedLoop i => template.updateMember "flow_control" (·.updateItem 2 (·.setItem i x))

/-- What stands there cannot be read: a policy that passes with a number that is `null`, or the number of a loop
    in a list that is none. -/
def spoils (v : Value) : Setting → Bool
  | .held h => h.leavesNull v
  | .listedLoop _ => !(LoopBlock.count? v).all Value.isCount

/-- The lists of a control flow with its loops in their place. -/
theorem exists_of_find?_listedLoop {doc x : Value} {i : Nat} (found : (listedLoop i).find? doc = some x) :
    ∃ items loops, doc.member? "flow_control" = some (.arr items) ∧ items[2]? = some (.arr loops) ∧
      loops[i]? = some x := by
  obtain ⟨third, there, listed⟩ := Option.bind_eq_some_iff.mp found
  obtain ⟨flow, member, there⟩ := Option.bind_eq_some_iff.mp there
  have list {v u : Value} {j : Nat} (h : v.items[j]? = some u) : v = .arr v.items := by
    cases v with
    | arr items => rfl
    | null | bool _ | num _ | str _ | obj _ => simp [Value.items] at h
  refine ⟨flow.items, third.items, ?_, ?_, listed⟩
  · rw [member, ← list there]
  · rw [there, ← list listed]

theorem canonical_of_find?_listedLoop {doc x : Value} {i : Nat} (canonical : doc.canonical = doc)
    (found : (listedLoop i).find? doc = some x) : x.canonical = x := by
  obtain ⟨items, loops, member, third, listed⟩ := exists_of_find?_listedLoop found
  have list := Value.canonical_of_mem (Value.canonical_of_member? canonical member) (List.mem_of_getElem? third)
  exact Value.canonical_of_mem list (List.mem_of_getElem? listed)

section
variable {template x : Value} {i : Nat} (answers : Object)

theorem canonical_replace_listedLoop (canonical : template.canonical = template) (same : x.canonical = x) :
    ((listedLoop i).replace template x).canonical = (listedLoop i).replace template x :=
  Value.canonical_updateMember canonical fun _ settled =>
    Value.canonical_updateItem settled fun _ settled => Value.canonical_setItem settled same

/-- A loop in a list is prepared by filling in the answers alone. -/
theorem prepare_replace_listedLoop (canonical : template.canonical = template) (same : x.canonical = x) :
    (Materializer.prepare ((listedLoop i).replace template x) answers).value
      = (listedLoop i).replace (Materializer.prepare template answers).value (apply answers x) := by
  rw [Materializer.value_prepare (canonical_replace_listedLoop canonical same),
    Materializer.value_prepare canonical]
  have filled : apply answers ((listedLoop i).replace template x)
      = (listedLoop i).replace (apply answers template) (apply answers x) := by
    simp only [replace]
    refine Value.apply_updateMember (fun _ => ?_) template
    exact Value.apply_updateItem fun u => Value.apply_setItem answers i x u
  rw [filled]
  simp only [straightened, replace]
  rw [Value.updateMember_comm (by decide : "flow_control" ≠ "actions"),
    Value.updateMember_comm (by decide : "flow_control" ≠ "policies"),
    Value.updateMember_updateMember, Value.updateMember_updateMember]
  simp only [Value.straightLoops_updateItem]

theorem find?_prepare_listedLoop (canonical : template.canonical = template)
    (found : (listedLoop i).find? template = some x) :
    (listedLoop i).find? (Materializer.prepare template answers).value = some (apply answers x) := by
  obtain ⟨items, loops, member, third, listed⟩ := exists_of_find?_listedLoop found
  have filled : (apply answers template).member? "flow_control"
      = some (.arr (items.map (apply answers))) := by
    rw [member?_apply, member, Option.map_some, apply, applyItems_eq_map]
  rw [Materializer.value_prepare canonical, find?, (member?_straightened _).2.2, filled]
  change (((items.map (apply answers))[2]?).bind fun v => v.items[i]?) = _
  rw [List.getElem?_map, third]
  change (apply answers (.arr loops)).items[i]? = _
  rw [Value.items_apply, List.getElem?_map]
  exact congrArg (Option.map (apply answers)) listed

end

section
variable {doc : Value} {i : Nat} {q : Object} (found : (listedLoop i).find? doc = some (.obj q))
include found

theorem find?_replace_listedLoop (x : Value) :
    (listedLoop i).find? ((listedLoop i).replace doc x) = some x := by
  obtain ⟨items, loops, member, third, listed⟩ := exists_of_find?_listedLoop found
  rw [find?, replace, Value.member?_updateMember, if_pos rfl, member, Option.map_some, Option.bind_some,
    Value.updateItem_of_some third]
  change ((items.set 2 (.arr (loops.set i x)))[2]?.bind fun v => v.items[i]?) = _
  rw [getElem?_set_self third]
  exact getElem?_set_self listed

variable {w : Workflow} (canonical : doc.canonical = doc) (read : Workflow.ofValue doc = .ok w)
include canonical read

/-- A loop in a list that is read is itself read, as the loop of the workflow. -/
theorem exists_reads_listedLoop : ∃ l, (Holder.loop i).Reads (.obj q) l ∧ w.put (.loop i) l = w := by
  obtain ⟨o, rfl, -⟩ := Workflow.readFrom_of_ofValue read
  obtain ⟨items, loops, member, third, listed⟩ := exists_of_find?_listedLoop found
  rw [Value.member?] at member
  have sorted := Object.sorted_of_canonical canonical
  have flow := (Workflow.readsSettings_of_ofValue sorted read).flow
  rw [sorted.under, member] at flow
  obtain ⟨f, same, decoded⟩ := decode_of_readsMaybe (by simp) flow
  obtain ⟨l, there, reads⟩ := exists_of_forall₂ (FlowControl.readsLoops_arr third decoded) listed
  obtain ⟨bound, rfl⟩ := List.getElem?_eq_some_iff.mp there
  refine ⟨f.loops[i], reads, ?_⟩
  rw [Workflow.put_loop, same, Option.map_some, List.set_getElem_self, ← same]

/-- The document with another loop is read as the workflow with what is read from that. -/
theorem ofValue_replace_listedLoop {q' : Object} {l : LoopBlock} (reads : (Holder.loop i).Reads (.obj q') l) :
    Workflow.ofValue ((listedLoop i).replace doc (.obj q')) = .ok (w.put (.loop i) l) := by
  obtain ⟨o, rfl, -⟩ := Workflow.readFrom_of_ofValue read
  obtain ⟨items, loops, member, third, listed⟩ := exists_of_find?_listedLoop found
  rw [Value.member?] at member
  have sorted := Object.sorted_of_canonical canonical
  have flow := (Workflow.readsSettings_of_ofValue sorted read).flow
  rw [sorted.under, member] at flow
  obtain ⟨f, same, decoded⟩ := decode_of_readsMaybe (by simp) flow
  have put := w.put_loop i l
  rw [same] at put
  rw [replace, put]
  refine Workflow.ofValue_updateFlow canonical read member ?_
  have third' : (Value.arr items).items[2]? = some (.arr loops) := third
  rw [Value.updateItem_of_some third']
  exact FlowControl.decode_setLoop_arr third decoded reads

/-- It is read at all just if the loop is. -/
theorem ofValue_replace_listedLoop_iff {q' : Object} (canonical' : (Value.obj q').canonical = .obj q')
    {w' : Workflow} :
    Workflow.ofValue ((listedLoop i).replace doc (.obj q')) = .ok w' ↔
      ∃ l, (Holder.loop i).Reads (.obj q') l ∧ w.put (.loop i) l = w' := by
  constructor
  · intro again
    obtain ⟨l, reads, -⟩ := exists_reads_listedLoop (find?_replace_listedLoop found (.obj q'))
      (canonical_replace_listedLoop canonical canonical') again
    have same := ofValue_replace_listedLoop found canonical read reads
    exact ⟨l, reads, Except.ok.inj (same.symm.trans again)⟩
  · rintro ⟨l, reads, rfl⟩
    exact ofValue_replace_listedLoop found canonical read reads

end

end Setting

end Flowgraph
