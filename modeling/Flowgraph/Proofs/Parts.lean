import Flowgraph.Proofs.Holders

/-! What is read where the numbers of a document stand. Where something else stands there, the workflow is read
    with what is read from that, and is otherwise the same. Straightened numbers are read whatever they were
    before, unless a number inside of a policy is `null`, and a setting that is `null` is read as if it were not
    there. -/

namespace Flowgraph

open Json Json.Record PolicyNumbers

/-! ### Lists with one item replaced -/

theorem forall₂_set {R : α → β → Prop} {xs : List α} {ys : List β} (h : List.Forall₂ R xs ys)
    {x : α} {y : β} (related : R x y) (i : Nat) : List.Forall₂ R (xs.set i x) (ys.set i y) := by
  induction h generalizing i with
  | nil => exact .nil
  | cons here rest ih =>
    cases i with
    | zero => exact .cons related rest
    | succ i => exact .cons here (ih i)

theorem exists_of_forall₂ {R : α → β → Prop} {xs : List α} {ys : List β} (h : List.Forall₂ R xs ys)
    {i : Nat} {x : α} (there : xs[i]? = some x) : ∃ y, ys[i]? = some y ∧ R x y := by
  induction h generalizing i with
  | nil => simp at there
  | cons here _ ih =>
    cases i with
    | zero =>
      cases there
      exact ⟨_, rfl, here⟩
    | succ i => exact ih there

theorem getElem?_set_self {xs : List α} {i : Nat} {x y : α} (there : xs[i]? = some y) :
    (xs.set i x)[i]? = some x := by
  rw [List.getElem?_set_self (List.getElem?_eq_some_iff.mp there).1]

theorem Json.Value.exists_of_itemsAt {v x : Value} {key : String} {i : Nat}
    (h : (v.itemsAt key)[i]? = some x) :
    ∃ (o : Object) (items : List Value), v = .obj o ∧ o.member? key = some (.arr items) ∧
      items[i]? = some x := by
  rw [itemsAt] at h
  split at h
  · rename_i items there
    cases v with
    | obj o => exact ⟨o, items, rfl, there, h⟩
    | null | bool _ | num _ | str _ | arr _ => cases there
  · simp at h

/-- An optional datum of which there is something is read from it. -/
theorem Json.Record.decode_of_readsMaybe {c : Codec α} {p : Place} {v : Value} {x : Option α}
    (solid : v ≠ .null) (h : ReadsMaybe c p [v] x) : ∃ a, x = some a ∧ c.decode p v.toTree = .ok a := by
  rcases h with ⟨other, -⟩ | ⟨u, same, read⟩
  · cases other
  · cases same
    rcases Decoder.optional_eq_ok.mp read with ⟨null, -⟩ | ⟨-, a, decoded, rfl⟩
    · exact absurd null solid
    · exact ⟨a, rfl, decoded⟩

/-! ### Parts -/

namespace Holder

/-- What is read from a holder. -/
def Part : Holder → Type
  | .action _ => Action
  | .policies => Policies
  | .loop _ => LoopBlock

def codec : (h : Holder) → Codec h.Part
  | .action _ => Action.codec
  | .policies => Policies.codec
  | .loop _ => LoopBlock.codec

/-- Where in a document it stands. -/
def place : Holder → Place
  | .action _ => entityPlace
  | .policies => ⟨.value, 1⟩
  | .loop _ => ⟨.value, 3⟩

theorem origin_place (h : Holder) : h.place.origin ≠ .text := by
  have value : h.place.origin = .value := by cases h <;> rfl
  rw [value]
  decide

def Reads (h : Holder) (v : Value) (part : h.Part) : Prop :=
  h.codec.decode h.place v.toTree = .ok part

end Holder

/-- The workflow with another part. -/
def Workflow.put (w : Workflow) : (h : Holder) → h.Part → Workflow
  | .action i, a => { w with actions := w.actions.set i a }
  | .policies, r => { w with policies := some r }
  | .loop i, l => { w with flowControl := w.flowControl.map fun f => { f with loops := f.loops.set i l } }

section
variable (w : Workflow) (i : Nat)

theorem Workflow.put_action (a : Action) :
    w.put (.action i) a = { w with actions := w.actions.set i a } := rfl

theorem Workflow.put_policies (r : Policies) : w.put .policies r = { w with policies := some r } := rfl

theorem Workflow.put_loop (l : LoopBlock) : w.put (.loop i) l
    = { w with flowControl := w.flowControl.map fun f => { f with loops := f.loops.set i l } } := rfl

end

namespace Holder

theorem replace_replace (h : Holder) (doc x y : Value) :
    h.replace (h.replace doc x) y = h.replace doc y := by
  have again (i : Nat) (u : Value) : (u.setItem i x).setItem i y = u.setItem i y := by
    cases u with
    | arr items => simp only [Value.setItem, List.set_set]
    | null | bool _ | num _ | str _ | obj _ => rfl
  cases h <;> simp only [replace, Value.updateMember_updateMember, again]

theorem find?_replace {h : Holder} {doc x y : Value} (found : h.find? doc = some y) :
    h.find? (h.replace doc x) = some x := by
  cases h with
  | action i =>
    obtain ⟨o, items, rfl, there, listed⟩ := Value.exists_of_itemsAt found
    rw [find?, replace, Value.itemsAt_eq, Value.member?_updateMember, if_pos rfl, Value.member?, there]
    exact getElem?_set_self listed
  | policies =>
    rw [find?] at found
    rw [find?, replace, Value.member?_updateMember, if_pos rfl, found]
    rfl
  | loop i =>
    obtain ⟨flow, there, listed⟩ := Option.bind_eq_some_iff.mp found
    obtain ⟨o, items, rfl, loops, listed⟩ := Value.exists_of_itemsAt listed
    rw [find?, replace, Value.member?_updateMember, if_pos rfl, there, Option.map_some,
      Option.bind_some, Value.itemsAt_eq, Value.member?_updateMember, if_pos rfl, Value.member?, loops]
    exact getElem?_set_self listed

theorem canonical_of_find? {h : Holder} {doc x : Value} (canonical : doc.canonical = doc)
    (found : h.find? doc = some x) : x.canonical = x := by
  have inside {v : Value} {key : String} {i : Nat} (canonical : v.canonical = v)
      (listed : (v.itemsAt key)[i]? = some x) : x.canonical = x := by
    obtain ⟨o, items, rfl, there, listed⟩ := Value.exists_of_itemsAt listed
    exact Value.canonical_of_mem (Value.canonical_of_member? canonical there)
      (List.mem_of_getElem? listed)
  cases h with
  | action i => exact inside canonical found
  | policies => exact Value.canonical_of_member? canonical found
  | loop i =>
    obtain ⟨flow, there, listed⟩ := Option.bind_eq_some_iff.mp found
    exact inside (Value.canonical_of_member? canonical there) listed

end Holder

/-! ### Reading parts of a document -/

theorem FlowControl.readsLoops {o : Object} (sorted : o.Sorted) {f : FlowControl}
    (read : FlowControl.codec.decode ⟨.value, 1⟩ (Value.obj o).toTree = .ok f) {items : List Value}
    (loops : o.member? "loops" = some (.arr items)) :
    List.Forall₂ (fun v l => LoopBlock.codec.decode ⟨.value, 3⟩ v.toTree = .ok l) items f.loops := by
  have reads := readsLoops_of_decode (by decide) read
  rw [sorted.under, loops] at reads
  rcases reads with ⟨other, -⟩ | ⟨_, same, list⟩
  · cases other
  · cases same
    have list : Decoder.list LoopBlock.codec.decode ⟨.value, 2⟩ (Value.arr items).toTree
        = .ok f.loops := list
    obtain ⟨_, same, each⟩ := (Decoder.list_eq_ok (by decide)).mp list
    cases same
    exact each

/-- Control flow is read with another loop in the place of one. -/
theorem FlowControl.decode_setLoop {o : Object} (sorted : o.Sorted) {f : FlowControl}
    (read : FlowControl.codec.decode ⟨.value, 1⟩ (Value.obj o).toTree = .ok f) {items : List Value}
    (loops : o.member? "loops" = some (.arr items)) {i : Nat} {v : Value} {l : LoopBlock}
    (decoded : LoopBlock.codec.decode ⟨.value, 3⟩ v.toTree = .ok l) :
    FlowControl.codec.decode ⟨.value, 1⟩
        ((Value.obj o).updateMember "loops" (·.setItem i v)).toTree
      = .ok { f with loops := f.loops.set i l } := by
  have one : o.under ["loops"] = [.arr items] := by
    rw [sorted.under, loops]
    rfl
  obtain ⟨o', same, outside, under⟩ := Value.exists_updateMember_obj "loops" (·.setItem i v) o
  rw [one] at under
  have list : Decoder.list LoopBlock.codec.decode ⟨.value, 2⟩ (Value.arr (items.set i v)).toTree
      = .ok (f.loops.set i l) :=
    (Decoder.list_eq_ok (by decide)).mpr ⟨_, rfl, forall₂_set (readsLoops sorted read loops) decoded i⟩
  rw [same]
  exact decode_alike (by decide) outside read (.inr ⟨_, under, list⟩)

/-- The document with other control flow is read as the workflow with what is read from that. -/
theorem Workflow.ofValue_updateFlow {o : Object} {w : Workflow} (canonical : (Value.obj o).canonical = .obj o)
    (read : Workflow.ofValue (.obj o) = .ok w) {flow : Value} (there : o.member? "flow_control" = some flow)
    {change : Value → Value} {f : FlowControl}
    (decoded : FlowControl.codec.decode ⟨.value, 1⟩ (change flow).toTree = .ok f) :
    Workflow.ofValue ((Value.obj o).updateMember "flow_control" change)
      = .ok { w with flowControl := some f } := by
  have sorted := Object.sorted_of_canonical canonical
  have settings := Workflow.readsSettings_of_ofValue sorted read
  obtain ⟨items, equipped, each⟩ := settings.actions
  have policies := settings.policies
  obtain ⟨o', same, outside, under⟩ := Value.exists_updateMember_obj "flow_control" change o
  rw [sorted.under, there] at under
  have given : ReadsMaybe FlowControl.codec ⟨.value, 1⟩ (o'.under ["flow_control"]) (some f) :=
    .inr ⟨_, under, Decoder.optional_eq_ok.mpr (.inr ⟨Record.ne_null_of_decode decoded, _, decoded, rfl⟩)⟩
  rw [← outside.under_eq (by decide)] at equipped policies
  rw [same]
  exact Workflow.ofValue_alike (outside.mono (by simp)) read ⟨⟨items, equipped, each⟩, given, policies⟩

namespace Holder

section
variable {o : Object} {w : Workflow} (canonical : (Value.obj o).canonical = .obj o)
  (read : Workflow.ofValue (.obj o) = .ok w)
include canonical read

/-- What stands in a document that is read is itself read, as the part of the workflow. -/
theorem exists_reads {h : Holder} {q : Object} (found : h.find? (.obj o) = some (.obj q)) :
    ∃ part, h.Reads (.obj q) part ∧ w.put h part = w := by
  have sorted := Object.sorted_of_canonical canonical
  have settings := Workflow.readsSettings_of_ofValue sorted read
  cases h with
  | action i =>
    obtain ⟨items, one, each⟩ := settings.actions
    rw [find?, Value.itemsAt, Value.member?, Object.member?_of_under one] at found
    obtain ⟨a, there, decoded⟩ := exists_of_forall₂ each found
    obtain ⟨bound, rfl⟩ := List.getElem?_eq_some_iff.mp there
    refine ⟨w.actions[i], decoded, ?_⟩
    rw [Workflow.put_action, List.set_getElem_self]
  | policies =>
    rw [find?, Value.member?] at found
    have limited := settings.policies
    rw [sorted.under, found] at limited
    obtain ⟨r, same, decoded⟩ := decode_of_readsMaybe (by simp) limited
    refine ⟨r, decoded, ?_⟩
    rw [Workflow.put_policies, ← same]
  | loop i =>
    obtain ⟨flow, there, listed⟩ := Option.bind_eq_some_iff.mp found
    obtain ⟨g, items, rfl, loops, listed⟩ := Value.exists_of_itemsAt listed
    rw [Value.member?] at there
    have flow := settings.flow
    rw [sorted.under, there] at flow
    obtain ⟨f, same, decoded⟩ := decode_of_readsMaybe (by simp) flow
    have inside := Object.sorted_of_canonical (Value.canonical_of_member? canonical there)
    obtain ⟨l, there, decoded⟩ := exists_of_forall₂ (FlowControl.readsLoops inside decoded loops) listed
    obtain ⟨bound, rfl⟩ := List.getElem?_eq_some_iff.mp there
    refine ⟨f.loops[i], decoded, ?_⟩
    rw [Workflow.put_loop, same, Option.map_some, List.set_getElem_self, ← same]

/-- The document with another part is read as the workflow with what is read from it. -/
theorem ofValue_replace {h : Holder} {q q' : Object} (found : h.find? (.obj o) = some (.obj q))
    {part : h.Part} (reads : h.Reads (.obj q') part) :
    Workflow.ofValue (h.replace (.obj o) (.obj q')) = .ok (w.put h part) := by
  have sorted := Object.sorted_of_canonical canonical
  have settings := Workflow.readsSettings_of_ofValue sorted read
  obtain ⟨items, equipped, each⟩ := settings.actions
  have flow := settings.flow
  have policies := settings.policies
  cases h with
  | action i =>
    obtain ⟨o', same, outside, under⟩ :=
      Value.exists_updateMember_obj "actions" (·.setItem i (.obj q')) o
    rw [equipped] at under
    rw [← outside.under_eq (by decide)] at flow policies
    rw [replace, same]
    exact Workflow.ofValue_alike (outside.mono (by simp)) read
      ⟨⟨_, under, forall₂_set each reads i⟩, flow, policies⟩
  | policies =>
    rw [find?, Value.member?] at found
    obtain ⟨o', same, outside, under⟩ := Value.exists_updateMember_obj "policies" (fun _ => .obj q') o
    rw [sorted.under, found] at under
    have given : ReadsMaybe Policies.codec ⟨.value, 1⟩ (o'.under ["policies"]) (some part) :=
      .inr ⟨.obj q', under,
        Decoder.optional_eq_ok.mpr (.inr ⟨Record.ne_null_of_decode reads, part, reads, rfl⟩)⟩
    rw [← outside.under_eq (by decide)] at equipped flow
    rw [replace, same]
    exact Workflow.ofValue_alike (outside.mono (by simp)) read ⟨⟨items, equipped, each⟩, flow, given⟩
  | loop i =>
    obtain ⟨_, there, listed⟩ := Option.bind_eq_some_iff.mp found
    obtain ⟨g, loops, rfl, member, listed⟩ := Value.exists_of_itemsAt listed
    rw [Value.member?] at there
    have inside := Object.sorted_of_canonical (Value.canonical_of_member? canonical there)
    rw [sorted.under, there] at flow
    obtain ⟨f, one, decoded⟩ := decode_of_readsMaybe (by simp) flow
    have put := w.put_loop i part
    rw [one] at put
    rw [replace, put]
    exact Workflow.ofValue_updateFlow canonical read there
      (FlowControl.decode_setLoop (i := i) inside decoded member reads)

end

/-- Where a part is read from the one as it is from the other, so is the workflow. -/
theorem ofValue_replace_imp {h : Holder} {doc : Value} {q q₁ q₂ : Object} {w : Workflow}
    (canonical : doc.canonical = doc) (canonical' : (Value.obj q₁).canonical = .obj q₁)
    (found : h.find? doc = some (.obj q))
    (same : ∀ part, h.Reads (.obj q₁) part → h.Reads (.obj q₂) part)
    (read : Workflow.ofValue (h.replace doc (.obj q₁)) = .ok w) :
    Workflow.ofValue (h.replace doc (.obj q₂)) = .ok w := by
  have changed := h.canonical_replace canonical canonical'
  have there : h.find? (h.replace doc (.obj q₁)) = some (.obj q₁) := find?_replace found
  rw [← h.replace_replace doc (.obj q₁)]
  obtain ⟨o, obj, -⟩ := Workflow.readFrom_of_ofValue read
  rw [obj] at changed there read ⊢
  obtain ⟨part, reads, put⟩ := exists_reads changed read there
  rw [ofValue_replace changed read there (same part reads), put]

end Holder

/-! ### Other numbers -/

/-- The action without its policies. -/
def Action.bare (a : Action) : Action := { a with retry := none, timeoutMs := none, rateLimit := none }

/-- The two workflows differ at most in their policies and their control flow. -/
structure Workflow.AgreesOutside (w w' : Workflow) : Prop where
  id : w'.id = w.id
  version : w'.version = w.version
  triggers : w'.triggers = w.triggers
  actions : w'.actions.map Action.bare = w.actions.map Action.bare

theorem Workflow.agreesOutside_put_action {w : Workflow} {i : Nat} {a b : Action}
    (bare : b.bare = a.bare) (same : w.put (.action i) a = w) :
    w.AgreesOutside (w.put (.action i) b) where
  id := rfl
  version := rfl
  triggers := rfl
  actions := calc (w.actions.set i b).map Action.bare
    _ = (w.actions.set i a).map Action.bare := by rw [List.map_set, List.map_set, bare]
    _ = w.actions.map Action.bare := congrArg (fun w : Workflow => w.actions.map Action.bare) same

section
variable {p : Place} (hp : p.origin ≠ .text) {o : Object} (canonical : (Value.obj o).canonical = .obj o)
include hp canonical

theorem Action.exists_decode_alike {o₀ : Object} {a : Action}
    (alike : o₀.AgreeOutside ["retry", "rate_limit", "timeout_ms"] o)
    (settles : SettlesSet actionFields (.obj o))
    (read : Action.codec.decode p (Value.obj o₀).toTree = .ok a) :
    (hasNullWithin (.obj o) = false →
      ∃ b, Action.codec.decode p (Value.obj o).toTree = .ok b ∧ b.bare = a.bare) ∧
    ∀ b, Action.codec.decode p (Value.obj o).toTree = .ok b → hasNullWithin (.obj o) = false := by
  have inside : p.inner.origin ≠ .text := hp
  have readable := exists_readsPolicies inside canonical (by decide) settles
  constructor
  · intro solid
    obtain ⟨retry, timeoutMs, limit, reads⟩ := readable.mpr solid
    exact ⟨_, decode_alike hp alike read reads, rfl⟩
  · intro b decoded
    exact readable.mp ⟨_, _, _, readsPolicies_of_decode hp decoded⟩

theorem Policies.exists_decode (settles : SettlesSet policiesFields (.obj o)) :
    (∃ q, Policies.codec.decode p (Value.obj o).toTree = .ok q) ↔ hasNullWithin (.obj o) = false := by
  have inside : p.inner.origin ≠ .text := hp
  have readable := exists_readsPolicies inside canonical (by decide) settles
  obtain ⟨n, parallel⟩ := (readsKind_uint32 inside).exists_readsMaybe
    (Object.sorted_of_canonical canonical) (settles.plain ("max_parallelism", .uint32) (by decide))
  constructor
  · rintro ⟨q, decoded⟩
    exact readable.mp ⟨_, _, _, ((decode_eq_ok hp).mp decoded).1⟩
  · intro solid
    obtain ⟨retry, timeoutMs, limit, reads⟩ := readable.mpr solid
    exact ⟨⟨retry, timeoutMs, limit, n⟩, (decode_eq_ok hp).mpr ⟨reads, parallel⟩⟩

end

namespace Holder

/-- Nothing is left to straighten. -/
def Settles (v : Value) : Holder → Prop
  | .action _ => SettlesSet actionFields v
  | .policies => SettlesSet policiesFields v
  | .loop _ => PolicyNumbers.Settles loopFields v

/-- A number inside of a policy is `null`. Loops hold no policies. -/
def hasNull (v : Value) : Holder → Bool
  | .action _ | .policies => hasNullWithin v
  | .loop _ => false

section
variable {h : Holder} {q q' : Object} (canonical : (Value.obj q).canonical = .obj q)
  (canonical' : (Value.obj q').canonical = .obj q') (alike : q.AgreeOutside h.keys q')
include canonical canonical' alike

/-- Straightened numbers are read whatever they were before, unless one inside of a policy is `null`. -/
theorem exists_reads_alike (settles : h.Settles (.obj q')) {part : h.Part}
    (reads : h.Reads (.obj q) part) :
    (h.hasNull (.obj q') = false →
      ∃ part', h.Reads (.obj q') part' ∧
        ∀ w : Workflow, w.put h part = w → w.AgreesOutside (w.put h part')) ∧
    ∀ part', h.Reads (.obj q') part' → h.hasNull (.obj q') = false := by
  cases h with
  | action i =>
    obtain ⟨readable, solid⟩ := Action.exists_decode_alike (origin_place _) canonical' alike settles reads
    refine ⟨fun clean => ?_, solid⟩
    obtain ⟨b, decoded, bare⟩ := readable clean
    exact ⟨b, decoded, fun w same => Workflow.agreesOutside_put_action bare same⟩
  | policies =>
    have readable := Policies.exists_decode (origin_place .policies) canonical' settles
    refine ⟨fun clean => ?_, fun r decoded => readable.mp ⟨r, decoded⟩⟩
    obtain ⟨r, decoded⟩ := readable.mpr clean
    exact ⟨r, decoded, fun w _ => ⟨rfl, rfl, rfl, rfl⟩⟩
  | loop i =>
    obtain ⟨l, decoded⟩ := LoopBlock.exists_decode (origin_place _) canonical canonical' alike reads
      settles
    exact ⟨fun _ => ⟨l, decoded, fun w _ => ⟨rfl, rfl, rfl, rfl⟩⟩, fun _ _ => rfl⟩

/-- Where every setting is read as the same, so is the part. -/
theorem reads_alike
    (same : ∀ {α : Type} (c : Codec α) p name x,
      ReadsMaybe c p (q.under [name]) x → ReadsMaybe c p (q'.under [name]) x)
    {part : h.Part} (reads : h.Reads (.obj q) part) : h.Reads (.obj q') part := by
  have policies {p : Place} {retry timeoutMs limit} (given : ReadsPolicies p q retry timeoutMs limit) :
      ReadsPolicies p q' retry timeoutMs limit :=
    ⟨same _ _ _ _ given.retry, same _ _ _ _ given.timeoutMs, same _ _ _ _ given.rateLimit⟩
  cases h with
  | action i =>
    have given := Action.readsPolicies_of_decode (origin_place _) reads
    exact Action.decode_alike (origin_place _) alike reads (policies given)
  | policies =>
    obtain ⟨given, parallel⟩ := (Policies.decode_eq_ok (origin_place .policies)).mp reads
    exact (Policies.decode_eq_ok (origin_place .policies)).mpr ⟨policies given, same _ _ _ _ parallel⟩
  | loop i =>
    exact LoopBlock.decode_alike (origin_place _) canonical canonical' alike
      (fun f _ n number => same _ _ _ _ number) reads

end

/-- A setting that is `null` is read as if it were not there. -/
theorem reads_without {h : Holder} {q : Object} (canonical : (Value.obj q).canonical = .obj q)
    {key : String} (mem : key ∈ h.keys) (null : q.member? key = some .null) (part : h.Part) :
    h.Reads (.obj (q.without key)) part ↔ h.Reads (.obj q) part := by
  have sorted := Object.sorted_of_canonical canonical
  have without := Object.canonical_without canonical key
  have alike : q.AgreeOutside h.keys (q.without key) :=
    (Object.agreeOutside_without key q).mono (by simpa using mem)
  constructor
  · exact reads_alike without canonical alike.symm fun c p name x =>
      (readsMaybe_without sorted null name).mp
  · exact reads_alike canonical without alike fun c p name x =>
      (readsMaybe_without sorted null name).mpr

/-- The document is read with the new part just if no number inside of a policy is `null` there. -/
structure ReadsWith (h : Holder) (doc x : Value) (w : Workflow) : Prop where
  read : h.hasNull x = false →
    ∃ w', Workflow.ofValue (h.replace doc x) = .ok w' ∧ w.AgreesOutside w'
  solid : ∀ w', Workflow.ofValue (h.replace doc x) = .ok w' → h.hasNull x = false

theorem readsWith {h : Holder} {doc : Value} {q q' : Object} {w : Workflow}
    (canonical : doc.canonical = doc) (canonical' : (Value.obj q').canonical = .obj q')
    (read : Workflow.ofValue doc = .ok w) (found : h.find? doc = some (.obj q))
    (alike : q.AgreeOutside h.keys q') (settles : h.Settles (.obj q')) :
    h.ReadsWith doc (.obj q') w := by
  have inside := canonical_of_find? canonical found
  have changed := h.canonical_replace canonical canonical'
  have there : h.find? (h.replace doc (.obj q')) = some (.obj q') := find?_replace found
  obtain ⟨o, rfl, -⟩ := Workflow.readFrom_of_ofValue read
  obtain ⟨part, reads, put⟩ := exists_reads canonical read found
  obtain ⟨readable, solid⟩ := exists_reads_alike inside canonical' alike settles reads
  constructor
  · intro clean
    obtain ⟨part', reads', agrees⟩ := readable clean
    exact ⟨_, ofValue_replace canonical read found reads', agrees w put⟩
  · intro w' again
    obtain ⟨o', obj, -⟩ := Workflow.readFrom_of_ofValue again
    rw [obj] at changed there again
    obtain ⟨part', reads', -⟩ := exists_reads changed again there
    exact solid part' reads'

end Holder

end Flowgraph
