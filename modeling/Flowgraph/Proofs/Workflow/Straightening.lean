import Flowgraph.Proofs.Placeholder
import Flowgraph.Proofs.Workflow.StraightPolicies

/-! What is read of a document once its numbers are straightened: the workflow that was read before, with
    two exceptions. A policy that is to be an object and is a list is left out, and a time of more than 63
    bits may come out as another one. -/

namespace Flowgraph

open Json Json.Record PolicyNumbers

/-! ### Sets of policies -/

namespace Json.Value

def isList : Value → Bool
  | .arr _ => true
  | .null | .bool _ | .num _ | .str _ | .obj _ => false

def isText : Value → Bool
  | .str _ => true
  | .null | .bool _ | .num _ | .arr _ | .obj _ => false

/-- What is under the key is a list. -/
def listsAt (v : Value) (key : String) : Bool := (v.member? key).any isList

end Json.Value

/-- A datum unless it is given as a list. -/
def unlessListed (v : Value) (key : String) (x : Option α) : Option α :=
  if v.listsAt key then none else x

/-- A time of more than 63 bits. -/
def isLongTime (n : UInt64) : Bool := decide (int64Max < n.toNat)

/-- A time that would be clamped as a number stands under the key as a text. -/
def spellsClampedTime (v : Value) (key : String) (time : Option UInt64) : Bool :=
  (v.member? key).any Value.isText && time.any isClampedTime

/-- A time of a set of policies does so: its time limit, or the delay of its retry policy. -/
def spellsClampedTimes (v : Value) (retry : Option RetryPolicy) (timeoutMs : Option UInt64) : Bool :=
  spellsClampedTime v "timeout_ms" timeoutMs ||
    spellsClampedTime ((v.member? "retry").getD .null) "initial_delay_ms"
      (retry.map RetryPolicy.initialDelayMs)

theorem unclamped_of_spells {v : Value} {key s : String} {n : UInt64}
    (plain : spellsClampedTime v key (some n) = false) (there : v.member? key = some (.str s)) :
    isClampedTime n = false := by
  simpa [spellsClampedTime, there, Value.isText] using plain

/-- What the policies of a set are read from. -/
structure ReadsPolicies (p : Place) (o : Object) (retry : Option RetryPolicy)
    (timeoutMs : Option UInt64) (rateLimit : Option RateLimit) : Prop where
  retry : ReadsMaybe RetryPolicy.codec p (o.under ["retry"]) retry
  timeoutMs : ReadsMaybe .lenientUInt64 p (o.under ["timeout_ms"]) timeoutMs
  rateLimit : ReadsMaybe RateLimit.codec p (o.under ["rate_limit"]) rateLimit

/-- A policy is straightened if it is an object, and left out if it is a list. -/
theorem readsMaybe_settleObject {p : Place} {o : Object} {name : String} {r : Record α α}
    {title : String} {fields : List NumericField} {x : Option α} {f : α → Option α}
    (h : ReadsMaybe (Record.codec title r) p (o.under [name]) x)
    (each : ∀ inner a, o.member? name = some (.obj inner) → x = some a →
      (Record.codec title r).decode p (Value.obj inner).toTree = .ok a →
      Option.Rel ((Record.codec title r).Shows p) (settleObject fields (.obj inner)) (f a)) :
    ReadsMaybe (Record.codec title r) p ((o.under [name]).filterMap (settleObject fields))
      ((unlessListed (.obj o) name x).bind f) := by
  have pushed : (unlessListed (.obj o) name x).bind f
      = x.bind fun a => unlessListed (.obj o) name (f a) := by
    cases x <;> simp only [unlessListed] <;> split <;> rfl
  rw [pushed]
  refine h.filterMap rfl ?_
  rintro v a one rfl decoded
  have there : o.member? name = some v := Object.member?_of_under one
  have listed : (Value.obj o).listsAt name = v.isList := by
    rw [Value.listsAt, Value.member?, there, Option.any_some]
  rw [unlessListed, listed]
  cases v with
  | obj inner => exact each inner a there rfl decoded
  | arr items => exact .none
  | null | bool _ | num _ | str _ => cases decoded

theorem readsMaybe_settle_time {p : Place} (hp : p.origin ≠ .text) {o : Object} {name : String}
    {time : Option UInt64} (h : ReadsMaybe .lenientUInt64 p (o.under [name]) time)
    (plain : spellsClampedTime (.obj o) name time = false) :
    ReadsMaybe .lenientUInt64 p ((o.under [name]).filterMap NumericKind.uint64.settle)
      (time.bind straightTime) := by
  refine h.filterMap rfl ?_
  rintro v t one rfl decoded
  have there : o.member? name = some v := Object.member?_of_under one
  rw [settle_uint64_of_decode hp decoded fun s spelt =>
    unclamped_of_spells plain (spelt ▸ there)]
  cases straightTime t with
  | none => exact .none
  | some t' => exact .some ⟨nofun, decode_toValue_uint64 hp t'⟩

/-- A number of 32 bits is the same afterwards. -/
theorem readsMaybe_settle_uint32 {p : Place} (hp : p.origin ≠ .text) {vs : List Value}
    {x : Option UInt32} (h : ReadsMaybe .lenientUInt32 p vs x) :
    ReadsMaybe .lenientUInt32 p (vs.filterMap NumericKind.uint32.settle) x := by
  have again := h.filterMap (g := NumericKind.uint32.settle) (f := some) rfl fun v n _ _ decoded => by
    rw [settle_uint32_of_decode hp decoded]
    exact .some ⟨nofun, decode_toValue_uint32 hp n⟩
  rwa [Option.bind_fun_some] at again

/-- A set of policies is straightened policy by policy. -/
theorem ReadsPolicies.settle {p : Place} (hp : p.origin ≠ .text) {o : Object}
    (canonical : (Value.obj o).canonical = .obj o) {fields : List NumericField}
    (timed : fields.lookup "timeout_ms" = some .uint64) {retry : Option RetryPolicy}
    {timeoutMs : Option UInt64} {limit : Option RateLimit}
    (h : ReadsPolicies p o retry timeoutMs limit)
    (finite : (unlessListed (.obj o) "retry" retry).all (·.isFinite) = true)
    (plain : spellsClampedTimes (.obj o) retry timeoutMs = false) :
    ReadsPolicies p (o.rework (settleSet fields))
      ((unlessListed (.obj o) "retry" retry).bind RetryPolicy.straight?)
      (timeoutMs.bind straightTime) (unlessListed (.obj o) "rate_limit" limit) := by
  rw [spellsClampedTimes, Bool.or_eq_false_iff] at plain
  have inside {name : String} {inner : Object} (there : o.member? name = some (.obj inner)) :
      inner.Sorted := Object.sorted_of_canonical (Value.canonical_of_member? canonical there)
  refine ⟨?_, ?_, ?_⟩ <;> rw [Object.under_rework]
  · refine readsMaybe_settleObject h.retry ?_
    rintro inner r there rfl decoded
    have object : (Value.obj o).listsAt "retry" = false := by
      simp [Value.listsAt, Value.member?, there, Value.isList]
    rw [unlessListed, object] at finite
    refine RetryPolicy.shows_settleObject hp (inside there) decoded finite fun s spelt => ?_
    have delayed := plain.2
    rw [Value.member?, there] at delayed
    exact unclamped_of_spells delayed spelt
  · have limited : settleSet fields "timeout_ms" = NumericKind.uint64.settle := by
      funext v
      simp [settleSet, settleFields, timed]
    rw [limited]
    exact readsMaybe_settle_time hp h.timeoutMs plain.1
  · have kept := readsMaybe_settleObject (f := some) h.rateLimit fun inner l there _ decoded =>
      RateLimit.shows_settleObject hp (inside there) decoded
    rwa [Option.bind_fun_some] at kept

theorem onlyAt_settleSet {fields : List NumericField} :
    Object.OnlyAt (settleSet fields) ("retry" :: "rate_limit" :: fields.map Prod.fst) := by
  intro key out v
  simp only [List.mem_cons, not_or] at out
  rw [settleSet, if_neg out.1, if_neg out.2.1]
  exact onlyAt_settleFields fields key out.2.2 v

/-! ### Actions -/

/-- The action with its times straightened. -/
def Action.straighten (a : Action) : Action :=
  { a with
    retry := a.retry.bind RetryPolicy.straight?
    timeoutMs := a.timeoutMs.bind straightTime }

/-- The action without the policies that the item it is read from has as lists. -/
def Action.withoutLists (item : Value) (a : Action) : Action :=
  { a with
    retry := unlessListed item "retry" a.retry
    rateLimit := unlessListed item "rate_limit" a.rateLimit }

section
variable {p : Place} (hp : p.origin ≠ .text) {o : Object}
include hp

theorem Action.readsPolicies_of_decode {a : Action}
    (read : Action.codec.decode p (Value.obj o).toTree = .ok a) :
    ReadsPolicies p.inner o a.retry a.timeoutMs a.rateLimit := by
  refine decode_gives (Q := fun a : Action => ReadsPolicies p.inner o a.retry a.timeoutMs a.rateLimit)
    hp read fun s place => ?_
  rw [← place]
  iterate 6 refine Gives.seq ?_ .any
  refine .seq (.seq (.seq ?_ maybe_gives_reads) maybe_gives_reads) maybe_gives_reads
  iterate 4 refine Gives.seq ?_ .any
  refine .map fun _ _ _ => ?_
  intro _ _ _ _ _ _ _ _ retry first timeoutMs second limit third
  intros
  exact ⟨first, second, third⟩

/-- Where only its policies differ, an action is read as before but for its policies. -/
theorem Action.decode_alike {o' : Object} {a : Action} {retry : Option RetryPolicy}
    {timeoutMs : Option UInt64} {limit : Option RateLimit}
    (alike : o.AgreeOutside ["retry", "rate_limit", "timeout_ms"] o')
    (read : Action.codec.decode p (Value.obj o).toTree = .ok a)
    (h : ReadsPolicies p.inner o' retry timeoutMs limit) :
    Action.codec.decode p (Value.obj o').toTree
      = .ok { a with retry := retry, timeoutMs := timeoutMs, rateLimit := limit } := by
  refine Record.decode_carried hp read fun s place known => ?_
  rw [← place] at h
  refine .seq (.seq (.seq (.seq (.seq (.seq (.seq (.seq (.seq (.seq (.seq (.seq (.seq
    (.map (.kept_field alike (by decide)) ?_) (.kept_defaulted alike (by decide)))
    (.kept_defaulted alike (by decide))) (.kept_defaulted alike (by decide)))
    (.kept_defaulted alike (by decide))) (.given h.retry)) (.given h.timeoutMs))
    (.given h.rateLimit)) (.kept_maybe alike (by decide))) (.kept_maybe alike (by decide)))
    (.kept_maybe alike (by decide))) (.kept_maybe alike (by decide))) (.kept_maybe alike (by decide)))
    (.kept_rest alike (by rw [place]; exact hp) (by rw [known]; decide))
  rintro _ _ rfl _ _ rfl _ _ rfl _ _ rfl _ _ rfl _ _ rfl _ _ rfl _ _ rfl _ _ rfl _ _ rfl _ _ rfl
    _ _ rfl _ _ rfl _ _ rfl rfl
  rfl

/-- An action is read from the straightened item with straightened times. -/
theorem Action.decode_coercePolicySet {item : Value} {a : Action} (canonical : item.canonical = item)
    (read : Action.codec.decode p item.toTree = .ok a)
    (finite : (a.withoutLists item).isFinite = true)
    (plain : spellsClampedTimes item a.retry a.timeoutMs = false) (path : String) :
    Action.codec.decode p (coercePolicySet path actionFields item).value.toTree
      = .ok (a.withoutLists item).straighten := by
  obtain ⟨o, rfl⟩ := Record.obj_of_decode_eq_ok rfl read
  rw [isFinite, Bool.and_eq_true] at finite
  rw [value_coercePolicySet canonical path plainNames_actionFields]
  have settled := (readsPolicies_of_decode hp read).settle (p := p.inner) hp canonical
    (show actionFields.lookup "timeout_ms" = _ from rfl) finite.1 plain
  have only : Object.OnlyAt (settleSet actionFields) ["retry", "rate_limit", "timeout_ms"] :=
    onlyAt_settleSet
  have decoded := decode_alike hp (only.agreeOutside o) read settled
  exact decoded

end

/-! ### The policies of a workflow -/

def Policies.straighten (q : Policies) : Policies :=
  { q with
    retry := q.retry.bind RetryPolicy.straight?
    timeoutMs := q.timeoutMs.bind straightTime }

def Policies.withoutLists (v : Value) (q : Policies) : Policies :=
  { q with
    retry := unlessListed v "retry" q.retry
    rateLimit := unlessListed v "rate_limit" q.rateLimit }

/-- One of the times has more than 63 bits. -/
def Policies.hasLongTime (q : Policies) : Bool :=
  q.timeoutMs.any isLongTime || q.retry.any fun r => isLongTime r.initialDelayMs

/-- Policies without a time of more than 63 bits are straight. -/
theorem Policies.straighten_of_hasLongTime {q : Policies} (short : q.hasLongTime = false) :
    q.straighten = q := by
  have fits {n : UInt64} (short : isLongTime n = false) : straightTime n = some n :=
    straightTime_of_fits (by simpa [isLongTime] using short)
  obtain ⟨retry, timeoutMs, limit, parallelism⟩ := q
  rw [hasLongTime, Bool.or_eq_false_iff] at short
  have retries : retry.bind RetryPolicy.straight? = retry := by
    cases retry with
    | none => rfl
    | some r => simp only [Option.bind_some, RetryPolicy.straight?, fits short.2, Option.map_some]
  have times : timeoutMs.bind straightTime = timeoutMs := by
    cases timeoutMs with
    | none => rfl
    | some t => exact fits short.1
  simp only [straighten, retries, times]

section
variable {p : Place} (hp : p.origin ≠ .text)
include hp

/-- The policies of a workflow are read from an object just as each of them is. -/
theorem Policies.decode_eq_ok {o : Object} {q : Policies} :
    Policies.codec.decode p (Value.obj o).toTree = .ok q ↔
      ReadsPolicies p.inner o q.retry q.timeoutMs q.rateLimit ∧
        ReadsMaybe .lenientUInt32 p.inner (o.under ["max_parallelism"]) q.maxParallelism := by
  constructor
  · intro read
    refine decode_gives (Q := fun q : Policies =>
      ReadsPolicies p.inner o q.retry q.timeoutMs q.rateLimit ∧
        ReadsMaybe .lenientUInt32 p.inner (o.under ["max_parallelism"]) q.maxParallelism)
      hp read fun s place => ?_
    rw [← place]
    refine .seq (.seq (.seq (.map fun i x there => ?_) maybe_gives_reads) maybe_gives_reads)
      maybe_gives_reads
    exact fun y second z third u fourth => ⟨⟨maybe_gives_reads i x there, second, third⟩, fourth⟩
  · rintro ⟨h, parallel⟩
    have empty : Policies.codec.decode p (Value.obj []).toTree = .ok .none := by
      simp only [Policies.codec, Record.codec]
      exact (Record.decode_obj_eq_ok hp).mpr rfl
    refine Record.decode_carried (o := []) hp empty fun s place _ => ?_
    rw [← place] at h parallel
    refine .seq (.seq (.seq (.map (.given h.retry) ?_) (.given h.timeoutMs)) (.given h.rateLimit))
      (.given parallel)
    rintro _ _ rfl _ _ rfl _ _ rfl _ _ rfl -
    rfl

/-- The policies of a workflow are read from the straightened ones with straightened times. If they are a
    list, they are not straightened at all. -/
theorem Policies.decode_coercePolicySet {v : Value} {q : Policies} (canonical : v.canonical = v)
    (read : Policies.codec.decode p v.toTree = .ok q)
    (finite : (q.withoutLists v).isFinite = true)
    (plain : spellsClampedTimes v q.retry q.timeoutMs = false)
    (short : v.isList = true → q.hasLongTime = false) (path : String) :
    Policies.codec.decode p (coercePolicySet path policiesFields v).value.toTree
      = .ok (q.withoutLists v).straighten := by
  cases v with
  | obj o =>
    obtain ⟨policies, parallel⟩ := (decode_eq_ok hp).mp read
    rw [value_coercePolicySet canonical path plainNames_policiesFields]
    refine (decode_eq_ok hp).mpr ⟨?_, ?_⟩
    · exact policies.settle (p := p.inner) hp canonical
        (show policiesFields.lookup "timeout_ms" = _ from rfl) finite plain
    · rw [Object.under_rework]
      exact readsMaybe_settle_uint32 (p := p.inner) hp parallel
  | arr items =>
    have whole : q.withoutLists (.arr items) = q := rfl
    rw [whole, straighten_of_hasLongTime (short rfl)]
    exact read
  | null | bool _ | num _ | str _ => cases read

end

/-! ### Loops -/

section
variable {p : Place} (hp : p.origin ≠ .text) {o : Object}
include hp

theorem WhileLoop.readsNumber_of_decode {l : WhileLoop}
    (read : WhileLoop.codec.decode p (Value.obj o).toTree = .ok l) :
    ReadsMaybe .lenientUInt32 p.inner (o.under ["max_iterations"]) l.maxIterations := by
  refine decode_gives (Q := fun l : WhileLoop => ReadsMaybe _ p.inner _ l.maxIterations) hp read
    fun s place => ?_
  rw [← place]
  refine .seq (.seq (.seq (.seq (.map fun _ _ _ => ?_) .any) .any) .any) maybe_gives_reads
  exact fun _ _ _ _ _ _ _ there => there

theorem ForeachLoop.readsNumber_of_decode {l : ForeachLoop}
    (read : ForeachLoop.codec.decode p (Value.obj o).toTree = .ok l) :
    ReadsMaybe .lenientUInt32 p.inner (o.under ["max_concurrency"]) l.maxConcurrency := by
  refine decode_gives (Q := fun l : ForeachLoop => ReadsMaybe _ p.inner _ l.maxConcurrency) hp read
    fun s place => ?_
  rw [← place]
  refine .seq ?_ maybe_gives_reads
  iterate 5 refine Gives.seq ?_ .any
  refine .map fun _ _ _ => ?_
  exact fun _ _ _ _ _ _ _ _ _ _ _ there => there

end

section
variable {p : Place} (hp : p.origin ≠ .text) {o o' : Object}
  (alike : o.AgreeOutside (loopFields.map Prod.fst) o')
include hp alike

/-- Where only its numbers differ, a loop is read as before but for its number. -/
theorem WhileLoop.decode_alike {l : WhileLoop} {n : Option UInt32}
    (read : WhileLoop.codec.decode p (Value.obj o).toTree = .ok l)
    (number : ReadsMaybe .lenientUInt32 p.inner (o'.under ["max_iterations"]) n) :
    WhileLoop.codec.decode p (Value.obj o').toTree = .ok { l with maxIterations := n } := by
  refine Record.decode_carried hp read fun s place _ => ?_
  rw [← place] at number
  refine .seq (.seq (.seq (.seq (.map (.kept_maybe alike (by decide)) ?_)
    (.kept_maybe alike (by decide))) (.kept_defaulted alike (by decide)))
    (.kept_maybe alike (by decide))) (.given number)
  rintro _ _ rfl _ _ rfl _ _ rfl _ _ rfl _ _ rfl rfl
  rfl

theorem ForeachLoop.decode_alike {l : ForeachLoop} {n : Option UInt32}
    (read : ForeachLoop.codec.decode p (Value.obj o).toTree = .ok l)
    (number : ReadsMaybe .lenientUInt32 p.inner (o'.under ["max_concurrency"]) n) :
    ForeachLoop.codec.decode p (Value.obj o').toTree = .ok { l with maxConcurrency := n } := by
  refine Record.decode_carried hp read fun s place _ => ?_
  rw [← place] at number
  refine .seq (.seq (.seq (.seq (.seq (.seq (.map (.kept_maybe alike (by decide)) ?_)
    (.kept_maybe alike (by decide))) (.kept_defaulted alike (by decide)))
    (.kept_maybe alike (by decide))) (.kept_maybe alike (by decide)))
    (.kept_maybe alike (by decide))) (.given number)
  rintro _ _ rfl _ _ rfl _ _ rfl _ _ rfl _ _ rfl _ _ rfl _ _ rfl rfl
  rfl

end

/-- Where the number of a loop is read as the same number, so is the loop, whatever kind it has. -/
theorem LoopBlock.ofKind_alike {kind : Value} {o o' : Object} {l : LoopBlock}
    (alike : o.AgreeOutside (loopFields.map Prod.fst) o')
    (numbers : ∀ f ∈ loopFields, ∀ n, ReadsMaybe .lenientUInt32 ⟨.setAside, 1⟩ (o.under [f.1]) n →
      ReadsMaybe .lenientUInt32 ⟨.setAside, 1⟩ (o'.under [f.1]) n)
    (h : LoopBlock.ofKind kind (.obj o) = .ok l) : LoopBlock.ofKind kind (.obj o') = .ok l := by
  cases kind with
  | str name =>
    obtain ⟨isWhile, known, h⟩ := bind_eq_ok.mp h
    refine bind_eq_ok.mpr ⟨isWhile, known, ?_⟩
    cases isWhile with
    | true =>
      obtain ⟨loop, read, rfl⟩ := map_eq_ok.mp h
      have number := numbers ("max_iterations", .uint32) (by decide) _
        (WhileLoop.readsNumber_of_decode (by decide) read)
      exact map_eq_ok.mpr ⟨loop, WhileLoop.decode_alike (by decide) alike read number, rfl⟩
    | false =>
      obtain ⟨loop, read, rfl⟩ := map_eq_ok.mp h
      have number := numbers ("max_concurrency", .uint32) (by decide) _
        (ForeachLoop.readsNumber_of_decode (by decide) read)
      exact map_eq_ok.mpr ⟨loop, ForeachLoop.decode_alike (by decide) alike read number, rfl⟩
  | null | bool _ | num _ | arr _ | obj _ => cases h

/-- The members of a loop are looked at by kind, and a loop is set aside whole before that. -/
theorem LoopBlock.decode_eq_ok {p : Place} (hp : p.origin ≠ .text) {o : Object} {l : LoopBlock}
    (canonical : (Value.obj o).canonical = .obj o) :
    LoopBlock.codec.decode p (Value.obj o).toTree = .ok l ↔
      ∃ kind, o.member? "kind" = some kind ∧
        LoopBlock.ofKind kind (.obj (o.without "kind")) = .ok l := by
  simp only [LoopBlock.codec, Decoder.setAside, value_toTree _ p hp, canonical]
  change LoopBlock.ofValue (.obj o) = .ok l ↔ _
  rw [LoopBlock.ofValue]
  cases o.member? "kind" with
  | none => simp
  | some kind => simp

theorem LoopBlock.decode_alike {p : Place} (hp : p.origin ≠ .text) {o o' : Object} {l : LoopBlock}
    (canonical : (Value.obj o).canonical = .obj o) (canonical' : (Value.obj o').canonical = .obj o')
    (alike : o.AgreeOutside (loopFields.map Prod.fst) o')
    (numbers : ∀ f ∈ loopFields, ∀ n, ReadsMaybe .lenientUInt32 ⟨.setAside, 1⟩ (o.under [f.1]) n →
      ReadsMaybe .lenientUInt32 ⟨.setAside, 1⟩ (o'.under [f.1]) n)
    (read : LoopBlock.codec.decode p (Value.obj o).toTree = .ok l) :
    LoopBlock.codec.decode p (Value.obj o').toTree = .ok l := by
  obtain ⟨kind, named, read⟩ := (decode_eq_ok hp canonical).mp read
  refine (decode_eq_ok hp canonical').mpr ⟨kind, ?_, ofKind_alike (alike.without "kind") ?_ read⟩
  · rw [alike.member?_eq (by decide), named]
  · intro f hf n number
    have other : ∀ f ∈ loopFields, f.1 ∉ ["kind"] := by decide
    rw [(Object.agreeOutside_without "kind" _).under_eq (other f hf)] at number ⊢
    exact numbers f hf n number

/-- A loop is read alike from the straightened item. -/
theorem LoopBlock.decode_coerceLoop {p : Place} (hp : p.origin ≠ .text) {v : Value} {l : LoopBlock}
    (canonical : v.canonical = v) (read : LoopBlock.codec.decode p v.toTree = .ok l)
    (path : String) :
    LoopBlock.codec.decode p (coerceLoop path v).value.toTree = .ok l := by
  cases v with
  | obj o =>
    have settled : (Value.obj (Object.rework (settleFields loopFields) o)).canonical = _ :=
      Object.canonical_rework canonical fun _ _ _ => canonical_settleFields
    rw [value_coerceLoop (Object.sorted_of_canonical canonical)]
    refine decode_alike hp canonical settled ((onlyAt_settleFields loopFields).agreeOutside o) ?_ read
    intro f hf n number
    have kinds : ∀ f ∈ loopFields, settleFields loopFields f.1 = NumericKind.uint32.settle := by
      simp only [loopFields, List.forall_mem_cons]
      exact ⟨rfl, rfl, by simp⟩
    rw [Object.under_rework, kinds f hf]
    exact readsMaybe_settle_uint32 (by decide) number
  | arr items => exact read
  | null | bool _ | num _ | str _ => cases read

/-- Items that are worked on one by one are read as what each of them is read as afterwards. -/
theorem decode_onItems {c : Codec α} {p : Place} (hp : p.origin ≠ .text) {list : String}
    {f : String → Value → Traced Value} {items : List Value} {xs : List α}
    (each : List.Forall₂ (fun u x => ∀ path, c.decode p.inner (f path u).value.toTree = .ok x)
      items xs) :
    Decoder.list c.decode p (onItems list f (.arr items)).value.toTree = .ok xs := by
  have numbered (n : Nat) : List.Forall₂ (fun u x => c.decode p.inner u.toTree = .ok x)
      ((items.zipIdx n).map fun x => (f (indexed list x.2) x.1).value) xs := by
    induction each generalizing n with
    | nil => exact .nil
    | cons here _ ih => exact .cons (here _) (ih (n + 1))
  refine (Decoder.list_eq_ok hp).mpr ⟨_, ?_, numbered 0⟩
  simp only [onItems, Traced.value_bind, Traced.value_pure, Traced.value_mapM]

theorem LoopBlock.decode_list_coerceLoop {p : Place} (hp : p.origin ≠ .text) {v : Value}
    {loops : List LoopBlock} (canonical : v.canonical = v)
    (read : Decoder.list LoopBlock.codec.decode p v.toTree = .ok loops) :
    Decoder.list LoopBlock.codec.decode p
      (onItems "flow_control.loops" coerceLoop v).value.toTree = .ok loops := by
  obtain ⟨items, rfl, each⟩ := (Decoder.list_eq_ok hp).mp read
  have both := (List.forall₂_and_left _ _).mpr ⟨fun u => Value.canonical_of_mem canonical, each⟩
  refine decode_onItems hp (both.imp fun u l item path => ?_)
  exact decode_coerceLoop (p := p.inner) hp item.1 item.2 path

theorem FlowControl.readsLoops_of_decode {p : Place} (hp : p.origin ≠ .text) {o : Object}
    {f : FlowControl} (read : FlowControl.codec.decode p (Value.obj o).toTree = .ok f) :
    ReadsDefaulted (.list LoopBlock.codec) p.inner (o.under ["loops"]) [] f.loops := by
  refine decode_gives (Q := fun f : FlowControl => ReadsDefaulted _ p.inner _ _ f.loops) hp read
    fun s place => ?_
  rw [← place]
  refine .seq (.seq (.seq (.map fun _ _ _ => ?_) .any) unlessEmpty_gives_reads) .any
  exact fun _ _ _ there _ _ => there

/-- Where only its loops differ, control flow is read as before but for its loops. -/
theorem FlowControl.decode_alike {p : Place} (hp : p.origin ≠ .text) {o o' : Object}
    {f : FlowControl} {loops : List LoopBlock} (alike : o.AgreeOutside ["loops"] o')
    (read : FlowControl.codec.decode p (Value.obj o).toTree = .ok f)
    (h : ReadsDefaulted (.list LoopBlock.codec) p.inner (o'.under ["loops"]) [] loops) :
    FlowControl.codec.decode p (Value.obj o').toTree = .ok { f with loops := loops } := by
  refine Record.decode_carried hp read fun s place _ => ?_
  rw [← place] at h
  refine .seq (.seq (.seq (.map (.kept_unlessEmpty alike (by decide)) ?_)
    (.kept_unlessEmpty alike (by decide))) (.given_unlessEmpty h))
    (.kept_unlessEmpty alike (by decide))
  rintro _ _ rfl _ _ rfl _ _ rfl _ _ rfl rfl
  rfl

/-- Control flow is read alike with straightened loops. -/
theorem FlowControl.decode_coerceLoops {p : Place} (hp : p.origin ≠ .text) {v : Value}
    {f : FlowControl} (canonical : v.canonical = v)
    (read : FlowControl.codec.decode p v.toTree = .ok f) :
    FlowControl.codec.decode p
      (onMember "loops" (onItems "flow_control.loops" coerceLoop) v).value.toTree = .ok f := by
  cases v with
  | obj o =>
    have loops := readsLoops_of_decode hp read
    rw [value_onMember (Object.sorted_of_canonical canonical)]
    have alike := (Object.onlyAt_atKey "loops" fun v =>
      some (onItems "flow_control.loops" coerceLoop v).value).agreeOutside o
    have settled := loops.filterMap (g := Object.atKey "loops" (fun v =>
      some (onItems "flow_control.loops" coerceLoop v).value) "loops") id fun v one decoded =>
        ⟨_, rfl, LoopBlock.decode_list_coerceLoop (p := p.inner) hp
          (Value.canonical_of_member? canonical (Object.member?_of_under one)) decoded⟩
    rw [← Object.under_rework] at settled
    exact decode_alike hp alike read settled
  | arr items => exact read
  | null | bool _ | num _ | str _ => cases read

/-! ### Workflows -/

/-- The items of the list under a key. -/
def Json.Value.itemsAt (v : Value) (key : String) : List Value :=
  match v.member? key with
  | some (.arr items) => items
  | _ => []

theorem Placeholder.itemsAt_apply (answers : Object) (v : Value) (key : String) :
    (apply answers v).itemsAt key = (v.itemsAt key).map (apply answers) := by
  simp only [Value.itemsAt, member?_apply]
  cases v.member? key with
  | none => rfl
  | some u =>
    cases u with
    | arr items => exact applyItems_eq_map answers items
    | null | bool _ | num _ | str _ | obj _ => rfl

namespace Workflow

/-- What the policies of the document are read from. -/
def policiesOf (doc : Value) : Value := (doc.member? "policies").getD .null

def straighten (w : Workflow) : Workflow :=
  { w with
    actions := w.actions.map Action.straighten
    policies := w.policies.map Policies.straighten }

/-- The workflow without the policies that the document it is read from has as lists. -/
def withoutLists (doc : Value) (w : Workflow) : Workflow :=
  { w with
    actions := (doc.itemsAt "actions").zipWith Action.withoutLists w.actions
    policies := w.policies.map (Policies.withoutLists (policiesOf doc)) }

/-- The document has a time that is straightened otherwise than the number is: a text of one that is clamped as
    a number, or, in policies that are a list and so are left as they are, one of more than 63 bits. -/
def hasDisputedTime (doc : Value) (w : Workflow) : Bool :=
  ((doc.itemsAt "actions").zip w.actions).any
      (fun x => spellsClampedTimes x.1 x.2.retry x.2.timeoutMs) ||
    w.policies.any fun q => spellsClampedTimes (policiesOf doc) q.retry q.timeoutMs ||
      (policiesOf doc).isList && q.hasLongTime

/-- What becomes of the members of a document. -/
def settleMember (key : String) (v : Value) : Option Value :=
  if key = "actions" then some (onItems "actions" (coercePolicySet · actionFields) v).value
  else if key = "policies" then some (coercePolicySet "policies" policiesFields v).value
  else if key = "flow_control" then
    some (onMember "loops" (onItems "flow_control.loops" coerceLoop) v).value
  else some v

theorem onlyAt_settleMember :
    Object.OnlyAt settleMember ["actions", "policies", "flow_control"] := by
  intro key out v
  simp only [List.mem_cons, List.not_mem_nil, or_false, not_or] at out
  rw [settleMember, if_neg out.1, if_neg out.2.1, if_neg out.2.2]

theorem value_coerce {o : Object} (sorted : o.Sorted) :
    (coerce (.obj o)).value = .obj (o.rework settleMember) := by
  simp only [coerce, Traced.value_bind]
  rw [value_onMember sorted, value_onMember (sorted.rework _),
    value_onMember ((sorted.rework _).rework _), Object.rework_rework, Object.rework_rework]
  congr 2
  funext key v
  by_cases actions : key = "actions"
  · subst actions; rfl
  by_cases policies : key = "policies"
  · subst policies; rfl
  by_cases flow : key = "flow_control"
  · subst flow; rfl
  simp [Object.atKey, settleMember, actions, policies, flow]

/-- What the actions and the settings of a workflow are read from. -/
structure ReadsSettings (o : Object) (actions : List Action) (flow : Option FlowControl)
    (policies : Option Policies) : Prop where
  actions : ∃ items, o.under ["actions"] = [.arr items] ∧
    List.Forall₂ (fun u a => Action.codec.decode entityPlace u.toTree = .ok a) items actions
  flow : ReadsMaybe FlowControl.codec ⟨.value, 1⟩ (o.under ["flow_control"]) flow
  policies : ReadsMaybe Policies.codec ⟨.value, 1⟩ (o.under ["policies"]) policies

theorem readsSettings_of_ofValue {o : Object} {w : Workflow} (sorted : o.Sorted)
    (read : Workflow.ofValue (.obj o) = .ok w) :
    ReadsSettings o w.actions w.flowControl w.policies := by
  obtain ⟨_, same, parts⟩ := readFrom_of_ofValue read
  cases same
  obtain ⟨items, there, actions⟩ := parts.actions
  have listed : o.under ["actions"] = [.arr items] := by
    rw [sorted.under, there]
    rfl
  obtain ⟨flow, policies⟩ : ReadsMaybe FlowControl.codec ⟨.value, 1⟩ (o.under ["flow_control"])
        w.flowControl ∧
      ReadsMaybe Policies.codec ⟨.value, 1⟩ (o.under ["policies"]) w.policies := by
    refine decode_gives (Q := fun w : Workflow =>
      ReadsMaybe FlowControl.codec ⟨.value, 1⟩ (o.under ["flow_control"]) w.flowControl ∧
        ReadsMaybe Policies.codec ⟨.value, 1⟩ (o.under ["policies"]) w.policies)
      (by decide) read fun s place => ?_
    have here : s.place = ⟨.value, 1⟩ := place
    rw [← here]
    refine .seq (.seq (.seq (.seq (.seq (.seq (.map fun _ _ _ => ?_) .any) .any) .any)
      maybe_gives_reads) maybe_gives_reads) .any
    exact fun _ _ _ _ _ _ _ flow _ policies _ _ => ⟨flow, policies⟩
  exact ⟨⟨items, listed, actions⟩, flow, policies⟩

/-- Where only its actions and settings differ, a workflow is read as before but for these. -/
theorem ofValue_alike {o o' : Object} {w : Workflow} {actions : List Action}
    {flow : Option FlowControl} {policies : Option Policies}
    (alike : o.AgreeOutside ["actions", "policies", "flow_control"] o')
    (read : Workflow.ofValue (.obj o) = .ok w) (h : ReadsSettings o' actions flow policies) :
    Workflow.ofValue (.obj o')
      = .ok { w with actions := actions, flowControl := flow, policies := policies } := by
  obtain ⟨items, listed, each⟩ := h.actions
  have run : Decoder.list Action.codec.decode ⟨.value, 1⟩ (Value.arr items).toTree = .ok actions :=
    (Decoder.list_eq_ok (by decide)).mpr ⟨items, rfl, each⟩
  have flowing := h.flow
  have limited := h.policies
  refine Record.decode_carried (by decide) read fun s place known => ?_
  have here : s.place = ⟨.value, 1⟩ := place
  rw [← here] at run flowing limited
  refine .seq (.seq (.seq (.seq (.seq (.seq (.map (.kept_field alike (by decide)) ?_)
    (.kept_field alike (by decide))) (.kept_field alike (by decide)))
    (.given_field listed run)) (.given flowing)) (.given limited))
    (.kept_rest alike (by rw [place]; decide) (by rw [known]; decide))
  rintro _ _ rfl _ _ rfl _ _ rfl _ _ rfl _ _ rfl _ _ rfl _ _ rfl rfl
  rfl

/-- Each action is read from its straightened item with straightened times. -/
theorem forall₂_decode_coercePolicySet {items : List Value} {actions : List Action}
    (canonical : (Value.arr items).canonical = .arr items)
    (read : List.Forall₂ (fun u a => Action.codec.decode entityPlace u.toTree = .ok a) items actions)
    (finite : ((items.zipWith Action.withoutLists actions).all (·.isFinite)) = true)
    (plain : ((items.zip actions).any fun x => spellsClampedTimes x.1 x.2.retry x.2.timeoutMs) = false) :
    List.Forall₂ (fun u a => ∀ path,
        Action.codec.decode entityPlace (coercePolicySet path actionFields u).value.toTree = .ok a)
      items ((items.zipWith Action.withoutLists actions).map Action.straighten) := by
  have each : ∀ u ∈ items, u.canonical = u := fun u => Value.canonical_of_mem canonical
  clear canonical
  induction read with
  | nil => exact .nil
  | @cons u a us as here _ ih =>
    simp only [List.zipWith_cons_cons, List.all_cons, Bool.and_eq_true] at finite
    simp only [List.zip_cons_cons, List.any_cons, Bool.or_eq_false_iff] at plain
    refine .cons (fun path => ?_) (ih finite.2 plain.2 fun v hv => each v (List.mem_cons_of_mem _ hv))
    exact Action.decode_coercePolicySet (by decide) (each u List.mem_cons_self) here finite.1 plain.1
      path

theorem readsFlow_settle {o : Object} (canonical : (Value.obj o).canonical = .obj o)
    {flow : Option FlowControl}
    (h : ReadsMaybe FlowControl.codec ⟨.value, 1⟩ (o.under ["flow_control"]) flow) :
    ReadsMaybe FlowControl.codec ⟨.value, 1⟩ ((o.rework settleMember).under ["flow_control"]) flow := by
  rw [Object.under_rework, ← Option.bind_fun_some flow]
  refine h.filterMap rfl fun v f one _ decoded => ?_
  have there := Object.member?_of_under one
  have again := FlowControl.decode_coerceLoops (by decide)
    (Value.canonical_of_member? canonical there) decoded
  exact .some ⟨Record.ne_null_of_decode again, again⟩

theorem readsPolicies_settle {o : Object} (canonical : (Value.obj o).canonical = .obj o)
    {policies : Option Policies}
    (h : ReadsMaybe Policies.codec ⟨.value, 1⟩ (o.under ["policies"]) policies)
    (finite : (policies.map (Policies.withoutLists (policiesOf (.obj o)))).all (·.isFinite) = true)
    (plain : (policies.any fun q => spellsClampedTimes (policiesOf (.obj o)) q.retry q.timeoutMs ||
      (policiesOf (.obj o)).isList && q.hasLongTime) = false) :
    ReadsMaybe Policies.codec ⟨.value, 1⟩ ((o.rework settleMember).under ["policies"])
      ((policies.map (Policies.withoutLists (policiesOf (.obj o)))).map Policies.straighten) := by
  rw [Object.under_rework, Option.map_map, Option.map_eq_bind]
  refine h.filterMap rfl ?_
  rintro v q one rfl decoded
  have there := Object.member?_of_under one
  have here : policiesOf (.obj o) = v := by rw [policiesOf, Value.member?, there]; rfl
  rw [here, Option.map_some, Option.all_some] at finite
  rw [here, Option.any_some, Bool.or_eq_false_iff, Bool.and_eq_false_imp] at plain
  rw [here]
  have again := Policies.decode_coercePolicySet (by decide)
    (Value.canonical_of_member? canonical there) decoded finite plain.1 plain.2 "policies"
  exact .some ⟨Record.ne_null_of_decode again, again⟩

/-- From the straightened document the workflow is read without the policies that are lists and with its
    times straightened. -/
theorem ofValue_coerce {doc : Value} {w : Workflow} (canonical : doc.canonical = doc)
    (read : Workflow.ofValue doc = .ok w) (finite : (w.withoutLists doc).isFinite = true)
    (plain : w.hasDisputedTime doc = false) :
    Workflow.ofValue (coerce doc).value = .ok (w.withoutLists doc).straighten := by
  obtain ⟨o, rfl, -⟩ := readFrom_of_ofValue read
  have sorted := Object.sorted_of_canonical canonical
  have settings := readsSettings_of_ofValue sorted read
  obtain ⟨items, one, actions⟩ := settings.actions
  have there := Object.member?_of_under one
  have listed : (Value.obj o).itemsAt "actions" = items := by
    rw [Value.itemsAt, Value.member?, there]
  rw [isFinite, Bool.and_eq_true, Bool.and_eq_true] at finite
  rw [hasDisputedTime, Bool.or_eq_false_iff] at plain
  have equipped : (Object.rework settleMember o).under ["actions"]
      = [(onItems "actions" (coercePolicySet · actionFields) (.arr items)).value] := by
    rw [Object.under_rework, one]
    rfl
  have run : Decoder.list Action.codec.decode ⟨.value, 1⟩
      (onItems "actions" (coercePolicySet · actionFields) (.arr items)).value.toTree
        = .ok (w.withoutLists (.obj o)).straighten.actions := by
    have each := forall₂_decode_coercePolicySet (Value.canonical_of_member? canonical there) actions
      (by rw [← listed]; exact finite.1.2) (by rw [← listed]; exact plain.1)
    rw [← listed] at each ⊢
    exact decode_onItems (by decide) each
  obtain ⟨straight, made, each⟩ := (Decoder.list_eq_ok (by decide)).mp run
  have settled := ofValue_alike (onlyAt_settleMember.agreeOutside o) read
    ⟨⟨straight, made ▸ equipped, each⟩, readsFlow_settle canonical settings.flow,
      readsPolicies_settle canonical settings.policies finite.2 plain.2⟩
  rw [value_coerce sorted]
  exact settled

end Workflow

end Flowgraph
