import Flowgraph.Proofs.PolicyNumbers
import Flowgraph.Proofs.Workflow.Tidy

/-! The policy numbers of workflow documents. The actions of a straightened document have times of at most 63
    bits; and a workflow with such times and finite doubles is written as a straightened document. -/

namespace Flowgraph

open Json Json.Record PolicyNumbers

/-! ### Times of at most 63 bits -/

/-- The delay has at most 63 bits. -/
def RetryPolicy.FitsInt64 (r : RetryPolicy) : Prop := (r.initialDelayMs.toNat : Int) ≤ int64Max

/-- No whole number has more than 63 bits. -/
structure Policies.FitsInt64 (p : Policies) : Prop where
  timeoutMs : ∀ t, p.timeoutMs = some t → (t.toNat : Int) ≤ int64Max
  retry : ∀ r, p.retry = some r → r.FitsInt64

/-- The same for the policies of an action. -/
structure Action.FitsInt64 (a : Action) : Prop where
  timeoutMs : ∀ t, a.timeoutMs = some t → (t.toNat : Int) ≤ int64Max
  retry : ∀ r, a.retry = some r → r.FitsInt64

/-! ### Reading -/

section
variable {name : String} {scope : Scope} {ms : Object}
  (hs : scope.shape = .named (membersToTrees ms))
include hs

/-- What is read under an optional field was there. -/
theorem maybe_gives_decoded {get : σ → Option α} {c : Codec α} :
    (maybe name get c).Gives scope fun x => ∀ a, x = some a →
      ∃ v, Object.member? ms name = some v ∧ v ≠ .null ∧
        c.decode scope.place v.toTree = .ok a := by
  rintro i x h a rfl
  rcases (read_maybe_eq_ok hs).mp h with ⟨-, absent⟩ | ⟨v, one, hv⟩
  · cases absent
  · rcases Decoder.optional_eq_ok.mp hv with ⟨-, absent⟩ | ⟨solid, b, read, same⟩
    · cases absent
    · cases same
      exact ⟨v, Object.member?_of_under one, solid, read⟩

/-- What is read under a field with a default is the default or was there. -/
theorem defaulted_gives_decoded {get : σ → α} {c : Codec α} {absent : α} :
    (defaulted name get c absent).Gives scope fun a => absent = a ∨
      ∃ v, Object.member? ms name = some v ∧ c.decode scope.place v.toTree = .ok a := by
  intro i a h
  change readField name [] c.decode (some absent) scope i = .ok a at h
  rcases (readField_eq_ok hs).mp h with ⟨-, same⟩ | ⟨v, one, read⟩
  · exact .inl (Option.some.inj same)
  · exact .inr ⟨v, Object.member?_of_under one, read⟩

end

/-- A straightened number is read as one of at most 63 bits. -/
theorem le_of_decode_lenientUInt64 {p : Place} (hp : p.origin ≠ .text) {v : Value} {n : UInt64}
    (fits : NumericKind.uint64.Fits (some v))
    (read : Codec.lenientUInt64.decode p v.toTree = .ok n) : (n.toNat : Int) ≤ int64Max := by
  by_cases null : v = .null
  · subst null
    cases read
  · obtain ⟨m, rfl, low, high⟩ := fits v rfl null
    have small : m.toNat < UInt64.size := by
      have bound : int64Max < UInt64.size := by decide
      omega
    have number : (Codec.naturalNumber? uint64Max (.int m)).map UInt64.ofNat
        = some (UInt64.ofNat m.toNat) := by
      have bound : m ≤ uint64Max := Int.le_trans high (by decide)
      simp [Codec.naturalNumber?, low, bound]
    have again : Codec.lenientUInt64.decode p (Value.num (.int m)).toTree
        = .ok (UInt64.ofNat m.toNat) := by
      simp only [Codec.lenientUInt64]
      apply Codec.lenientNumber_int hp
      exact number
    cases again.symm.trans read
    rw [UInt64.toNat_ofNat_of_lt' small]
    omega

theorem RetryPolicy.fits_of_decode {p : Place} (hp : p.origin ≠ .text) {v : Value}
    {r : RetryPolicy} (fits : (∃ ms, v = .obj ms) ∧ Settles retryFields v)
    (read : RetryPolicy.codec.decode p v.toTree = .ok r) : r.FitsInt64 := by
  obtain ⟨⟨ms, rfl⟩, settles⟩ := fits
  refine Record.decode_obj_gives (Q := RetryPolicy.FitsInt64) hp read
    (.seq ?_ (defaulted_gives_decoded rfl))
  refine .seq (.map fun _ attempts _ multiplier _ delay => ?_) .any
  rintro (rfl | ⟨v, there, decoded⟩)
  · show ((1000 : UInt64).toNat : Int) ≤ int64Max
    decide
  · refine le_of_decode_lenientUInt64 (p := p.inner) hp ?_ decoded
    rw [← there]
    exact settles ("initial_delay_ms", .uint64) (by decide)

theorem Action.fits_of_decode {p : Place} (hp : p.origin ≠ .text) {item : Value} {a : Action}
    (settles : SettlesSet actionFields item)
    (read : Action.codec.decode p item.toTree = .ok a) : a.FitsInt64 := by
  obtain ⟨ms, rfl⟩ := Record.obj_of_decode_eq_ok rfl read
  refine Record.decode_obj_gives (Q := Action.FitsInt64) hp read ?_
  iterate 7 refine Gives.seq ?_ .any
  refine .seq (.seq ?_ (maybe_gives_decoded rfl)) (maybe_gives_decoded rfl)
  iterate 4 refine Gives.seq ?_ .any
  refine .map fun _ _ _ => ?_
  intro _ _ _ _ _ _ _ _ retry readRetry timeoutMs readTimeout
  intros
  refine ⟨fun t ht => ?_, fun r hr => ?_⟩
  · obtain ⟨v, there, -, decoded⟩ := readTimeout t ht
    refine le_of_decode_lenientUInt64 (p := p.inner) hp ?_ decoded
    rw [← there]
    exact settles.plain ("timeout_ms", .uint64) (by decide)
  · obtain ⟨v, there, solid, decoded⟩ := readRetry r hr
    exact RetryPolicy.fits_of_decode (p := p.inner) hp (settles.retry v there solid) decoded

theorem exists_of_mem_forall₂ {R : α → β → Prop} {xs : List α} {ys : List β}
    (h : List.Forall₂ R xs ys) : ∀ y ∈ ys, ∃ x ∈ xs, R x y := by
  induction h with
  | nil => simp
  | cons here _ ih =>
    refine List.forall_mem_cons.mpr ⟨⟨_, List.mem_cons_self, here⟩, fun y hy => ?_⟩
    obtain ⟨x, hx, there⟩ := ih y hy
    exact ⟨x, List.mem_cons_of_mem _ hx, there⟩

/-- The actions of a straightened document have times of at most 63 bits. -/
theorem Workflow.fits_of_ofValue {doc : Value} {w : Workflow} (settled : Settled doc)
    (read : Workflow.ofValue doc = .ok w) : ∀ a ∈ w.actions, a.FitsInt64 := by
  obtain ⟨ms, rfl, parts⟩ := readFrom_of_ofValue read
  obtain ⟨items, there, actions⟩ := parts.actions
  intro a ha
  obtain ⟨item, mem, decoded⟩ := exists_of_mem_forall₂ actions a ha
  exact Action.fits_of_decode (by decide) (settled.actions items there item mem) decoded

/-! ### Writing -/

@[simp] theorem Json.Codec.canonical_encode (c : Codec α) (a : α) :
    (c.encode a).canonical = c.toValue a := rfl

namespace Json.Record

@[simp] theorem write_map (f : α → β) (r : Record σ α) (s : σ) : (f <$> r).write s = r.write s := rfl

@[simp] theorem write_seq (r : Record σ (α → β)) (q : Record σ α) (s : σ) :
    (r <*> q).write s = r.write s ++ q.write s := rfl

@[simp] theorem last?_write_field (name : String) (get : σ → α) (c : Codec α) (s : σ)
    (key : String) : Object.last? ((field name get c).write s) key
      = if key = name then some (c.encode (get s)) else none :=
  Object.last?_singleton ..

@[simp] theorem last?_write_defaulted (name : String) (get : σ → α) (c : Codec α) (absent : α)
    (s : σ) (key : String) : Object.last? ((defaulted name get c absent).write s) key
      = if key = name then some (c.encode (get s)) else none :=
  Object.last?_singleton ..

@[simp] theorem last?_write_maybe (name : String) (get : σ → Option α) (c : Codec α) (s : σ)
    (key : String) : Object.last? ((maybe name get c).write s) key
      = if key = name then (get s).map c.encode else none := by
  cases there : get s with
  | none => simp [maybe, there, Object.last?, Object.member?]
  | some a => simp [maybe, there, Object.last?_singleton]

@[simp] theorem last?_write_unlessEmpty (name : String) (get : σ → List α) (c : Codec α) (s : σ)
    (key : String) : Object.last? ((unlessEmpty name get c).write s) key
      = if key = name ∧ get s ≠ [] then some ((Codec.list c).encode (get s)) else none := by
  cases there : get s with
  | nil => simp [unlessEmpty, there, Object.last?, Object.member?]
  | cons a as => simp [unlessEmpty, there, Object.last?_singleton]

theorem last?_write_rest {get : σ → Object} {s : σ} {names : List String}
    (free : (get s).FreeOf names) (key : String) (known : key ∈ names) :
    Object.last? ((rest get).write s) key = none :=
  Object.last?_eq_none fun m hm same => free m hm (same ▸ known)

/-- What a written record has under a key. -/
@[simp] theorem member?_toValue (name : String) (r : Record α α) (a : α) (key : String) :
    ((Record.codec name r).toValue a).member? key
      = (Object.last? (r.write a) key).map Value.canonical :=
  Object.member?_canonical ..

end Json.Record

namespace PolicyNumbers

namespace NumericKind

theorem fits_of_some {kind : NumericKind} {o : Option Value} {v : Value} (written : o = some v)
    (h : kind.Holds v) : kind.Fits o := by
  subst written
  rintro _ ⟨⟩ -
  exact h

theorem fits_of_map {kind : NumericKind} {o : Option Value} {x : Option α} {f : α → Value}
    (written : o = x.map f) (h : ∀ a, x = some a → kind.Holds (f a)) : kind.Fits o := by
  subst written
  rintro v same -
  obtain ⟨a, there, rfl⟩ := Option.map_eq_some_iff.mp same
  exact h a there

theorem fits_of_none {kind : NumericKind} {o : Option Value} (written : o = none) :
    kind.Fits o := written ▸ fits_none kind

end NumericKind

theorem holds_uint32 (n : UInt32) : NumericKind.uint32.Holds (Codec.lenientUInt32.toValue n) :=
  ⟨n.toNat, rfl, Int.natCast_nonneg _, Int.ofNat_le.mpr (Nat.le_of_lt_succ n.toNat_lt)⟩

theorem holds_uint64 {n : UInt64} (fits : (n.toNat : Int) ≤ int64Max) :
    NumericKind.uint64.Holds (Codec.lenientUInt64.toValue n) :=
  ⟨n.toNat, rfl, Int.natCast_nonneg _, fits⟩

theorem holds_double {x : Double} (finite : x.isFinite = true) :
    NumericKind.double.Holds (Codec.lenientDouble.toValue x) := by
  refine ⟨x, ?_, finite⟩
  simp [Codec.toValue, Codec.lenientDouble, Value.float, finite, Value.canonical]

theorem objectFits_of_map {fields : List NumericField} {o : Option Value} {x : Option α}
    {f : α → Value} (written : o = x.map f) (isObject : ∀ a, ∃ ms, f a = .obj ms)
    (h : ∀ a, x = some a → Settles fields (f a)) : ObjectFits fields o := by
  subst written
  rintro v same -
  obtain ⟨a, there, rfl⟩ := Option.map_eq_some_iff.mp same
  exact ⟨isObject a, h a there⟩

end PolicyNumbers

theorem RetryPolicy.settles_toValue {r : RetryPolicy} (finite : r.isFinite = true)
    (fits : r.FitsInt64) : Settles retryFields (RetryPolicy.codec.toValue r) := by
  intro f hf
  simp only [retryFields, List.mem_cons, List.not_mem_nil, or_false] at hf
  rcases hf with rfl | rfl | rfl
  · refine NumericKind.fits_of_some ?_ (holds_uint32 r.maxAttempts)
    simp [RetryPolicy.codec, Object.last?_append]
  · refine NumericKind.fits_of_some ?_ (holds_double finite)
    simp [RetryPolicy.codec, Object.last?_append]
  · refine NumericKind.fits_of_some ?_ (holds_uint64 fits)
    simp [RetryPolicy.codec, Object.last?_append]

theorem RateLimit.settles_toValue (r : RateLimit) :
    Settles rateLimitFields (RateLimit.codec.toValue r) := by
  intro f hf
  obtain rfl := List.mem_singleton.mp hf
  refine NumericKind.fits_of_some ?_ (holds_uint32 r.requestsPerMinute)
  simp [RateLimit.codec]

theorem Policies.settles_toValue {p : Policies} (finite : p.isFinite = true) (fits : p.FitsInt64) :
    SettlesSet policiesFields (Policies.codec.toValue p) where
  plain f hf := by
    simp only [policiesFields, List.mem_cons, List.not_mem_nil, or_false] at hf
    rcases hf with rfl | rfl
    · refine NumericKind.fits_of_map ?_ fun t ht => holds_uint64 (fits.timeoutMs t ht)
      simp [Policies.codec, Object.last?_append, Function.comp_def]
    · refine NumericKind.fits_of_map (x := p.maxParallelism) ?_ fun n _ => holds_uint32 n
      simp [Policies.codec, Object.last?_append, Function.comp_def]
  retry := by
    refine objectFits_of_map (f := RetryPolicy.codec.toValue) ?_ (fun _ => ⟨_, rfl⟩) fun r hr =>
      RetryPolicy.settles_toValue (by simpa [isFinite, hr] using finite) (fits.retry r hr)
    simp [Policies.codec, Object.last?_append, Function.comp_def]
  rateLimit := by
    refine objectFits_of_map (x := p.rateLimit) (f := RateLimit.codec.toValue) ?_
      (fun _ => ⟨_, rfl⟩) fun r _ => r.settles_toValue
    simp [Policies.codec, Object.last?_append, Function.comp_def]

theorem Action.settles_toValue {a : Action} (free : a.extra.FreeOf fieldNames)
    (finite : a.isFinite = true) (fits : a.FitsInt64) :
    SettlesSet actionFields (Action.codec.toValue a) where
  plain f hf := by
    obtain rfl := List.mem_singleton.mp hf
    refine NumericKind.fits_of_map ?_ fun t ht => holds_uint64 (fits.timeoutMs t ht)
    have other := last?_write_rest free "timeout_ms" (by decide)
    simp [Action.codec, Object.last?_append, Function.comp_def, other]
  retry := by
    rw [isFinite, Bool.and_eq_true] at finite
    refine objectFits_of_map (f := RetryPolicy.codec.toValue) ?_ (fun _ => ⟨_, rfl⟩) fun r hr =>
      RetryPolicy.settles_toValue (by simpa [hr] using finite.1) (fits.retry r hr)
    have other := last?_write_rest free "retry" (by decide)
    simp [Action.codec, Object.last?_append, Function.comp_def, other]
  rateLimit := by
    refine objectFits_of_map (x := a.rateLimit) (f := RateLimit.codec.toValue) ?_
      (fun _ => ⟨_, rfl⟩) fun r _ => r.settles_toValue
    have other := last?_write_rest free "rate_limit" (by decide)
    simp [Action.codec, Object.last?_append, Function.comp_def, other]

/-- The kind in front of a loop does not get in the way of its numbers. -/
theorem member?_withKind {ms : Object} {kind key : String} (other : key ≠ "kind") :
    (withKind kind (.obj ms)).canonical.member? key = (Object.last? ms key).map Value.canonical := by
  refine (Object.member?_canonical ..).trans ?_
  rw [Object.last?_cons, if_neg other, Option.or_none]

/-- Each kind of loop has one of the two numbers. -/
theorem LoopBlock.settles_toValue (l : LoopBlock) :
    Settles loopFields (LoopBlock.codec.toValue l) := by
  intro f hf
  simp only [loopFields, List.mem_cons, List.not_mem_nil, or_false] at hf
  cases l with
  | whileLoop l =>
    rcases hf with rfl | rfl
    · refine NumericKind.fits_of_map (x := l.maxIterations) ?_ fun n _ => holds_uint32 n
      refine (member?_withKind (by decide)).trans ?_
      simp [Object.last?_append, Function.comp_def]
    · refine NumericKind.fits_of_none ((member?_withKind (by decide)).trans ?_)
      simp [Object.last?_append]
  | foreachLoop l =>
    rcases hf with rfl | rfl
    · refine NumericKind.fits_of_none ((member?_withKind (by decide)).trans ?_)
      simp [Object.last?_append]
    · refine NumericKind.fits_of_map (x := l.maxConcurrency) ?_ fun n _ => holds_uint32 n
      refine (member?_withKind (by decide)).trans ?_
      simp [Object.last?_append, Function.comp_def]

theorem Json.Codec.toValue_list (c : Codec α) (xs : List α) :
    (Codec.list c).toValue xs = .arr (xs.map c.toValue) := by
  rw [Codec.toValue, Codec.list, Value.canonical, Value.canonicalItems_eq_map, List.map_map]
  rfl

theorem FlowControl.member?_loops (f : FlowControl) :
    (FlowControl.codec.toValue f).member? "loops"
      = if f.loops ≠ [] then some (.arr (f.loops.map LoopBlock.codec.toValue)) else none := by
  by_cases empty : f.loops = [] <;>
    simp [FlowControl.codec, Object.last?_append, empty, Codec.toValue_list]

namespace Workflow

section
variable {w : Workflow} (tidy : w.Tidy)
include tidy

theorem member?_triggers :
    w.toValue.member? "triggers" = some (.arr (w.triggers.map Trigger.codec.toValue)) := by
  have other := last?_write_rest tidy.extra "triggers" (by decide)
  simp [toValue, Workflow.codec, Object.last?_append, other, Codec.toValue_list]

theorem member?_actions :
    w.toValue.member? "actions" = some (.arr (w.actions.map Action.codec.toValue)) := by
  have other := last?_write_rest tidy.extra "actions" (by decide)
  simp [toValue, Workflow.codec, Object.last?_append, other, Codec.toValue_list]

theorem member?_policies :
    w.toValue.member? "policies" = w.policies.map Policies.codec.toValue := by
  have other := last?_write_rest tidy.extra "policies" (by decide)
  simp [toValue, Workflow.codec, Object.last?_append, other, Function.comp_def]

theorem member?_flowControl :
    w.toValue.member? "flow_control" = w.flowControl.map FlowControl.codec.toValue := by
  have other := last?_write_rest tidy.extra "flow_control" (by decide)
  simp [toValue, Workflow.codec, Object.last?_append, other, Function.comp_def]

end

/-- A workflow is written as a straightened document. -/
theorem settled_toValue {w : Workflow} (tidy : w.Tidy) (finite : w.isFinite = true)
    (actions : ∀ a ∈ w.actions, a.FitsInt64) (policies : ∀ p, w.policies = some p → p.FitsInt64) :
    Settled w.toValue := by
  rw [isFinite, Bool.and_eq_true, Bool.and_eq_true] at finite
  refine ⟨fun items there item mem => ?_, fun p there => ?_, fun f items there loops l mem => ?_⟩
  · rw [member?_actions tidy] at there
    cases there
    obtain ⟨a, ha, rfl⟩ := List.mem_map.mp mem
    exact a.settles_toValue (tidy.actions a ha) (List.all_eq_true.mp finite.1.2 a ha) (actions a ha)
  · rw [member?_policies tidy] at there
    obtain ⟨p, hp, rfl⟩ := Option.map_eq_some_iff.mp there
    exact p.settles_toValue (by simpa [hp] using finite.2) (policies p hp)
  · rw [member?_flowControl tidy] at there
    obtain ⟨f, hf, rfl⟩ := Option.map_eq_some_iff.mp there
    rw [FlowControl.member?_loops] at loops
    obtain ⟨-, same⟩ := Option.ite_none_right_eq_some.mp loops
    cases same
    obtain ⟨l, -, rfl⟩ := List.mem_map.mp mem
    exact l.settles_toValue

end Workflow

end Flowgraph
