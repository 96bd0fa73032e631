import Flowgraph.Proofs.Workflow.Straightening

/-! Which straightened numbers can be read. A number of its kind can, and so can `null` where the number is
    optional. Inside of a retry policy or a rate limit a number may be left out, but not be `null`: such a
    policy is straightened without complaint, and then not read. -/

namespace Flowgraph

open Json Json.Record PolicyNumbers

/-! ### Numbers -/

/-- The codec reads every number of the kind, and does not read `null`. -/
structure Json.Codec.ReadsKind (c : Codec α) (kind : NumericKind) (p : Place) : Prop where
  holds : ∀ v, kind.Holds v → ∃ a, c.decode p v.toTree = .ok a
  null : ∀ a, c.decode p Value.null.toTree ≠ .ok a

section
variable {p : Place} (hp : p.origin ≠ .text)
include hp

theorem readsKind_uint32 : Codec.lenientUInt32.ReadsKind .uint32 p := by
  refine ⟨?_, nofun⟩
  rintro _ ⟨n, rfl, low, high⟩
  have small : n.toNat < UInt32.size := by
    have bound : uint32Max < UInt32.size := by decide
    omega
  have written : Codec.lenientUInt32.toValue (UInt32.ofNat n.toNat) = .num (.int n) := by
    change Value.num (.int (UInt32.ofNat n.toNat).toNat) = _
    rw [UInt32.toNat_ofNat_of_lt' small, Int.toNat_of_nonneg low]
  exact ⟨_, written ▸ decode_toValue_uint32 hp _⟩

theorem readsKind_uint64 : Codec.lenientUInt64.ReadsKind .uint64 p := by
  refine ⟨?_, nofun⟩
  rintro _ ⟨n, rfl, low, high⟩
  have small : n.toNat < UInt64.size := by
    have bound : int64Max < UInt64.size := by decide
    omega
  have written : Codec.lenientUInt64.toValue (UInt64.ofNat n.toNat) = .num (.int n) := by
    change Value.num (.int (UInt64.ofNat n.toNat).toNat) = _
    rw [UInt64.toNat_ofNat_of_lt' small, Int.toNat_of_nonneg low]
  exact ⟨_, written ▸ decode_toValue_uint64 hp _⟩

theorem readsKind_double : Codec.lenientDouble.ReadsKind .double p := by
  refine ⟨?_, nofun⟩
  rintro _ ⟨x, rfl, finite⟩
  have written : Codec.lenientDouble.toValue x = .num (.float x) := by
    simp [Codec.toValue, Codec.lenientDouble, Value.float, finite, Value.canonical]
  exact ⟨_, written ▸ decode_toValue_double hp finite⟩

end

namespace Json.Codec.ReadsKind

variable {c : Codec α} {kind : NumericKind} {p : Place} {o : Object} {name : String}

/-- An optional number is read, whether it is a number, `null` or absent. -/
theorem exists_readsMaybe (reads : c.ReadsKind kind p) (sorted : o.Sorted)
    (fits : kind.Fits (o.member? name)) : ∃ x, ReadsMaybe c p (o.under [name]) x := by
  rw [sorted.under]
  cases there : o.member? name with
  | none => exact ⟨none, .inl ⟨rfl, rfl⟩⟩
  | some v =>
    by_cases null : v = .null
    · exact ⟨none, .inr ⟨v, rfl, Decoder.optional_eq_ok.mpr (.inl ⟨null, rfl⟩)⟩⟩
    · obtain ⟨a, read⟩ := reads.holds v (fits v there null)
      exact ⟨some a, .inr ⟨v, rfl, Decoder.optional_eq_ok.mpr (.inr ⟨null, a, read, rfl⟩)⟩⟩

/-- A number with a default is read unless it is `null`. -/
theorem exists_readsDefaulted (reads : c.ReadsKind kind p) (sorted : o.Sorted)
    (fits : kind.Fits (o.member? name)) (absent : α) :
    (∃ x, ReadsDefaulted c p (o.under [name]) absent x) ↔ o.member? name ≠ some .null := by
  rw [sorted.under]
  cases there : o.member? name with
  | none => exact iff_of_true ⟨absent, .inl ⟨rfl, rfl⟩⟩ nofun
  | some v =>
    constructor
    · rintro ⟨x, ⟨other, -⟩ | ⟨u, same, read⟩⟩ null
      · cases other
      · cases same
        cases null
        exact reads.null x read
    · intro solid
      obtain ⟨a, read⟩ := reads.holds v (fits v there fun null => solid (congrArg some null))
      exact ⟨a, .inr ⟨v, rfl, read⟩⟩

end Json.Codec.ReadsKind

/-! ### Policies that are objects -/

section
variable {p : Place} (hp : p.origin ≠ .text) {o : Object} (sorted : o.Sorted)
include hp sorted

theorem RetryPolicy.exists_decode (settles : Settles retryFields (.obj o)) :
    (∃ r, RetryPolicy.codec.decode p (Value.obj o).toTree = .ok r) ↔
      ∀ f ∈ retryFields, o.member? f.1 ≠ some .null := by
  have inside : p.inner.origin ≠ .text := hp
  have first := (readsKind_uint32 inside).exists_readsDefaulted sorted
    (settles ("max_attempts", .uint32) (by decide)) builtin.maxAttempts
  have second := (readsKind_double inside).exists_readsDefaulted sorted
    (settles ("backoff_multiplier", .double) (by decide)) builtin.backoffMultiplier
  have third := (readsKind_uint64 inside).exists_readsDefaulted sorted
    (settles ("initial_delay_ms", .uint64) (by decide)) builtin.initialDelayMs
  simp only [decode_eq_ok hp, retryFields, List.forall_mem_cons, List.not_mem_nil, false_implies,
    implies_true, and_true]
  constructor
  · rintro ⟨r, parts⟩
    exact ⟨first.mp ⟨_, parts.maxAttempts⟩, second.mp ⟨_, parts.backoffMultiplier⟩,
      third.mp ⟨_, parts.initialDelayMs⟩⟩
  · rintro ⟨attempts, multiplier, delay⟩
    obtain ⟨x, hx⟩ := first.mpr attempts
    obtain ⟨y, hy⟩ := second.mpr multiplier
    obtain ⟨z, hz⟩ := third.mpr delay
    exact ⟨⟨x, y, z⟩, hx, hy, hz⟩

theorem RateLimit.exists_decode (settles : Settles rateLimitFields (.obj o)) :
    (∃ l, RateLimit.codec.decode p (Value.obj o).toTree = .ok l) ↔
      ∀ f ∈ rateLimitFields, o.member? f.1 ≠ some .null := by
  have inside : p.inner.origin ≠ .text := hp
  have rate := (readsKind_uint32 inside).exists_readsDefaulted sorted
    (settles ("requests_per_minute", .uint32) (by decide)) builtin.requestsPerMinute
  simp only [decode_eq_ok hp, rateLimitFields, List.forall_mem_cons, List.not_mem_nil,
    false_implies, implies_true, and_true]
  constructor
  · rintro ⟨l, read⟩
    exact rate.mp ⟨_, read⟩
  · intro solid
    obtain ⟨x, hx⟩ := rate.mpr solid
    exact ⟨⟨x⟩, hx⟩

end

/-- One of the numbers of the policy is `null`. -/
def hasNull (fields : List NumericField) (v : Value) : Bool :=
  fields.any fun f => (v.member? f.1).any Value.isNull

theorem hasNull_eq_false {fields : List NumericField} {v : Value} :
    hasNull fields v = false ↔ ∀ f ∈ fields, v.member? f.1 ≠ some .null := by
  rw [hasNull, List.any_eq_false]
  refine forall₂_congr fun f _ => ?_
  cases v.member? f.1 with
  | none => simp
  | some v => simp [Value.isNull_eq_false]

/-- A policy that is an object can be read unless one of its numbers is `null`. -/
theorem exists_readsMaybe_object {c : Codec α} {fields : List NumericField} {p : Place} {o : Object}
    {name : String} (canonical : (Value.obj o).canonical = .obj o)
    (fits : ObjectFits fields (o.member? name))
    (each : ∀ q : Object, q.Sorted → Settles fields (.obj q) →
      ((∃ a, c.decode p (Value.obj q).toTree = .ok a) ↔ ∀ f ∈ fields, q.member? f.1 ≠ some .null)) :
    (∃ x, ReadsMaybe c p (o.under [name]) x) ↔ (o.member? name).any (hasNull fields) = false := by
  rw [(Object.sorted_of_canonical canonical).under]
  cases there : o.member? name with
  | none => exact iff_of_true ⟨none, .inl ⟨rfl, rfl⟩⟩ rfl
  | some v =>
    by_cases null : v = .null
    · subst null
      refine iff_of_true ⟨none, .inr ⟨.null, rfl, Decoder.optional_eq_ok.mpr (.inl ⟨rfl, rfl⟩)⟩⟩ ?_
      simp [hasNull, Value.member?]
    · obtain ⟨⟨q, rfl⟩, settles⟩ := fits v there null
      have inside := Object.sorted_of_canonical (Value.canonical_of_member? canonical there)
      rw [Option.any_some, hasNull_eq_false]
      refine Iff.trans ?_ (each q inside settles)
      constructor
      · rintro ⟨x, ⟨other, -⟩ | ⟨u, same, read⟩⟩
        · cases other
        · cases same
          rcases Decoder.optional_eq_ok.mp read with ⟨other, -⟩ | ⟨-, a, decoded, -⟩
          · cases other
          · exact ⟨a, decoded⟩
      · rintro ⟨a, decoded⟩
        exact ⟨some a, .inr ⟨_, rfl, Decoder.optional_eq_ok.mpr (.inr ⟨null, a, decoded, rfl⟩)⟩⟩

/-! ### Sets of policies -/

/-- A number of the retry policy or of the rate limit is `null`. -/
def hasNullWithin (v : Value) : Bool :=
  (v.member? "retry").any (hasNull retryFields) ||
    (v.member? "rate_limit").any (hasNull rateLimitFields)

/-- A straightened set of policies can be read unless a number within them is `null`. -/
theorem exists_readsPolicies {p : Place} (hp : p.origin ≠ .text) {o : Object}
    (canonical : (Value.obj o).canonical = .obj o) {fields : List NumericField}
    (timed : ("timeout_ms", .uint64) ∈ fields) (settles : SettlesSet fields (.obj o)) :
    (∃ retry timeoutMs limit, ReadsPolicies p o retry timeoutMs limit) ↔
      hasNullWithin (.obj o) = false := by
  have retries := exists_readsMaybe_object canonical settles.retry fun q sorted settles =>
    RetryPolicy.exists_decode hp sorted settles
  have limits := exists_readsMaybe_object canonical settles.rateLimit fun q sorted settles =>
    RateLimit.exists_decode hp sorted settles
  obtain ⟨timeoutMs, time⟩ := (readsKind_uint64 hp).exists_readsMaybe
    (Object.sorted_of_canonical canonical) (settles.plain _ timed)
  rw [hasNullWithin, Bool.or_eq_false_iff, Value.member?, Value.member?, ← retries, ← limits]
  constructor
  · rintro ⟨retry, time, limit, reads⟩
    exact ⟨⟨retry, reads.retry⟩, ⟨limit, reads.rateLimit⟩⟩
  · rintro ⟨⟨retry, first⟩, ⟨limit, third⟩⟩
    exact ⟨retry, timeoutMs, limit, first, time, third⟩

/-! ### Before and after straightening -/

namespace PolicyNumbers

/-- What becomes of a number is `null` just if it was. -/
theorem NumericKind.any_isNull_settle (kind : NumericKind) (v : Value) :
    (kind.settle v).any Value.isNull = v.isNull := by
  cases null : v.isNull with
  | true => simp [settle, null]
  | false =>
    rw [settle, null]
    cases coerced : kind.coerce v with
    | error e => rfl
    | ok w =>
      have holds := holds_of_coerce coerced
      cases kind with
      | uint32 | uint64 => obtain ⟨n, rfl, -⟩ := holds; rfl
      | double => obtain ⟨x, rfl, -⟩ := holds; rfl

theorem any_isNull_settleFields (fields : List NumericField) (key : String) (v : Value) :
    (settleFields fields key v).any Value.isNull = v.isNull := by
  rw [settleFields]
  split
  · exact NumericKind.any_isNull_settle _ v
  · rfl

end PolicyNumbers

/-- Every number of the policy can be made one or is `null`, and one of them is `null`. -/
def leavesNull (fields : List NumericField) : Value → Bool
  | .obj o => settlesAll fields o && hasNull fields (.obj o)
  | .null | .bool _ | .num _ | .str _ | .arr _ => false

theorem any_hasNull_settleObject {fields : List NumericField} {v : Value}
    (canonical : v.canonical = v) :
    (settleObject fields v).any (hasNull fields) = leavesNull fields v := by
  cases v with
  | obj o =>
    have sorted := Object.sorted_of_canonical canonical
    have same : hasNull fields (.obj (Object.rework (settleFields fields) o))
        = hasNull fields (.obj o) := by
      simp only [hasNull, Value.member?, sorted.member?_rework]
      congr 1
      funext f
      cases Object.member? o f.1 with
      | none => rfl
      | some u => exact any_isNull_settleFields fields f.1 u
    rw [settleObject, leavesNull]
    cases settlesAll fields o with
    | true => simp [same]
    | false => rfl
  | null => simp [settleObject, leavesNull, hasNull, Value.member?]
  | bool _ | num _ | str _ | arr _ => rfl

/-- The retry policy or the rate limit of the set passes with a number that is `null`. -/
def leavesNullWithin (v : Value) : Bool :=
  (v.member? "retry").any (leavesNull retryFields) ||
    (v.member? "rate_limit").any (leavesNull rateLimitFields)

theorem hasNullWithin_rework {o : Object} (canonical : (Value.obj o).canonical = .obj o)
    (fields : List NumericField) :
    hasNullWithin (.obj (o.rework (settleSet fields))) = leavesNullWithin (.obj o) := by
  have sorted := Object.sorted_of_canonical canonical
  have policy {name : String} {inner : List NumericField}
      (settles : settleSet fields name = settleObject inner) :
      ((o.rework (settleSet fields)).member? name).any (hasNull inner)
        = (o.member? name).any (leavesNull inner) := by
    rw [sorted.member?_rework, settles]
    cases there : o.member? name with
    | none => rfl
    | some v => exact any_hasNull_settleObject (Value.canonical_of_member? canonical there)
  rw [hasNullWithin, leavesNullWithin]
  exact congrArg₂ _ (policy rfl) (policy rfl)

/-! ### Loops -/

/-- The key of the number that a loop of the kind has. -/
def LoopBlock.countKey (kind : Value) : String :=
  if kind = .str "while" then "max_iterations" else "max_concurrency"

theorem LoopBlock.countKey_mem (kind : Value) : countKey kind ∈ loopFields.map Prod.fst := by
  rw [countKey]
  split <;> decide

theorem LoopBlock.isWhile_iff {name : String} {isWhile : Bool}
    (known : Decoder.variantName [("while", true), ("foreach", false)] none name = .ok isWhile) :
    isWhile = true ↔ name = "while" := by
  simp only [Decoder.variantName, List.lookup_cons, List.lookup_nil] at known
  by_cases same : name = "while"
  · subst same
    cases known
    simp
  · rw [beq_false_of_ne same] at known
    cases other : name == "foreach" with
    | true =>
      rw [other] at known
      cases known
      simp [same]
    | false =>
      rw [other] at known
      cases known

/-- Where only its numbers differ, a loop is read again just if the number of its kind is. -/
theorem LoopBlock.exists_ofKind {kind : Value} {o o' : Object} {l : LoopBlock}
    (alike : o.AgreeOutside (loopFields.map Prod.fst) o')
    (h : LoopBlock.ofKind kind (.obj o) = .ok l) :
    (∃ l', LoopBlock.ofKind kind (.obj o') = .ok l') ↔
      ∃ n, ReadsMaybe .lenientUInt32 ⟨.setAside, 1⟩ (o'.under [countKey kind]) n := by
  cases kind with
  | str name =>
    obtain ⟨isWhile, known, h⟩ := bind_eq_ok.mp h
    have read (l' : LoopBlock) : ofKind (.str name) (.obj o') = .ok l' ↔
        (if isWhile then (Decoder.ofSetAside WhileLoop.codec.decode (.obj o')).map .whileLoop
          else (Decoder.ofSetAside ForeachLoop.codec.decode (.obj o')).map .foreachLoop) = .ok l' := by
      rw [ofKind, known]
      rfl
    have named := isWhile_iff known
    simp only [read, countKey, Value.str.injEq]
    cases isWhile with
    | true =>
      obtain ⟨loop, decoded, rfl⟩ := map_eq_ok.mp h
      rw [if_pos (named.mp rfl)]
      constructor
      · rintro ⟨_, again⟩
        obtain ⟨loop', decoded', rfl⟩ := map_eq_ok.mp again
        exact ⟨_, WhileLoop.readsNumber_of_decode (by decide) decoded'⟩
      · rintro ⟨n, number⟩
        exact ⟨_, map_eq_ok.mpr ⟨_, WhileLoop.decode_alike (by decide) alike decoded number, rfl⟩⟩
    | false =>
      obtain ⟨loop, decoded, rfl⟩ := map_eq_ok.mp h
      rw [if_neg fun same => Bool.false_ne_true (named.mpr same)]
      constructor
      · rintro ⟨_, again⟩
        obtain ⟨loop', decoded', rfl⟩ := map_eq_ok.mp again
        exact ⟨_, ForeachLoop.readsNumber_of_decode (by decide) decoded'⟩
      · rintro ⟨n, number⟩
        exact ⟨_, map_eq_ok.mpr ⟨_, ForeachLoop.decode_alike (by decide) alike decoded number, rfl⟩⟩
  | null | bool _ | num _ | arr _ | obj _ => cases h

/-- The number of its kind in a loop. -/
def LoopBlock.count? (v : Value) : Option Value :=
  (v.member? "kind").bind fun kind => v.member? (countKey kind)

section
variable {p : Place} (hp : p.origin ≠ .text) {o o' : Object} {l : LoopBlock}
  (canonical : (Value.obj o).canonical = .obj o) (canonical' : (Value.obj o').canonical = .obj o')
  (alike : o.AgreeOutside (loopFields.map Prod.fst) o')
  (read : LoopBlock.codec.decode p (Value.obj o).toTree = .ok l)
include hp canonical canonical' alike read

theorem LoopBlock.exists_decode_iff :
    (∃ l', LoopBlock.codec.decode p (Value.obj o').toTree = .ok l') ↔
      ∃ n, ReadsMaybe .lenientUInt32 ⟨.setAside, 1⟩ (count? (.obj o')).toList n := by
  obtain ⟨kind, named, read⟩ := (decode_eq_ok hp canonical).mp read
  have named' : o'.member? "kind" = some kind := by rw [alike.member?_eq (by decide), named]
  have whole (l' : LoopBlock) : LoopBlock.codec.decode p (Value.obj o').toTree = .ok l' ↔
      ofKind kind (.obj (o'.without "kind")) = .ok l' := by
    rw [decode_eq_ok hp canonical', named']
    simp
  have other : countKey kind ∉ ["kind"] := by
    rw [countKey]
    split <;> decide
  have here : (o'.without "kind").under [countKey kind] = (count? (.obj o')).toList := by
    rw [(Object.agreeOutside_without "kind" o').under_eq other,
      (Object.sorted_of_canonical canonical').under, count?, Value.member?, named']
    rfl
  simp only [whole]
  rw [exists_ofKind (alike.without "kind") read, here]

/-- A loop whose numbers are straightened is read, whatever its numbers were before. -/
theorem LoopBlock.exists_decode (settles : Settles loopFields (.obj o')) :
    ∃ l', LoopBlock.codec.decode p (Value.obj o').toTree = .ok l' := by
  refine (exists_decode_iff hp canonical canonical' alike read).mpr ?_
  rw [count?, Value.member?]
  cases o'.member? "kind" with
  | none => exact ⟨none, .inl ⟨rfl, rfl⟩⟩
  | some kind =>
    have small : ∀ f ∈ loopFields, f.2 = .uint32 := by decide
    obtain ⟨f, hf, same⟩ := List.mem_map.mp (countKey_mem kind)
    rw [Option.bind_some, ← same, Value.member?, ← (Object.sorted_of_canonical canonical').under]
    exact (readsKind_uint32 (by decide)).exists_readsMaybe (Object.sorted_of_canonical canonical')
      (small f hf ▸ settles f hf)

end

/-- What can be read as a number of 32 bits; `null` is read as none. -/
def Json.Value.isCount : Value → Bool
  | .null => true
  | .num n => (Codec.naturalNumber? uint32Max n).isSome
  | .str s => (Numeral.natural uint32Max (Text.trimChars s.toList)).toOption.isSome
  | .bool _ | .arr _ | .obj _ => false

theorem exists_readsMaybe_count {p : Place} (hp : p.origin ≠ .text) {v? : Option Value} :
    (∃ n, ReadsMaybe .lenientUInt32 p v?.toList n) ↔ v?.all Value.isCount = true := by
  cases v? with
  | none => exact iff_of_true ⟨none, .inl ⟨rfl, rfl⟩⟩ rfl
  | some v =>
    have one : (∃ n, ReadsMaybe .lenientUInt32 p (some v).toList n) ↔
        v = .null ∨ ∃ n, Codec.lenientUInt32.decode p v.toTree = .ok n := by
      constructor
      · rintro ⟨n, ⟨other, -⟩ | ⟨u, same, read⟩⟩
        · cases other
        · cases same
          exact (Decoder.optional_eq_ok.mp read).imp And.left fun there => there.2.imp fun _ => And.left
      · intro either
        by_cases null : v = .null
        · exact ⟨none, .inr ⟨v, rfl, Decoder.optional_eq_ok.mpr (.inl ⟨null, rfl⟩)⟩⟩
        · obtain ⟨n, read⟩ := either.resolve_left null
          exact ⟨some n, .inr ⟨v, rfl, Decoder.optional_eq_ok.mpr (.inr ⟨null, n, read, rfl⟩)⟩⟩
    rw [one, Option.all_some]
    simp only [Codec.lenientUInt32, Codec.lenientNumber_eq_ok hp]
    cases v with
    | null => simp [Value.isCount]
    | num n => simp [Value.isCount, Option.isSome_iff_exists]
    | str s =>
      cases made : Numeral.natural uint32Max (Text.trimChars s.toList) <;>
        simp [Value.isCount, made, Except.map, Except.toOption]
    | bool _ | arr _ | obj _ => simp [Value.isCount]

end Flowgraph
