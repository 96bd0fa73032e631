import Flowgraph.Proofs.Coercion
import Flowgraph.Proofs.Numeral
import Flowgraph.Proofs.Straightening
import Flowgraph.Proofs.Workflow.PolicyNumbers

/-! What is read of numbers and policies once they are straightened. A number is read alike before and
    after, however it is spelt, unless it is a time of more than 63 bits. -/

namespace Flowgraph

open Json Json.Record PolicyNumbers

/-! ### Numbers -/

/-- A number is read from a number or from a text. -/
theorem Json.Codec.lenientNumber_eq_ok {number? : Number → Option α}
    {parse : List Char → Except Numeral.Flaw α} {p : Place} (hp : p.origin ≠ .text) {v : Value}
    {a : α} : lenientNumber number? parse p v.toTree = .ok a ↔
      (∃ n, v = .num n ∧ number? n = some a) ∨
      ∃ s, v = .str s ∧ parse (Text.trimChars s.toList) = .ok a := by
  rw [lenientNumber, Decoder.setAside, value_toTree v p hp]
  cases v with
  | num n => cases h : number? n <;> simp [bind, Except.bind, Value.canonical, h]
  | str s => simp [bind, Except.bind, Value.canonical, mapError_eq_ok]
  | null | bool _ | arr _ | obj _ => simp [bind, Except.bind, Value.canonical]

/-- The number that a value stands for, written as a number or as a text. -/
def Json.Value.Spells (v : Value) (max n : Nat) : Prop :=
  v = .num (.int n) ∧ n ≤ max ∨
    ∃ s, v = .str s ∧ Numeral.natural max (Text.trimChars s.toList) = .ok n

theorem le_of_natural {max n : Nat} {cs : List Char} (h : Numeral.natural max cs = .ok n) :
    n ≤ max := by
  unfold Numeral.natural at h
  split at h
  · cases h
  · exact Numeral.digits_le h
  · exact Numeral.digits_le h

theorem Json.Value.Spells.le {v : Value} {max n : Nat} (h : v.Spells max n) : n ≤ max := by
  rcases h with ⟨-, le⟩ | ⟨s, -, read⟩
  · exact le
  · exact le_of_natural read

theorem spells_of_naturalNumber? {max n : Nat} {m : Number}
    (h : Codec.naturalNumber? max m = some n) : (Value.num m).Spells max n := by
  cases m with
  | float x => cases h
  | int m =>
    obtain ⟨range, same⟩ := Option.ite_none_right_eq_some.mp h
    cases same
    have back : (m.toNat : Int) = m := Int.toNat_of_nonneg range.1
    exact .inl ⟨by rw [back], by omega⟩

theorem spells_of_lenientUInt32 {p : Place} (hp : p.origin ≠ .text) {v : Value} {n : UInt32}
    (read : Codec.lenientUInt32.decode p v.toTree = .ok n) : v.Spells uint32Max n.toNat := by
  simp only [Codec.lenientUInt32] at read
  rcases (Codec.lenientNumber_eq_ok hp).mp read with ⟨m, rfl, number⟩ | ⟨s, rfl, numeral⟩
  · obtain ⟨k, spelt, rfl⟩ := Option.map_eq_some_iff.mp number
    have spells := spells_of_naturalNumber? spelt
    rwa [UInt32.toNat_ofNat_of_lt' (Nat.lt_succ_of_le spells.le)]
  · obtain ⟨k, spelt, rfl⟩ := map_eq_ok.mp numeral
    rw [UInt32.toNat_ofNat_of_lt' (Nat.lt_succ_of_le (le_of_natural spelt))]
    exact .inr ⟨s, rfl, spelt⟩

theorem spells_of_lenientUInt64 {p : Place} (hp : p.origin ≠ .text) {v : Value} {n : UInt64}
    (read : Codec.lenientUInt64.decode p v.toTree = .ok n) : v.Spells uint64Max n.toNat := by
  simp only [Codec.lenientUInt64] at read
  rcases (Codec.lenientNumber_eq_ok hp).mp read with ⟨m, rfl, number⟩ | ⟨s, rfl, numeral⟩
  · obtain ⟨k, spelt, rfl⟩ := Option.map_eq_some_iff.mp number
    have spells := spells_of_naturalNumber? spelt
    rwa [UInt64.toNat_ofNat_of_lt' (Nat.lt_succ_of_le spells.le)]
  · obtain ⟨k, spelt, rfl⟩ := map_eq_ok.mp numeral
    rw [UInt64.toNat_ofNat_of_lt' (Nat.lt_succ_of_le (le_of_natural spelt))]
    exact .inr ⟨s, rfl, spelt⟩

namespace PolicyNumbers

theorem isNull_of_spells {v : Value} {max n : Nat} (h : v.Spells max n) : v.isNull = false := by
  rcases h with ⟨rfl, -⟩ | ⟨s, rfl, -⟩ <;> rfl

/-- However it is spelt, a number of at most 63 bits is straightened to the number. -/
theorem coerceNatural_of_spells {v : Value} {max n : Nat} {expected : String} (h : v.Spells max n)
    (fits : (n : Int) ≤ int64Max) : coerceNatural max expected v = .ok (.num (.int n)) := by
  have high : (n : Int) ≤ max := Int.ofNat_le.mpr h.le
  rcases h with ⟨rfl, -⟩ | ⟨s, rfl, read⟩
  · exact NumericKind.coerceNatural_self (Int.natCast_nonneg n) fits high
  · simp [coerceNatural, Coercion.coerce, Coercion.toInteger?,
      Numeral.int64?_of_natural read, fits, Int.ofNat_le.mp high]

theorem settle_uint64_of_refused {v : Value} (solid : v.isNull = false)
    (refused : (Coercion.coerce v .integer).toOption = none) : NumericKind.uint64.settle v = none := by
  rw [NumericKind.settle, solid, NumericKind.coerce, coerceNatural]
  cases made : Coercion.coerce v .integer with
  | error e => rfl
  | ok w =>
    rw [made] at refused
    cases refused

/-- A number of more than 63 bits is not taken from a text. -/
theorem settle_text_of_long {s : String} {max n : Nat}
    (read : Numeral.natural max (Text.trimChars s.toList) = .ok n) (long : int64Max < n) :
    NumericKind.uint64.settle (.str s) = none := by
  refine settle_uint64_of_refused rfl ?_
  simp [Coercion.coerce, Coercion.toInteger?, Numeral.int64?_of_natural read, Int.not_le.mpr long, Except.toOption]

theorem settle_uint32_of_decode {p : Place} (hp : p.origin ≠ .text) {v : Value} {n : UInt32}
    (read : Codec.lenientUInt32.decode p v.toTree = .ok n) :
    NumericKind.uint32.settle v = some (Codec.lenientUInt32.toValue n) := by
  have spells := spells_of_lenientUInt32 hp read
  have fits : (n.toNat : Int) ≤ int64Max := Int.le_trans (Int.ofNat_le.mpr spells.le) (by decide)
  rw [NumericKind.settle, isNull_of_spells spells, NumericKind.coerce,
    coerceNatural_of_spells spells fits]
  rfl

theorem settle_double_of_decode {p : Place} (hp : p.origin ≠ .text) {v : Value} {x : Double}
    (read : Codec.lenientDouble.decode p v.toTree = .ok x) (finite : x.isFinite = true) :
    NumericKind.double.settle v = some (Codec.lenientDouble.toValue x) := by
  have written : Codec.lenientDouble.toValue x = .num (.float x) := by
    simp [Codec.toValue, Codec.lenientDouble, Value.float, finite, Value.canonical]
  have number : Coercion.toDouble? v = some x ∧ v.isNull = false := by
    rcases (Codec.lenientNumber_eq_ok hp).mp read with ⟨m, rfl, number⟩ | ⟨s, rfl, numeral⟩
    · refine ⟨?_, rfl⟩
      cases m <;> cases number <;>
        simp [Coercion.toDouble?, Coercion.numberToDouble, Option.filter, finite]
    · refine ⟨?_, rfl⟩
      simp [Coercion.toDouble?, numeral, Except.toOption, Option.filter, finite]
  simp [NumericKind.settle, number, NumericKind.coerce, Coercion.coerce, written, Except.toOption]

end PolicyNumbers

/-! ### Times -/

/-- What is left of a time once it is straightened: a time of at most 63 bits stays, a longer one is looked
    at as a double. -/
def straightTime (n : UInt64) : Option UInt64 :=
  (NumericKind.uint64.settle (Codec.lenientUInt64.toValue n)).bind fun v =>
    (Decoder.ofValue Codec.lenientUInt64.decode v).toOption

theorem straightTime_of_fits {n : UInt64} (fits : (n.toNat : Int) ≤ int64Max) :
    straightTime n = some n := by
  have settled : NumericKind.uint64.settle (Codec.lenientUInt64.toValue n)
      = some (Codec.lenientUInt64.toValue n) := by
    have coerced := NumericKind.coerce_of_holds (holds_uint64 fits)
    rw [NumericKind.settle, coerced]
    rfl
  have again : Decoder.ofValue Codec.lenientUInt64.decode (Codec.lenientUInt64.toValue n) = .ok n :=
    (Codec.rereads_lenientUInt64 n _ _ (by decide)).mpr ⟨rfl, rfl⟩
  rw [straightTime, settled, Option.bind_some, again]
  rfl

/-- A time nearest to `2 ^ 63` among the doubles: written as a number, it is taken back to the greatest time of 63
    bits. -/
def isClampedTime (n : UInt64) : Bool :=
  decide (int64Max < n.toNat) && decide ((n.toNat : Int) ≤ int64Max + 1025)

/-- Of a time beyond these nothing is left. -/
theorem straightTime_of_far {n : UInt64} (far : int64Max + 1025 < n.toNat) : straightTime n = none := by
  have refused : (Coercion.coerce (.int n.toNat) .integer).toOption = none := by
    rw [Coercion.coerce_integer_int (Int.le_trans (by decide) (Int.natCast_nonneg _))
      (Int.ofNat_le.mpr (Nat.le_of_lt_succ n.toNat_lt)), if_neg (Int.not_le.mpr far)]
    rfl
  have settled : NumericKind.uint64.settle (Codec.lenientUInt64.toValue n) = none :=
    settle_uint64_of_refused rfl refused
  rw [straightTime, settled]
  rfl

/-- A time that is straightened is written as what is left of it. -/
theorem settle_toValue (n : UInt64) :
    NumericKind.uint64.settle (Codec.lenientUInt64.toValue n)
      = (straightTime n).map Codec.lenientUInt64.toValue := by
  rw [straightTime]
  cases settled : NumericKind.uint64.settle (Codec.lenientUInt64.toValue n) with
  | none => rfl
  | some v =>
    obtain ⟨m, rfl, low, high⟩ := NumericKind.holds_of_coerce (eq_ok_of_toOption
      (show (NumericKind.uint64.coerce (Codec.lenientUInt64.toValue n)).toOption = some v from settled))
    have small : m.toNat < UInt64.size := by
      have bound : int64Max < UInt64.size := by decide
      omega
    have written : Codec.lenientUInt64.toValue (UInt64.ofNat m.toNat) = .num (.int m) := by
      change Value.num (.int (UInt64.ofNat m.toNat).toNat) = _
      rw [UInt64.toNat_ofNat_of_lt' small, Int.toNat_of_nonneg low]
    have again : Decoder.ofValue Codec.lenientUInt64.decode (.num (.int m))
        = .ok (UInt64.ofNat m.toNat) := by
      rw [← written]
      exact (Codec.rereads_lenientUInt64 _ _ _ (by decide)).mpr ⟨rfl, rfl⟩
    rw [Option.bind_some, again]
    exact congrArg some written.symm

/-- Unless it is a text of a time that is clamped as a number, a time is straightened as the number is. -/
theorem settle_uint64_of_decode {p : Place} (hp : p.origin ≠ .text) {v : Value} {n : UInt64}
    (read : Codec.lenientUInt64.decode p v.toTree = .ok n)
    (plain : ∀ s, v = .str s → isClampedTime n = false) :
    NumericKind.uint64.settle v = (straightTime n).map Codec.lenientUInt64.toValue := by
  have spells := spells_of_lenientUInt64 hp read
  rcases spells with ⟨rfl, -⟩ | ⟨s, rfl, numeral⟩
  · exact settle_toValue n
  rcases Int.lt_or_le int64Max n.toNat with long | fits
  · have far : int64Max + 1025 < n.toNat := by simpa [isClampedTime, long] using plain s rfl
    rw [settle_text_of_long numeral long, straightTime_of_far far]
    rfl
  · have settled : NumericKind.uint64.settle (.str s) = some (.num (.int n.toNat)) := by
      rw [NumericKind.settle, NumericKind.coerce,
        coerceNatural_of_spells (.inr ⟨s, rfl, numeral⟩) fits]
      rfl
    rw [settled, straightTime_of_fits fits]
    rfl

/-! ### Policies that are objects -/

theorem decode_toValue_uint32 {p : Place} (hp : p.origin ≠ .text) (n : UInt32) :
    Codec.lenientUInt32.decode p (Codec.lenientUInt32.toValue n).toTree = .ok n :=
  (Codec.rereads_lenientUInt32 n p n hp).mpr ⟨rfl, rfl⟩

theorem decode_toValue_uint64 {p : Place} (hp : p.origin ≠ .text) (n : UInt64) :
    Codec.lenientUInt64.decode p (Codec.lenientUInt64.toValue n).toTree = .ok n :=
  (Codec.rereads_lenientUInt64 n p n hp).mpr ⟨rfl, rfl⟩

theorem decode_toValue_double {p : Place} (hp : p.origin ≠ .text) {x : Double}
    (finite : x.isFinite = true) :
    Codec.lenientDouble.decode p (Codec.lenientDouble.toValue x).toTree = .ok x :=
  (Codec.rereads_lenientDouble x p x hp).mpr ⟨finite, rfl⟩

/-- A value that is there and is read as the datum. -/
def Json.Codec.Shows (c : Codec α) (p : Place) (v : Value) (a : α) : Prop :=
  v ≠ .null ∧ c.decode p v.toTree = .ok a

theorem Json.Codec.Shows.obj {c : Codec α} {p : Place} {o : Object} {a : α}
    (read : c.decode p (Value.obj o).toTree = .ok a) : c.Shows p (.obj o) a :=
  ⟨by simp, read⟩

theorem onlyAt_settleFields (fields : List NumericField) :
    Object.OnlyAt (settleFields fields) (fields.map Prod.fst) := by
  intro key out v
  have nowhere : fields.lookup key = none := by
    refine List.lookup_eq_none_iff.mpr fun f hf => ?_
    simpa using fun same : key = f.1 => out (same ▸ List.mem_map_of_mem hf)
  rw [settleFields, nowhere]

/-- The retry policy with its delay straightened; there is none without a delay. -/
def RetryPolicy.straight? (r : RetryPolicy) : Option RetryPolicy :=
  (straightTime r.initialDelayMs).map fun t => { r with initialDelayMs := t }

/-- What the parts of a retry policy are read from. -/
structure RetryPolicy.ReadFrom (p : Place) (o : Object) (r : RetryPolicy) : Prop where
  maxAttempts : ReadsDefaulted .lenientUInt32 p (o.under ["max_attempts"]) builtin.maxAttempts
    r.maxAttempts
  backoffMultiplier : ReadsDefaulted .lenientDouble p (o.under ["backoff_multiplier"])
    builtin.backoffMultiplier r.backoffMultiplier
  initialDelayMs : ReadsDefaulted .lenientUInt64 p (o.under ["initial_delay_ms"])
    builtin.initialDelayMs r.initialDelayMs

section
variable {p : Place} (hp : p.origin ≠ .text) {o : Object}
include hp

/-- A retry policy is read from an object just as its parts are. -/
theorem RetryPolicy.decode_eq_ok {r : RetryPolicy} :
    RetryPolicy.codec.decode p (Value.obj o).toTree = .ok r ↔ r.ReadFrom p.inner o := by
  constructor
  · intro read
    refine decode_gives (Q := fun r => r.ReadFrom p.inner o) hp read fun s place => ?_
    rw [← place]
    refine .seq (.seq (.map fun i x there => ?_) defaulted_gives_reads) defaulted_gives_reads
    exact fun y second z third => ⟨defaulted_gives_reads i x there, second, third⟩
  · intro h
    have empty : RetryPolicy.codec.decode p (Value.obj []).toTree = .ok builtin := by
      simp only [RetryPolicy.codec, Record.codec]
      exact (Record.decode_obj_eq_ok hp).mpr rfl
    refine Record.decode_carried (o := []) hp empty fun s place _ => ?_
    rw [← place] at h
    refine .seq (.seq (.map (.given_defaulted h.maxAttempts) ?_)
      (.given_defaulted h.backoffMultiplier)) (.given_defaulted h.initialDelayMs)
    rintro _ _ rfl _ _ rfl _ _ rfl -
    rfl

theorem RateLimit.decode_eq_ok {l : RateLimit} :
    RateLimit.codec.decode p (Value.obj o).toTree = .ok l ↔
      ReadsDefaulted .lenientUInt32 p.inner (o.under ["requests_per_minute"])
        builtin.requestsPerMinute l.requestsPerMinute := by
  constructor
  · intro read
    refine decode_gives (Q := fun l => ReadsDefaulted .lenientUInt32 p.inner _ _
      l.requestsPerMinute) hp read fun s place => ?_
    rw [← place]
    exact .map defaulted_gives_reads
  · intro h
    have empty : RateLimit.codec.decode p (Value.obj []).toTree = .ok builtin := by
      simp only [RateLimit.codec, Record.codec]
      exact (Record.decode_obj_eq_ok hp).mpr rfl
    refine Record.decode_carried (o := []) hp empty fun s place _ => ?_
    rw [← place] at h
    refine .map (.given_defaulted h) ?_
    rintro _ _ rfl -
    rfl

end

/-- Whether the field of a number can be made one, where it is known what it is read as. -/
theorem all_settle_of_reads {o : Object} (sorted : o.Sorted) {name : String} {kind : NumericKind}
    {c : Codec α} {p : Place} {absent x : α} {fine : Bool}
    (h : ReadsDefaulted c p (o.under [name]) absent x) (default : absent = x → fine = true)
    (each : ∀ v, o.member? name = some v → c.decode p v.toTree = .ok x →
      (kind.settle v).isSome = fine) :
    ((o.member? name).all fun v => (kind.settle v).isSome) = fine := by
  rw [sorted.under] at h
  cases there : o.member? name with
  | none =>
    rw [there] at h
    rcases h with ⟨-, same⟩ | ⟨v, other, -⟩
    · exact (default same).symm
    · cases other
  | some v =>
    rw [there] at h
    rcases h with ⟨other, -⟩ | ⟨u, same, read⟩
    · cases other
    · cases same
      exact each v there read

theorem straightTime_builtin :
    straightTime RetryPolicy.builtin.initialDelayMs = some RetryPolicy.builtin.initialDelayMs :=
  straightTime_of_fits (by decide)

/-- A retry policy that is an object is straightened to one with the straightened delay, or left out. -/
theorem RetryPolicy.shows_settleObject {p : Place} (hp : p.origin ≠ .text) {o : Object}
    (sorted : o.Sorted) {r : RetryPolicy}
    (read : RetryPolicy.codec.decode p (Value.obj o).toTree = .ok r) (finite : r.isFinite = true)
    (plain : ∀ s, o.member? "initial_delay_ms" = some (.str s) → isClampedTime r.initialDelayMs = false) :
    Option.Rel (RetryPolicy.codec.Shows p) (settleObject retryFields (.obj o)) r.straight? := by
  have inside : p.inner.origin ≠ .text := hp
  have parts := (decode_eq_ok hp).mp read
  have delay {v : Value} (there : o.member? "initial_delay_ms" = some v)
      (decoded : Codec.lenientUInt64.decode p.inner v.toTree = .ok r.initialDelayMs) :
      NumericKind.uint64.settle v
        = (straightTime r.initialDelayMs).map Codec.lenientUInt64.toValue := by
    refine settle_uint64_of_decode inside decoded ?_
    rintro s rfl
    exact plain s there
  have all : settlesAll retryFields o = (straightTime r.initialDelayMs).isSome := by
    have first := all_settle_of_reads sorted parts.maxAttempts (fun _ => rfl) fun v _ decoded => by
      rw [settle_uint32_of_decode inside decoded]; rfl
    have second := all_settle_of_reads sorted parts.backoffMultiplier (fun _ => rfl)
      fun v _ decoded => by
        rw [settle_double_of_decode inside decoded finite]; rfl
    have third : ((o.member? "initial_delay_ms").all fun v =>
        (NumericKind.uint64.settle v).isSome) = (straightTime r.initialDelayMs).isSome := by
      refine all_settle_of_reads sorted parts.initialDelayMs (fun same => ?_) fun v there decoded => ?_
      · rw [← same, straightTime_builtin]; rfl
      · rw [delay there decoded, Option.isSome_map]
    simp [settlesAll, retryFields, first, second, third]
  rw [settleObject, all, straight?]
  cases straight : straightTime r.initialDelayMs with
  | none => exact .none
  | some t =>
    refine .some (.obj ((decode_eq_ok hp).mpr ⟨?_, ?_, ?_⟩))
    · rw [Object.under_rework]
      refine parts.maxAttempts.filterMap id fun v _ decoded => ⟨_, ?_, decode_toValue_uint32 inside _⟩
      exact settle_uint32_of_decode inside decoded
    · rw [Object.under_rework]
      refine parts.backoffMultiplier.filterMap id fun v _ decoded =>
        ⟨_, ?_, decode_toValue_double inside finite⟩
      exact settle_double_of_decode inside decoded finite
    · rw [Object.under_rework]
      refine parts.initialDelayMs.filterMap (fun same => ?_) fun v one decoded =>
        ⟨_, ?_, decode_toValue_uint64 inside t⟩
      · rw [← same, straightTime_builtin] at straight
        exact Option.some.inj straight
      · have there : o.member? "initial_delay_ms" = some v := Object.member?_of_under one
        exact (delay there decoded).trans (by rw [straight]; rfl)

theorem RateLimit.shows_settleObject {p : Place} (hp : p.origin ≠ .text) {o : Object}
    (sorted : o.Sorted) {l : RateLimit}
    (read : RateLimit.codec.decode p (Value.obj o).toTree = .ok l) :
    Option.Rel (RateLimit.codec.Shows p) (settleObject rateLimitFields (.obj o)) (some l) := by
  have inside : p.inner.origin ≠ .text := hp
  have rate := (decode_eq_ok hp).mp read
  have settled {v : Value}
      (decoded : Codec.lenientUInt32.decode p.inner v.toTree = .ok l.requestsPerMinute) :=
    settle_uint32_of_decode inside decoded
  have all : settlesAll rateLimitFields o = true := by
    have first := all_settle_of_reads sorted rate (fun _ => rfl) fun v _ decoded => by
      rw [settled decoded]; rfl
    simp [settlesAll, rateLimitFields, first]
  rw [settleObject, all]
  refine .some (.obj ((decode_eq_ok hp).mpr ?_))
  rw [Object.under_rework]
  exact rate.filterMap id fun v _ decoded => ⟨_, settled decoded, decode_toValue_uint32 inside _⟩

end Flowgraph
