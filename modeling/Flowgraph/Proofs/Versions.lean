import Flowgraph.Executable.Resolve
import Flowgraph.Proofs.DoubleText
import Flowgraph.Proofs.Workflow.Rereading

/-! The version of a workflow, from the document into the document written and into the identity of trigger
    subscriptions. A whole number that 64 bits hold only without a sign is taken for a double on the way. It is
    written otherwise than it was read, and shares its text with every number that the same double is nearest to. -/

namespace Flowgraph.Version

open Json

/-- What may stand for a version in a document. -/
def IsScalar : Value → Prop
  | .num (.int n) => int64Min ≤ n ∧ n ≤ uint64Max
  | .num (.float x) => x.isFinite = true
  | .str _ | .bool _ => True
  | .null | .arr _ | .obj _ => False

def read (s : Value) : Except DecodeError Version := Decoder.ofValue codec.decode s

theorem read_eq {s : Value} (plain : s.canonical = s) : read s = ofValue s := by
  have apart := Codec.setAside_eq (f := ofValue) (p := ⟨.value, 0⟩) (by decide) s
  rwa [plain] at apart

/-! ### Whole numbers -/

/-- A number that needs all of 64 bits is one of `53 + 11`. -/
theorem exists_nat {n : Int} (beyond : int64Max < n) (high : n ≤ uint64Max) :
    ∃ k : Nat, n = k ∧ twoTo (52 + 11) ≤ k ∧ k < twoTo (53 + 11) := by
  have low : (twoTo 63 : Int) ≤ n := by
    rw [twoTo_63]
    omega
  obtain ⟨k, rfl⟩ := Int.eq_ofNat_of_zero_le ((Int.natCast_nonneg _).trans low)
  exact ⟨k, rfl, Int.ofNat_le.mp low, Nat.lt_succ_of_le (Int.ofNat_le.mp high)⟩

theorem isFinite_ofInt {n : Int} (beyond : int64Max < n) (high : n ≤ uint64Max) :
    (Double.ofInt n).isFinite = true := by
  obtain ⟨k, rfl, least, most⟩ := exists_nat beyond high
  exact (Double.truncate_ofInt least most (by decide)).1

/-- What a whole number is taken for. -/
inductive Taken (n : Int) : Version → Prop
  | whole {k : Int64} (same : k.toInt = n) : Taken n (.integer k)
  | rounded (beyond : int64Max < n) (high : n ≤ uint64Max) : Taken n (.float (Double.ofInt n))

theorem exists_taken {n : Int} (scalar : IsScalar (.int n)) : ∃ v, read (.int n) = .ok v ∧ Taken n v := by
  obtain ⟨low, high⟩ := scalar
  refine ⟨_, read_eq rfl, ?_⟩
  split
  · rename_i fits
    exact .whole (Int64.toInt_ofInt_of_le low (Int.lt_add_one_of_le fits.2))
  · exact .rounded (by omega) high

theorem taken_of_read {n : Int} {v : Version} (scalar : IsScalar (.int n)) (same : read (.int n) = .ok v) :
    Taken n v := by
  obtain ⟨w, reading, taken⟩ := exists_taken scalar
  cases reading.symm.trans same
  exact taken

theorem repr_toInt_inj {k l : Int64} : k.toInt.repr = l.toInt.repr ↔ k.toInt = l.toInt := by
  refine ⟨fun same => ?_, congrArg Int.repr⟩
  have text := Numeral.int64?_repr k.toInt
  rw [same, Numeral.int64?_repr, if_pos (int64_ofInt_toInt k).1, if_pos (int64_ofInt_toInt l).1] at text
  exact (Option.some.inj text).symm

theorem toValue_float {x : Double} (finite : x.isFinite = true) : codec.toValue (.float x) = .num (.float x) := by
  simp [Codec.toValue, codec, Value.float, finite, Value.canonical]

namespace Taken

variable {m n : Int} {v w : Version}

theorem toValue_eq_iff (taken : Taken n v) : codec.toValue v = .int n ↔ n ≤ int64Max := by
  cases taken with
  | whole same => exact iff_of_true (congrArg Value.int same) (same ▸ Int64.toInt_le _)
  | rounded beyond high =>
    rw [toValue_float (isFinite_ofInt beyond high)]
    exact iff_of_false (fun same => by cases same) (Int.not_le.mpr beyond)

theorem display_eq_repr_iff (taken : Taken n v) : v.display = n.repr ↔ n ≤ int64Max := by
  cases taken with
  | whole same => exact iff_of_true (congrArg Int.repr same) (same ▸ Int64.toInt_le _)
  | rounded beyond high =>
    exact iff_of_false (Double.text_ne_repr (isFinite_ofInt beyond high) n) (Int.not_le.mpr beyond)

/-- Two numbers have one text just if they are the same, or if both need all of 64 bits and the same multiple of
    `2048` is nearest to them. -/
theorem display_eq_iff (first : Taken m v) (second : Taken n w) :
    v.display = w.display ↔ m = n ∨ (int64Max < m ∧ int64Max < n ∧
      Double.divideToEven m.toNat 2048 = Double.divideToEven n.toNat 2048) := by
  cases first with
  | whole left =>
    have fits : m ≤ int64Max := left ▸ Int64.toInt_le _
    cases second with
    | whole right =>
      subst left right
      exact repr_toInt_inj.trans (or_iff_left fun both => Int.not_le.mpr both.1 fits).symm
    | rounded beyond high =>
      refine iff_of_false (fun same => ?_) (by omega)
      exact Double.text_ne_repr (isFinite_ofInt beyond high) _ same.symm
  | rounded beyond high =>
    have finite := isFinite_ofInt beyond high
    cases second with
    | whole right =>
      have fits : n ≤ int64Max := right ▸ Int64.toInt_le _
      exact iff_of_false (fun same => Double.text_ne_repr finite _ same) (by omega)
    | rounded beyond' high' =>
      obtain ⟨k, rfl, low, top⟩ := exists_nat beyond high
      obtain ⟨l, rfl, low', top'⟩ := exists_nat beyond' high'
      have near := Double.ofInt_inj ⟨low, low'⟩ ⟨top, top'⟩ (by decide)
      refine (Double.text_inj finite (isFinite_ofInt beyond' high')).trans (near.trans ?_)
      constructor
      · exact fun same => .inr ⟨beyond, beyond', same⟩
      · rintro (same | both)
        · rw [Int.ofNat.inj same]
        · exact both.2.2

end Taken

/-! ### All scalars -/

theorem instanceMaterial_inj {user workflow version version' trigger : String} :
    instanceMaterial user workflow version trigger = instanceMaterial user workflow version' trigger
      ↔ version = version' := by
  rw [instanceMaterial, instanceMaterial, String.append_left_inj, String.append_left_inj, String.append_right_inj]

/-- What becomes of a scalar `s` that is read as the version `v`: whether it is written as it stands, whether a whole
    number enters the hash of a subscription with its decimal text, and which others have that text too. -/
structure Kept (s : Value) (v : Version) : Prop where
  written : codec.toValue v = s ↔ ∀ n, s = .int n → n ≤ int64Max
  hashed : ∀ n, s = .int n → ∀ (c : Context) (user workflow trigger : String), c.userId? = some user →
    user ≠ "" → workflow ≠ "" → c.instanceId? workflow v trigger
        = some (Digest.ofText (instanceMaterial user workflow v.display trigger)) ∧
      (instanceMaterial user workflow v.display trigger = instanceMaterial user workflow n.repr trigger
        ↔ n ≤ int64Max)
  shared : ∀ n, s = .int n → ∀ m, IsScalar (.int m) → ∀ w, read (.int m) = .ok w →
    (w.display = v.display ↔ m = n ∨ (int64Max < m ∧ int64Max < n ∧
      Double.divideToEven m.toNat 2048 = Double.divideToEven n.toNat 2048))

theorem Taken.kept {n : Int} {v : Version} (taken : Taken n v) : Kept (.int n) v where
  written := by
    rw [taken.toValue_eq_iff]
    exact ⟨fun fits _ same => by cases same; exact fits, fun all => all n rfl⟩
  hashed := by
    rintro _ ⟨⟩ c user workflow trigger owner named titled
    refine ⟨?_, instanceMaterial_inj.trans taken.display_eq_repr_iff⟩
    simp [Context.instanceId?, owner, named, titled, instanceId]
  shared := by
    rintro _ ⟨⟩ m scalar w same
    exact (taken_of_read scalar same).display_eq_iff taken

theorem kept_of_ne {s : Value} {v : Version} (written : codec.toValue v = s) (other : ∀ n, s ≠ .int n) :
    Kept s v where
  written := iff_of_true written fun n same => absurd same (other n)
  hashed n same := absurd same (other n)
  shared n same := absurd same (other n)

/-- Every scalar is read as a version. It is written as it was read just if it is no whole number that 64 bits hold
    only without a sign; a whole number enters the hash of a subscription with its decimal text just if it is not such
    a one; and two different numbers are rendered alike just if both are such, and one double is nearest to both. -/
theorem kept_of_isScalar {s : Value} (scalar : IsScalar s) : ∃ v, read s = .ok v ∧ Kept s v := by
  cases s with
  | num n =>
    cases n with
    | int n =>
      obtain ⟨v, reading, taken⟩ := exists_taken scalar
      exact ⟨v, reading, taken.kept⟩
    | float x => exact ⟨.float x, read_eq rfl, kept_of_ne (toValue_float scalar) fun n => by simp [Value.int]⟩
  | str t => exact ⟨.text t, read_eq rfl, kept_of_ne rfl fun n => by simp [Value.int]⟩
  | bool b => exact ⟨.flag b, read_eq rfl, kept_of_ne rfl fun n => by simp [Value.int]⟩
  | null => exact absurd scalar id
  | arr _ => exact absurd scalar id
  | obj _ => exact absurd scalar id

/-- The greatest scalar is not kept, and is not told apart from the one before it. -/
theorem kept_of_isScalar_greatest : IsScalar (.int uint64Max) ∧ ∃ v, read (.int uint64Max) = .ok v ∧
    codec.toValue v ≠ .int uint64Max ∧ ∀ w, read (.int (uint64Max - 1)) = .ok w → w.display = v.display := by
  have scalar : IsScalar (.int uint64Max) := ⟨by decide, by decide⟩
  obtain ⟨v, reading, kept⟩ := kept_of_isScalar scalar
  refine ⟨scalar, v, reading, fun same => ?_, fun w other => ?_⟩
  · exact absurd (kept.written.mp same _ rfl) (by decide)
  · exact (kept.shared _ rfl _ ⟨by decide, by decide⟩ w other).mpr (.inr (by decide))

/-- Two whole numbers become the double `2 ^ 64`, are written as such and have its text. -/
theorem greatest_rendered_as_double : ∃ v, read (.int 18446744073709551615) = .ok v ∧
    read (.int 18446744073709551614) = .ok v ∧ codec.toValue v ≠ .int 18446744073709551615 ∧
      v.display = "1.8446744073709552e+19" := by
  refine ⟨.float ⟨0x43F0000000000000⟩, ?_, ?_, ?_, ?_⟩ <;> decide +kernel

end Flowgraph.Version
