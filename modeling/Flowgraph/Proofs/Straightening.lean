import Flowgraph.Proofs.Json.Reworking
import Flowgraph.Proofs.PolicyNumbers

/-! Straightening member by member. To make numbers of the fields of an object, to leave out what cannot be
    one and to do so inside of other members is all to rework the object: what becomes of a member depends
    on its key and its value alone. -/

namespace Flowgraph.PolicyNumbers

open Json Object

/-! ### What becomes of a value -/

/-- What becomes of the value of a number field. -/
def NumericKind.settle (kind : NumericKind) (v : Value) : Option Value :=
  if v.isNull then some v else (kind.coerce v).toOption

/-- What becomes of the value under a key, where the number fields are the given ones. -/
def settleFields (fields : List NumericField) (key : String) (v : Value) : Option Value :=
  match fields.lookup key with
  | some kind => kind.settle v
  | none => some v

/-- Every number field that is there can be made a number. -/
def settlesAll (fields : List NumericField) (o : Object) : Bool :=
  fields.all fun f => (o.member? f.1).all fun v => (f.2.settle v).isSome

/-- What becomes of a policy that is to be an object. -/
def settleObject (fields : List NumericField) : Value → Option Value
  | .null => some .null
  | .obj o => if settlesAll fields o then some (.obj (rework (settleFields fields) o)) else none
  | .bool _ | .num _ | .str _ | .arr _ => none

/-- What becomes of the members of a set of policies with the given plain numbers. -/
def settleSet (fields : List NumericField) (key : String) (v : Value) : Option Value :=
  if key = "retry" then settleObject retryFields v
  else if key = "rate_limit" then settleObject rateLimitFields v
  else settleFields fields key v

/-! ### Single fields -/

variable {o : Object}

theorem value_coerceField (sorted : o.Sorted) (path hint : String) (field : NumericField) :
    (coerceField path hint (.obj o) field).value
      = if (o.member? field.1).all fun v => (field.2.settle v).isSome then
          (.obj (o.rework (atKey field.1 field.2.settle)), true)
        else (.obj o, false) := by
  rw [coerceField, Value.member?]
  cases there : o.member? field.1 with
  | none => simp [rework_atKey_of_none there]
  | some v =>
    cases null : v.isNull with
    | true =>
      have stays : field.2.settle v = some v := by simp [NumericKind.settle, null]
      simp [null, stays, rework_atKey_of_some sorted there stays]
    | false =>
      cases coerced : field.2.coerce v with
      | error e =>
        have dropped : field.2.settle v = none := by
          simp [NumericKind.settle, null, coerced, Except.toOption]
        simp [null, coerced, dropped]
      | ok w =>
        have made : field.2.settle v = some w := by
          simp [NumericKind.settle, null, coerced, Except.toOption]
        simp [null, coerced, made, updateMember_eq_rework sorted there made]

theorem value_coerceOrDrop (sorted : o.Sorted) (path hint : String) (field : NumericField) :
    (coerceOrDrop path hint (.obj o) field).value = .obj (o.rework (atKey field.1 field.2.settle)) := by
  simp only [coerceOrDrop, Traced.value_bind, Traced.value_pure, value_coerceField sorted]
  by_cases fine : (o.member? field.1).all (fun v => (field.2.settle v).isSome) = true
  · rw [if_pos fine]
    rfl
  · rw [if_neg fine]
    obtain ⟨v, there, dropped⟩ : ∃ v, o.member? field.1 = some v ∧ field.2.settle v = none := by
      cases there : o.member? field.1 with
      | none => simp [there] at fine
      | some v => exact ⟨v, rfl, by simpa [there] using fine⟩
    exact withoutMember_eq_rework sorted there dropped

/-! ### All fields of an object -/

/-- To work on the first field and then on the others is to work on all of them. -/
theorem settleFields_cons {field : NumericField} {fields : List NumericField}
    (fresh : field.1 ∉ fields.map Prod.fst) (key : String) (v : Value) :
    settleFields (field :: fields) key v
      = (atKey field.1 field.2.settle key v).bind (settleFields fields key) := by
  have none_else : fields.lookup field.1 = none := by
    refine List.lookup_eq_none_iff.mpr fun f hf => ?_
    simpa using fun same : field.1 = f.1 => fresh (same ▸ List.mem_map_of_mem hf)
  rw [settleFields, List.lookup_cons, atKey]
  by_cases here : key = field.1
  · subst here
    simp only [beq_self_eq_true, if_pos]
    cases field.2.settle v <;> simp [settleFields, none_else]
  · rw [if_neg here, beq_false_of_ne here]
    rfl

theorem value_foldlM_coerceOrDrop (sorted : o.Sorted) (path hint : String)
    {fields : List NumericField} (distinct : (fields.map Prod.fst).Nodup) :
    (fields.foldlM (coerceOrDrop path hint) (.obj o)).value
      = .obj (o.rework (settleFields fields)) := by
  induction fields generalizing o with
  | nil => exact congrArg Value.obj (rework_eq_self fun _ _ => rfl).symm
  | cons field fields ih =>
    rw [List.map_cons, List.nodup_cons] at distinct
    rw [List.foldlM_cons, Traced.value_bind, value_coerceOrDrop sorted,
      ih (sorted.rework _) distinct.2, rework_rework]
    congr 2
    funext key v
    exact (settleFields_cons distinct.1 key v).symm

theorem settlesAll_rework (sorted : o.Sorted) {key : String} {fields : List NumericField}
    (fresh : key ∉ fields.map Prod.fst) (f : Value → Option Value) :
    settlesAll fields (o.rework (atKey key f)) = settlesAll fields o := by
  have same : ∀ g ∈ fields, (o.rework (atKey key f)).member? g.1 = o.member? g.1 := by
    intro g hg
    have other : g.1 ≠ key := fun same => fresh (same ▸ List.mem_map_of_mem hg)
    rw [sorted.member?_rework]
    cases o.member? g.1 <;> simp [atKey, other]
  rw [Bool.eq_iff_iff, settlesAll, settlesAll, List.all_eq_true, List.all_eq_true]
  exact forall₂_congr fun g hg => by rw [same g hg]

/-- Whether all fields could be made numbers, and the object where they could. -/
theorem value_foldlM_coerceNext (sorted : o.Sorted) (path : String) {fields : List NumericField}
    (distinct : (fields.map Prod.fst).Nodup) (valid : Bool) :
    (fields.foldlM (coerceNext path) (.obj o, valid)).value.2 = (valid && settlesAll fields o) ∧
      (settlesAll fields o = true → (fields.foldlM (coerceNext path) (.obj o, valid)).value.1
        = .obj (o.rework (settleFields fields))) := by
  induction fields generalizing o valid with
  | nil =>
    refine ⟨(Bool.and_true valid).symm, fun _ => ?_⟩
    exact congrArg Value.obj (rework_eq_self fun _ _ => rfl).symm
  | cons field fields ih =>
    rw [List.map_cons, List.nodup_cons] at distinct
    have all : settlesAll (field :: fields) o
        = ((o.member? field.1).all (fun v => (field.2.settle v).isSome) && settlesAll fields o) := rfl
    have step : (coerceNext path (.obj o, valid) field).value
        = if (o.member? field.1).all fun v => (field.2.settle v).isSome then
            (.obj (o.rework (atKey field.1 field.2.settle)), valid)
          else (.obj o, false) := by
      simp only [coerceNext, Traced.value_bind, Traced.value_pure, value_coerceField sorted]
      split <;> simp
    rw [List.foldlM_cons, Traced.value_bind, step, all]
    split
    · rename_i fine
      obtain ⟨flag, result⟩ := ih (sorted.rework (atKey field.1 field.2.settle)) distinct.2 valid
      rw [settlesAll_rework sorted distinct.1] at flag result
      refine ⟨by rw [flag, fine, Bool.true_and], fun fits => ?_⟩
      rw [result (by simpa [fine] using fits), rework_rework]
      congr 2
      funext key v
      exact (settleFields_cons distinct.1 key v).symm
    · rename_i unfit
      obtain ⟨flag, -⟩ := ih sorted distinct.2 false
      rw [Bool.not_eq_true] at unfit
      exact ⟨by rw [flag, unfit]; simp, by simp [unfit]⟩

/-! ### Policies -/

theorem NumericKind.canonical_settle {kind : NumericKind} {v w : Value} (h : v.canonical = v)
    (made : kind.settle v = some w) : w.canonical = w := by
  rw [settle] at made
  split at made
  · cases made; exact h
  · have holds := holds_of_coerce (eq_ok_of_toOption made)
    cases kind with
    | uint32 | uint64 => obtain ⟨n, rfl, -⟩ := holds; rfl
    | double => obtain ⟨x, rfl, -⟩ := holds; rfl

theorem canonical_settleFields {fields : List NumericField} {key : String} {v w : Value}
    (h : v.canonical = v) (made : settleFields fields key v = some w) : w.canonical = w := by
  rw [settleFields] at made
  split at made
  · exact NumericKind.canonical_settle h made
  · cases made; exact h

theorem canonical_settleObject {fields : List NumericField} {v w : Value} (h : v.canonical = v)
    (made : settleObject fields v = some w) : w.canonical = w := by
  cases v with
  | null => cases made; rfl
  | obj o =>
    obtain ⟨-, same⟩ := Option.ite_none_right_eq_some.mp made
    cases same
    exact canonical_rework h fun _ _ _ => canonical_settleFields
  | bool _ | num _ | str _ | arr _ => cases made

theorem canonical_atKey {f : Value → Option Value} {name key : String} {v w : Value}
    (keeps : ∀ v w, v.canonical = v → f v = some w → w.canonical = w)
    (h : v.canonical = v) (made : atKey name f key v = some w) : w.canonical = w := by
  rw [atKey] at made
  split at made
  · exact keeps v w h made
  · cases made; exact h

theorem value_coerceObject (canonical : (Value.obj o).canonical = .obj o) (path name : String)
    {fields : List NumericField} (distinct : (fields.map Prod.fst).Nodup) :
    (coerceObject path (.obj o) name fields).value
      = .obj (o.rework (atKey name (settleObject fields))) := by
  have sorted := sorted_of_canonical canonical
  rw [coerceObject, Value.member?]
  cases there : o.member? name with
  | none => rw [rework_atKey_of_none there]; rfl
  | some v =>
    cases v with
    | null =>
      have stays : settleObject fields .null = some .null := rfl
      rw [rework_atKey_of_some sorted there stays]
      rfl
    | obj inner =>
      have inside := sorted_of_canonical (Value.canonical_of_member? canonical there)
      obtain ⟨flag, result⟩ := value_foldlM_coerceNext inside (path ++ "." ++ name) distinct true
      simp only [Traced.value_bind, Traced.value_pure, coerceFields_eq, flag, Bool.true_and]
      split
      · rename_i fits
        refine updateMember_eq_rework sorted there ?_
        rw [settleObject, if_pos fits, result fits]
      · rename_i unfit
        exact withoutMember_eq_rework sorted there (if_neg unfit)
    | bool _ | num _ | str _ | arr _ => exact withoutMember_eq_rework sorted there rfl

theorem value_coercePolicySet (canonical : (Value.obj o).canonical = .obj o) (path : String)
    {fields : List NumericField} (names : PlainNames fields) :
    (coercePolicySet path fields (.obj o)).value = .obj (o.rework (settleSet fields)) := by
  have sorted := sorted_of_canonical canonical
  have plain : (Value.obj (o.rework (settleFields fields))).canonical = _ :=
    canonical_rework canonical fun _ _ _ => canonical_settleFields
  have retried : (Value.obj (rework (atKey "retry" (settleObject retryFields)) _)).canonical = _ :=
    canonical_rework plain fun _ _ _ => canonical_atKey fun _ _ => canonical_settleObject
  simp only [coercePolicySet, Traced.value_bind]
  rw [value_foldlM_coerceOrDrop sorted path nextSourceHint names.distinct,
    value_coerceObject plain path "retry" (by decide),
    value_coerceObject retried path "rate_limit" (by decide), rework_rework, rework_rework]
  congr 2
  funext key v
  have no_lookup {name : String} (out : name ∉ fields.map Prod.fst) :
      settleFields fields name v = some v := by
    have nowhere : fields.lookup name = none := by
      refine List.lookup_eq_none_iff.mpr fun f hf => ?_
      simpa using fun same : name = f.1 => out (same ▸ List.mem_map_of_mem hf)
    rw [settleFields, nowhere]
  by_cases retry : key = "retry"
  · subst retry
    rw [no_lookup names.retry]
    cases made : settleObject retryFields v <;> simp [atKey, settleSet, made]
  · by_cases limit : key = "rate_limit"
    · subst limit
      rw [no_lookup names.rateLimit]
      simp [atKey, settleSet]
    · cases made : settleFields fields key v <;> simp [atKey, settleSet, retry, limit, made]

theorem value_coerceLoop (sorted : o.Sorted) (path : String) :
    (coerceLoop path (.obj o)).value = .obj (o.rework (settleFields loopFields)) :=
  value_foldlM_coerceOrDrop sorted path loopDefaultHint (by decide)

/-- A value that is no object has nothing to make a number of. -/
theorem foldlM_coerceOrDrop_of_not_obj {v : Value} (bare : ∀ key, v.member? key = none)
    (path hint : String) (fields : List NumericField) :
    fields.foldlM (coerceOrDrop path hint) v = pure v := by
  refine Traced.foldlM_eq_pure fun field _ => ?_
  rw [coerceOrDrop, coerceField, bare]
  rfl

/-- What becomes of a set of policies, wherever it stands. -/
theorem value_coercePolicySet_eq {v : Value} (canonical : v.canonical = v) (path : String)
    {fields : List NumericField} (names : PlainNames fields) :
    (coercePolicySet path fields v).value = v.rework (settleSet fields) := by
  cases v with
  | obj o => exact value_coercePolicySet canonical path names
  | null | bool _ | num _ | str _ | arr _ =>
    rw [coercePolicySet, foldlM_coerceOrDrop_of_not_obj fun _ => rfl]
    rfl

theorem value_coerceLoop_eq {v : Value} (canonical : v.canonical = v) (path : String) :
    (coerceLoop path v).value = v.rework (settleFields loopFields) := by
  cases v with
  | obj o => exact value_coerceLoop (sorted_of_canonical canonical) path
  | null | bool _ | num _ | str _ | arr _ =>
    rw [coerceLoop, foldlM_coerceOrDrop_of_not_obj fun _ => rfl]
    rfl

/-- What does not depend on the numbers of the items. -/
theorem map_zipIdx_fst (g : α → β) (xs : List α) : xs.zipIdx.map (fun x => g x.1) = xs.map g := by
  conv_rhs => rw [← List.zipIdx_map_fst 0 xs, List.map_map]
  rfl

/-- A step that does the same at every path makes each item what it makes of it. -/
theorem value_onItems_eq {list : String} {f : String → Value → Traced Value} {g : Value → Value}
    {v : Value} (canonical : v.canonical = v)
    (same : ∀ path u, u.canonical = u → (f path u).value = g u) :
    (onItems list f v).value = v.mapItems g := by
  cases v with
  | arr items =>
    have each : items.zipIdx.map (fun x => (f (indexed list x.2) x.1).value)
        = items.zipIdx.map fun x => g x.1 :=
      List.map_congr_left fun x hx =>
        same _ _ (Value.canonical_of_mem canonical (List.fst_mem_of_mem_zipIdx hx))
    simp only [onItems, Traced.value_bind, Traced.value_pure, Traced.value_mapM, each, map_zipIdx_fst,
      Value.mapItems]
  | null | bool _ | num _ | str _ | obj _ => rfl

theorem value_onMember (sorted : o.Sorted) (key : String) (f : Value → Traced Value) :
    (onMember key f (.obj o)).value = .obj (o.rework (atKey key fun v => some (f v).value)) := by
  rw [onMember, Value.member?]
  cases there : o.member? key with
  | none => rw [rework_atKey_of_none there]; rfl
  | some v => exact updateMember_eq_rework sorted there rfl

end Flowgraph.PolicyNumbers
