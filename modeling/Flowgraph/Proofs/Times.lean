import Flowgraph.Proofs.Coercion
import Flowgraph.Proofs.Reports
import Flowgraph.Proofs.Tolerance
import Flowgraph.Proofs.Warnings

/-! Times in milliseconds from template to executable. A time is a number of 64 bits without a sign, but it is
    straightened as one with a sign. One that such a number holds arrives in the document and in the exec
    block as it was given, without a warning. A greater one is refused with a warning, except that a number
    that a double takes for `2 ^ 63` is made the greatest number with a sign, and nothing is said. -/

namespace Flowgraph

open Json Json.Record Context PolicyNumbers Placeholder

/-- A place for a time: the timeout of an action, the first delay of its retry policy, or the timeout of the
    workflow. -/
inductive TimePlace where
  | timeout (i : Nat)
  | delay (i : Nat)
  | workflowTimeout

namespace Holder

theorem get?_apply (h : Holder) (answers : Object) (doc : Value) (key : String) :
    h.get? (apply answers doc) key = (h.get? doc key).map (apply answers) := by
  rw [get?, get?, h.find?_apply]
  cases h.find? doc with
  | none => rfl
  | some u => exact member?_apply answers u key

theorem exists_of_get? {h : Holder} {doc v : Value} {key : String} (there : h.get? doc key = some v) :
    ∃ q : Object, h.find? doc = some (.obj q) ∧ q.member? key = some v := by
  obtain ⟨u, found, there⟩ := Option.bind_eq_some_iff.mp there
  cases u with
  | obj q => exact ⟨q, found, there⟩
  | null | bool _ | num _ | str _ | arr _ => cases there

theorem canonical_of_get? {h : Holder} {doc v : Value} {key : String} (canonical : doc.canonical = doc)
    (there : h.get? doc key = some v) : v.canonical = v := by
  obtain ⟨u, found, there⟩ := Option.bind_eq_some_iff.mp there
  exact Value.canonical_of_member? (canonical_of_find? canonical found) there

end Holder

namespace TimePlace

/-- What stands there in a document. -/
def given? (doc : Value) : TimePlace → Option Value
  | .timeout i => (Holder.action i).get? doc "timeout_ms"
  | .delay i => ((Holder.action i).get? doc "retry").bind (·.member? "initial_delay_ms")
  | .workflowTimeout => Holder.policies.get? doc "timeout_ms"

/-- The path under which it is reported. -/
def path : TimePlace → String
  | .timeout i => indexed "actions" i ++ ".timeout_ms"
  | .delay i => indexed "actions" i ++ ".retry.initial_delay_ms"
  | .workflowTimeout => "policies" ++ ".timeout_ms"

/-- The time there in a workflow. -/
def inDocument (w : Workflow) : TimePlace → Option UInt64
  | .timeout i => w.actions[i]?.bind (·.timeoutMs)
  | .delay i => (w.actions[i]?.bind (·.retry)).map (·.initialDelayMs)
  | .workflowTimeout => w.policies.bind (·.timeoutMs)

/-- The time is in the exec block of its action, if the action can be resolved. -/
def InUse (c : Context) (w : Workflow) (n : UInt64) : TimePlace → Prop
  | .timeout i => ∀ a, w.actions[i]? = some a → a.Resolvable c → a.exec.map (·.timeoutMs) = some n
  | .delay i => ∀ a, w.actions[i]? = some a → a.Resolvable c →
      a.exec.map (·.retry.initialDelayMs) = some n
  | .workflowTimeout => True

/-- The numbers beside the delay of a retry policy. -/
def besideDelay : List NumericField := retryFields.filter (·.1 ≠ "initial_delay_ms")

/-- Nothing beside the time keeps it from being taken: a retry policy is left out as a whole if one of its
    other numbers is none. -/
def OthersFit (doc : Value) : TimePlace → Prop
  | .delay i => ∀ o, (Holder.action i).get? doc "retry" = some (.obj o) → settlesAll besideDelay o = true
  | .timeout _ | .workflowTimeout => True

theorem given?_apply (place : TimePlace) (answers : Object) (doc : Value) :
    place.given? (apply answers doc) = (place.given? doc).map (apply answers) := by
  cases place with
  | timeout i => exact Holder.get?_apply ..
  | workflowTimeout => exact Holder.get?_apply ..
  | delay i =>
    rw [given?, given?, Holder.get?_apply]
    cases (Holder.action i).get? doc "retry" with
    | none => rfl
    | some u => exact member?_apply answers u _

/-! ### What straightening leaves -/

theorem settlesAll_retryFields {o : Object} {v : Value} (there : o.member? "initial_delay_ms" = some v) :
    settlesAll retryFields o = (settlesAll besideDelay o && (NumericKind.uint64.settle v).isSome) := by
  simp [settlesAll, besideDelay, retryFields, there, Bool.and_assoc]

section
variable {doc v : Value} (canonical : doc.canonical = doc)
include canonical

theorem get?_retry_straightened {i : Nat} {o : Object}
    (retry : (Holder.action i).get? doc "retry" = some (.obj o)) :
    (Holder.action i).get? (straightened doc) "retry" = settleObject retryFields (.obj o) := by
  rw [Holder.get?_straightened canonical, retry]
  rfl

/-- The time is straightened, unless something beside it stands in the way. -/
theorem given?_straightened {place : TimePlace} (given : place.given? doc = some v)
    (fit : place.OthersFit doc) : place.given? (straightened doc) = NumericKind.uint64.settle v := by
  cases place with
  | timeout i =>
    rw [given?] at given ⊢
    rw [Holder.get?_straightened canonical, given]
    rfl
  | workflowTimeout =>
    rw [given?] at given ⊢
    rw [Holder.get?_straightened canonical, given]
    rfl
  | delay i =>
    rw [given?] at given ⊢
    obtain ⟨u, retry, there⟩ := Option.bind_eq_some_iff.mp given
    cases u with
    | obj o =>
      have all := settlesAll_retryFields there
      rw [fit o retry, Bool.true_and] at all
      rw [get?_retry_straightened canonical retry, settleObject, all]
      cases settled : NumericKind.uint64.settle v with
      | none => rfl
      | some w =>
        have inside : (Value.obj o).canonical = .obj o := Holder.canonical_of_get? canonical retry
        have left := (Object.sorted_of_canonical inside).member?_rework (settleFields retryFields)
          "initial_delay_ms"
        have there : Object.member? o "initial_delay_ms" = some v := there
        rw [there] at left
        exact left.trans settled
    | null | bool _ | num _ | str _ | arr _ => cases there

/-- A retry policy with another number that is none is left out. -/
theorem get?_retry_of_unfit {i : Nat} (given : (delay i).given? doc = some v)
    (unfit : ¬(delay i).OthersFit doc) : (Holder.action i).get? (straightened doc) "retry" = none := by
  rw [OthersFit] at unfit
  obtain ⟨o, unfit⟩ := Classical.not_forall.mp unfit
  obtain ⟨retry, unfit⟩ := Classical.not_imp.mp unfit
  rw [given?, retry] at given
  rw [get?_retry_straightened canonical retry, settleObject, settlesAll_retryFields given]
  simp [unfit]

end

/-! ### What is reported -/

theorem refuses_timeout {path : String} {u : Value} (fields : List NumericField)
    (timed : ("timeout_ms", .uint64) ∈ fields)
    (alone : ∀ f ∈ fields, "." ++ f.1 = ".timeout_ms" → f = ("timeout_ms", .uint64)) :
    Refuses (setNumbers path fields u) (path ++ ".timeout_ms")
      ↔ ∃ v e, present (u.member? "timeout_ms") = some v ∧ NumericKind.uint64.coerce v = .error e := by
  have policies : ∀ q ∈ objectPolicies, "." ++ q.1 ≠ ".timeout_ms" ∧
      ∀ f ∈ q.2, "." ++ q.1 ++ "." ++ f.1 ≠ ".timeout_ms" := by decide
  constructor
  · intro refuses
    rcases cases_of_refuses refuses with ⟨f, hf, same, unfit⟩ | ⟨q, hq, same | ⟨o, -, f, hf, same, -⟩⟩
    · obtain rfl := alone f hf same
      exact unfit
    · exact absurd same (policies q hq).1
    · exact absurd same ((policies q hq).2 f hf)
  · rintro ⟨v, e, there, refused⟩
    exact ⟨_, mem_setNumbers.mpr (.inl ⟨_, timed, v, there, rfl⟩), String.append_assoc .., e, refused⟩

theorem refuses_delay {path : String} {u : Value} :
    Refuses (setNumbers path actionFields u) (path ++ ".retry.initial_delay_ms")
      ↔ ∃ v e, present ((u.member? "retry").bind (·.member? "initial_delay_ms")) = some v ∧
          NumericKind.uint64.coerce v = .error e := by
  have plain : ∀ f ∈ actionFields, "." ++ f.1 ≠ ".retry.initial_delay_ms" := by decide
  have policies : ∀ q ∈ objectPolicies, "." ++ q.1 ≠ ".retry.initial_delay_ms" ∧
      ∀ f ∈ q.2, "." ++ q.1 ++ "." ++ f.1 = ".retry.initial_delay_ms" →
        q.1 = "retry" ∧ f = ("initial_delay_ms", .uint64) := by decide
  constructor
  · intro refuses
    rcases cases_of_refuses refuses with
      ⟨f, hf, same, -⟩ | ⟨q, hq, same | ⟨o, retry, f, hf, same, v, e, there, refused⟩⟩
    · exact absurd same (plain f hf)
    · exact absurd same (policies q hq).1
    · obtain ⟨name, rfl⟩ := (policies q hq).2 f hf same
      rw [name] at retry
      exact ⟨v, e, by rw [retry]; exact there, refused⟩
  · rintro ⟨v, e, there, refused⟩
    have given : (u.member? "retry").bind (·.member? "initial_delay_ms") = some v :=
      (Option.filter_eq_some_iff.mp there).1
    obtain ⟨r, retry, delay⟩ := Option.bind_eq_some_iff.mp given
    cases r with
    | obj o =>
      rw [retry] at there
      refine ⟨⟨path ++ "." ++ "retry" ++ "." ++ "initial_delay_ms", nextSourceHint, _⟩,
        mem_setNumbers.mpr (.inr ⟨("retry", retryFields), by simp [objectPolicies], ?_⟩), ?_, e, refused⟩
      · rw [policyNumbers, retry]
        exact mem_numbers.mpr ⟨("initial_delay_ms", .uint64), by decide, v, there, rfl⟩
      · simp only [String.append_assoc]
        rfl
    | null | bool _ | num _ | str _ | arr _ => cases delay

/-- A time is reported just if it has not the form of a whole number. -/
theorem reportsUnfit_refusals (place : TimePlace) (doc : Value) :
    ReportsUnfit (refusals (listed doc)) place.path
      ↔ ∃ v e, present (place.given? doc) = some v ∧ NumericKind.uint64.coerce v = .error e := by
  have inside (h : Holder) (g : Value → Option Value) :
      (∃ u, h.find? doc = some u ∧ ∃ v e, present (g u) = some v ∧ NumericKind.uint64.coerce v = .error e)
        ↔ ∃ v e, present ((h.find? doc).bind g) = some v ∧ NumericKind.uint64.coerce v = .error e := by
    cases h.find? doc with
    | none => simp [present]
    | some u => simp
  cases place with
  | timeout i =>
    refine Iff.trans (Holder.reportsUnfit_refusals (h := .action i)) ?_
    simp only [Holder.listed, Holder.path, refuses_timeout actionFields (by decide) (by decide)]
    exact inside (.action i) _
  | delay i =>
    refine Iff.trans (Holder.reportsUnfit_refusals (h := .action i)) ?_
    simp only [Holder.listed, Holder.path, refuses_delay]
    rw [inside, given?, Holder.get?]
    cases (Holder.action i).find? doc <;> rfl
  | workflowTimeout =>
    refine Iff.trans (Holder.reportsUnfit_refusals (h := .policies)) ?_
    simp only [Holder.listed, Holder.path, refuses_timeout policiesFields (by decide) (by decide)]
    exact inside .policies _

/-- Parameters are reported in other places. -/
theorem not_reportsUnfit_resolve (place : TimePlace) (c : Context) (w : Workflow) :
    ¬ReportsUnfit (c.resolve w).log.warnings place.path := by
  rintro ⟨d, mem, -, same⟩
  rcases mem_warnings_resolve.mp mem with ⟨j, t, -, mem⟩ | ⟨j, a, -, mem⟩
  · obtain ⟨-, m, -, param⟩ := warnings_resolveTrigger _ _ _ _ d mem
    have paths := same.symm.trans param
    rw [String.append_assoc] at paths
    have apart {b : String} {x : Char} (first : b.toList[0]? = some x) (other : x ≠ 't') (s s' : String) :
        b ++ s ≠ indexed "triggers" j ++ s' :=
      append_ne_of_letter first (getElem?_indexed rfl j) other s s'
    cases place with
    | timeout i => exact apart (getElem?_indexed rfl i) (by decide) _ _ paths
    | delay i => exact apart (getElem?_indexed rfl i) (by decide) _ _ paths
    | workflowTimeout => exact apart rfl (by decide) _ _ paths
  · obtain ⟨-, name, input⟩ := warnings_resolveAction _ _ d mem
    rw [same, String.append_assoc, String.append_assoc] at input
    -- the texts behind the number of the action part at some letter
    have apart {b b' : String} {x y : Char} {k : Nat} (here : b.toList[k]? = some x)
        (there : b'.toList[k]? = some y) (other : x ≠ y) : b ≠ b' ++ name := by
      have := append_ne_of_letter here there other "" name
      rwa [String.append_empty] at this
    cases place with
    | timeout i =>
      rcases input with input | input
      · exact apart (k := 1) rfl rfl (by decide) (indexed_append_inj input).2
      · exact apart (k := 1) rfl rfl (by decide) (indexed_append_inj input).2
    | delay i =>
      rcases input with input | input
      · exact apart (k := 3) rfl rfl (by decide) (indexed_append_inj input).2
      · exact apart (k := 1) rfl rfl (by decide) (indexed_append_inj input).2
    | workflowTimeout =>
      have apart (s : String) : "policies" ++ ".timeout_ms" ≠ indexed "actions" j ++ s :=
        append_ne_of_letter (i := 0) rfl (getElem?_indexed rfl j) (by decide) _ s
      rcases input with input | input
      · exact apart _ input
      · exact apart _ input

/-! ### What is read -/

/-- A time that is read from a number is this number. -/
theorem toNat_of_decode {p : Place} (hp : p.origin ≠ .text) {k : Int} {n : UInt64}
    (read : Codec.lenientUInt64.decode p (Value.num (.int k)).toTree = .ok n) : (n.toNat : Int) = k := by
  rcases spells_of_lenientUInt64 hp read with ⟨same, -⟩ | ⟨s, same, -⟩
  · cases same
    rfl
  · cases same

section
variable {p : Place} (hp : p.origin ≠ .text) {q : Object} (canonical : (Value.obj q).canonical = .obj q)
  {retry : Option RetryPolicy} {timeoutMs : Option UInt64} {limit : Option RateLimit}
  (reads : ReadsPolicies p q retry timeoutMs limit)
include hp canonical reads

theorem exists_timeout {k : Int} (there : q.member? "timeout_ms" = some (.num (.int k))) :
    ∃ n, timeoutMs = some n ∧ (n.toNat : Int) = k := by
  have read := reads.timeoutMs
  rw [(Object.sorted_of_canonical canonical).under, there] at read
  rcases read with ⟨other, -⟩ | ⟨v, same, read⟩
  · cases other
  · cases same
    rcases Decoder.optional_eq_ok.mp read with ⟨other, -⟩ | ⟨-, n, decoded, rfl⟩
    · cases other
    · exact ⟨n, rfl, toNat_of_decode hp decoded⟩

theorem exists_delay {o : Object} {k : Int} (there : q.member? "retry" = some (.obj o))
    (delay : o.member? "initial_delay_ms" = some (.num (.int k))) :
    ∃ r, retry = some r ∧ (r.initialDelayMs.toNat : Int) = k := by
  have read := reads.retry
  rw [(Object.sorted_of_canonical canonical).under, there] at read
  obtain ⟨r, rfl, decoded⟩ := decode_of_readsMaybe (by simp) read
  have inside := Object.sorted_of_canonical (Value.canonical_of_member? canonical there)
  have first := ((RetryPolicy.decode_eq_ok hp).mp decoded).initialDelayMs
  rw [inside.under, delay] at first
  rcases first with ⟨other, -⟩ | ⟨v, same, decoded⟩
  · cases other
  · cases same
    exact ⟨r, rfl, toNat_of_decode hp decoded⟩

end

theorem retry_eq_none {p : Place} {q : Object} (sorted : q.Sorted) {retry : Option RetryPolicy}
    {timeoutMs : Option UInt64} {limit : Option RateLimit} (reads : ReadsPolicies p q retry timeoutMs limit)
    (absent : q.member? "retry" = none) : retry = none := by
  have read := reads.retry
  rw [sorted.under, absent] at read
  rcases read with ⟨-, void⟩ | ⟨v, other, -⟩
  · exact void.symm
  · cases other

section
variable {doc : Value} {w : Workflow} (canonical : doc.canonical = doc)
  (read : Workflow.ofValue doc = .ok w)
include canonical read

theorem exists_action {i : Nat} {q : Object} (found : (Holder.action i).find? doc = some (.obj q)) :
    ∃ a, w.actions[i]? = some a ∧ ReadsPolicies entityPlace.inner q a.retry a.timeoutMs a.rateLimit := by
  obtain ⟨o, rfl, -⟩ := Workflow.readFrom_of_ofValue read
  have settings := Workflow.readsSettings_of_ofValue (Object.sorted_of_canonical canonical) read
  obtain ⟨items, one, each⟩ := settings.actions
  rw [Holder.find?, Value.itemsAt, Value.member?, Object.member?_of_under one] at found
  obtain ⟨a, there, decoded⟩ := exists_of_forall₂ each found
  exact ⟨a, there, Action.readsPolicies_of_decode (by decide) decoded⟩

theorem exists_policies {q : Object} (found : Holder.policies.find? doc = some (.obj q)) :
    ∃ r, w.policies = some r ∧
      ReadsPolicies (Place.inner ⟨.value, 1⟩) q r.retry r.timeoutMs r.rateLimit := by
  obtain ⟨o, rfl, -⟩ := Workflow.readFrom_of_ofValue read
  obtain ⟨r, decoded, put⟩ := Holder.exists_reads canonical read found
  exact ⟨r, (congrArg Workflow.policies put).symm, ((Policies.decode_eq_ok (by decide)).mp decoded).1⟩

/-- A time that stands in a document as a number is read as this number. -/
theorem exists_inDocument {place : TimePlace} {k : Int}
    (given : place.given? doc = some (.num (.int k))) :
    ∃ n, place.inDocument w = some n ∧ (n.toNat : Int) = k := by
  cases place with
  | timeout i =>
    obtain ⟨q, found, there⟩ := Holder.exists_of_get? given
    obtain ⟨a, listed, reads⟩ := exists_action canonical read found
    obtain ⟨n, same, value⟩ := exists_timeout (by decide) (Holder.canonical_of_find? canonical found) reads
      there
    exact ⟨n, by rw [inDocument, listed, Option.bind_some, same], value⟩
  | delay i =>
    obtain ⟨v, retry, delay⟩ := Option.bind_eq_some_iff.mp given
    obtain ⟨q, found, there⟩ := Holder.exists_of_get? retry
    obtain ⟨a, listed, reads⟩ := exists_action canonical read found
    cases v with
    | obj o =>
      obtain ⟨r, same, value⟩ := exists_delay (by decide) (Holder.canonical_of_find? canonical found) reads
        there delay
      exact ⟨_, by rw [inDocument, listed, Option.bind_some, same, Option.map_some], value⟩
    | null | bool _ | num _ | str _ | arr _ => cases delay
  | workflowTimeout =>
    obtain ⟨q, found, there⟩ := Holder.exists_of_get? given
    obtain ⟨r, set, reads⟩ := exists_policies canonical read found
    obtain ⟨n, same, value⟩ := exists_timeout (by decide) (Holder.canonical_of_find? canonical found) reads
      there
    exact ⟨n, by rw [inDocument, set, Option.bind_some, same], value⟩

/-- Without a retry policy there is no delay. -/
theorem inDocument_delay_eq_none {i : Nat} {q : Object}
    (found : (Holder.action i).find? doc = some (.obj q)) (absent : q.member? "retry" = none) :
    (delay i).inDocument w = none := by
  obtain ⟨a, there, reads⟩ := exists_action canonical read found
  have inside := Object.sorted_of_canonical (Holder.canonical_of_find? canonical found)
  rw [inDocument, there, Option.bind_some, retry_eq_none inside reads absent]
  rfl

end

/-! ### What is resolved -/

theorem exists_exec_resolveAction (c : Context) (path : String) (a : Action) :
    ∃ exec, (c.resolveAction path a).value = { a with exec := exec } := by
  rcases c.resolveAction_cases path a with ⟨-, same⟩ | ⟨hit, id, -, -, same⟩
  · exact ⟨a.exec, same⟩
  · exact ⟨_, same⟩

/-- Resolving leaves the policies of actions as they are. -/
theorem inDocument_resolve_action (c : Context) (w : Workflow) {place : TimePlace}
    (action : place ≠ .workflowTimeout) : place.inDocument (c.resolve w).value = place.inDocument w := by
  cases place with
  | workflowTimeout => exact absurd rfl action
  | timeout i | delay i =>
    rw [inDocument, inDocument, getElem?_actions_resolve]
    cases w.actions[i]? with
    | none => rfl
    | some a =>
      obtain ⟨exec, same⟩ := exists_exec_resolveAction c (indexed "actions" i) a
      simp [same]

theorem inDocument_resolve (c : Context) {w : Workflow} {place : TimePlace} {n : UInt64}
    (there : place.inDocument w = some n) : place.inDocument (c.resolve w).value = some n := by
  by_cases action : place = .workflowTimeout
  · subst action
    obtain ⟨r, set, timed⟩ := Option.bind_eq_some_iff.mp there
    rw [inDocument, value_resolve, injectDefaults]
    split
    · simp [set, timed]
    · simp [set, timed, Policies.fillFrom]
  · rw [inDocument_resolve_action c w action, there]

/-- An action uses the times that it sets itself. -/
theorem inUse_resolve (c : Context) {w : Workflow} {place : TimePlace} {n : UInt64}
    (there : place.inDocument w = some n) : place.InUse c (c.resolve w).value n := by
  have equipped {i : Nat} {a' : Action} (listed : (c.resolve w).value.actions[i]? = some a')
      (resolvable : a'.Resolvable c) : ∃ a hit id, w.actions[i]? = some a ∧
        a'.exec = some (c.actionExec (indexed "actions" i) a hit id).value := by
    rw [getElem?_actions_resolve] at listed
    obtain ⟨a, given, rfl⟩ := Option.map_eq_some_iff.mp listed
    rcases c.resolveAction_cases (indexed "actions" i) a with ⟨failed, same⟩ | ⟨hit, id, -, -, same⟩
    · rw [same] at resolvable
      exact absurd resolvable failed
    · exact ⟨a, hit, id, given, by rw [same]⟩
  cases place with
  | timeout i =>
    intro a' listed resolvable
    obtain ⟨a, hit, id, given, exec⟩ := equipped listed resolvable
    rw [inDocument, given, Option.bind_some] at there
    simp [exec, actionExec, there]
  | delay i =>
    intro a' listed resolvable
    obtain ⟨a, hit, id, given, exec⟩ := equipped listed resolvable
    rw [inDocument, given, Option.bind_some] at there
    obtain ⟨r, retry, rfl⟩ := Option.map_eq_some_iff.mp there
    simp [exec, actionExec, retry]
  | workflowTimeout => trivial

/-- What stands in the way of a time takes it out of the document. -/
theorem inDocument_of_unfit {c : Context} {doc v : Value} {w : Workflow} (canonical : doc.canonical = doc)
    (read : Workflow.ofValue (straightened doc) = .ok w) {place : TimePlace}
    (given : place.given? doc = some v) (unfit : ¬place.OthersFit doc) :
    place.inDocument (c.resolve w).value = none := by
  cases place with
  | timeout _ | workflowTimeout => exact absurd trivial unfit
  | delay i =>
    obtain ⟨u, retry, -⟩ := Option.bind_eq_some_iff.mp given
    obtain ⟨q, found, -⟩ := Holder.exists_of_get? retry
    have dropped := get?_retry_of_unfit canonical given unfit
    have found : (Holder.action i).find? (straightened doc)
        = some (.obj (q.rework (Holder.action i).settle)) := by
      rw [Holder.find?_straightened, found]
      rfl
    rw [Holder.get?, found] at dropped
    rw [inDocument_resolve_action c w (by simp)]
    exact inDocument_delay_eq_none (canonical_straightened canonical) read found dropped

/-! ### Times as they are written -/

/-- The value is the number, or its decimal text. -/
def Writes (n : UInt64) (v : Value) : Prop :=
  v = .int n.toNat ∨ v = .str (Number.text (.int n.toNat))

section
variable {n : UInt64} {v : Value} (written : Writes n v)
include written

/-- A time is taken as it is, or for its neighbour, or refused. -/
theorem coerce_of_writes :
    (n.toNat : Int) ≤ int64Max ∧ NumericKind.uint64.coerce v = .ok (.int n.toNat) ∨
    int64Max < n.toNat ∧ v = .int n.toNat ∧ (n.toNat : Int) ≤ int64Max + 1025 ∧
      NumericKind.uint64.coerce v = .ok (.int int64Max) ∨
    int64Max < n.toNat ∧ (v = .int n.toNat → int64Max + 1025 < n.toNat) ∧
      ∃ e, NumericKind.uint64.coerce v = .error e := by
  have small : (n.toNat : Int) ≤ uint64Max := Int.ofNat_le.mpr (Nat.le_of_lt_succ n.toNat_lt)
  have low : int64Min ≤ (n.toNat : Int) := Int.le_trans (by decide) (Int.natCast_nonneg _)
  have taken {k : Int} (made : Coercion.coerce v .integer = .ok (.int k)) (low : 0 ≤ k)
      (high : k ≤ uint64Max) : NumericKind.uint64.coerce v = .ok (.int k) := by
    simp [NumericKind.coerce, coerceNatural, made, Value.int, low, high]
  have refused {e : CoercionError} (made : Coercion.coerce v .integer = .error e) :
      ∃ e, NumericKind.uint64.coerce v = .error e := ⟨e, by simp [NumericKind.coerce, coerceNatural, made]⟩
  rcases written with rfl | rfl
  · have made := Coercion.coerce_integer_int low small
    rcases Int.lt_or_le int64Max n.toNat with beyond | fits
    · rcases Int.lt_or_le (int64Max + 1025) n.toNat with far | near
      · rw [if_neg (by omega)] at made
        exact .inr (.inr ⟨beyond, fun _ => far, refused made⟩)
      · rw [if_pos near, Int.min_eq_right (Int.le_of_lt beyond)] at made
        exact .inr (.inl ⟨beyond, rfl, near, taken made (by decide) (by decide)⟩)
    · rw [if_pos (by omega), Int.min_eq_left fits] at made
      exact .inl ⟨fits, taken made (Int.natCast_nonneg _) small⟩
  · have made := Coercion.coerce_integer_text n.toNat
    rcases Int.lt_or_le int64Max n.toNat with beyond | fits
    · rw [if_neg (by omega)] at made
      have other : Value.str (Number.text (.int n.toNat)) ≠ .int n.toNat := by simp [Value.int]
      exact .inr (.inr ⟨beyond, fun same => absurd same other, refused made⟩)
    · rw [if_pos ⟨low, fits⟩] at made
      exact .inl ⟨fits, taken made (Int.natCast_nonneg _) small⟩

theorem present_of_writes : present (some v) = some v := by
  rcases written with rfl | rfl <;> rfl

theorem settle_of_writes : NumericKind.uint64.settle v = (NumericKind.uint64.coerce v).toOption := by
  rcases written with rfl | rfl <;> rfl

/-- Answers have no part in it. -/
theorem apply_of_writes (answers : Object) : apply answers v = v := by
  rcases written with rfl | rfl
  · rfl
  · have plain : '{' ∉ (Number.text (.int n.toNat)).toList := Numeral.brace_not_mem_repr n.toNat
    rw [apply_str, render_of_plain plain]

end

end TimePlace

/-! ### What is handed out -/

/-- Repairs that record each change. -/
def RepairStrategy.Records (repair : RepairStrategy) : Prop :=
  ∀ w log, (repair w log).2 = [] → (repair w log).1 = w

theorem RepairStrategy.dropUnresolved_records : dropUnresolved.Records := by
  intro w log nothing
  have complete : w.Runnable := Workflow.missingExec_eq_nil.mp (List.map_eq_nil_iff.mp nothing)
  have triggers : w.triggers.filter (·.exec.isSome) = w.triggers := List.filter_eq_self.mpr complete.triggers
  have actions : w.actions.filter (·.exec.isSome) = w.actions := List.filter_eq_self.mpr complete.actions
  rw [dropUnresolved, triggers, actions]

namespace Materializer

open TimePlace

/-- A document without a record of repairs is the template, resolved. -/
theorem exists_of_unmended {m : Materializer} {template : Value} {c : Context} {d : Workflow}
    (records : m.repair.Records) (made : (m.compile template c).document = some d)
    (unmended : (m.compile template c).diagnostics.repairs = []) :
    ∃ w, (validate template).value = true ∧ Workflow.ofValue (prepare template c.answers).value = .ok w ∧
      d = (c.resolve w).value := by
  have valid : (validate template).value = true := validate_of_compile (by rw [made]; rfl)
  obtain ⟨w, -, read, -⟩ := exists_of_compile_eq_some made
  rw [compile_of_read m valid read] at made unmended
  rw [repairs_finish] at unmended
  exact ⟨w, valid, read, (document_finish made).1.trans (records _ _ (List.append_eq_nil_iff.mp unmended).2)⟩

section
variable {template : Value} {c : Context} {w : Workflow} {place : TimePlace} {n : UInt64} {v : Value}
  (read : Workflow.ofValue (prepare template c.answers).value = .ok w)
  (given : place.given? template = some v) (written : Writes n v)
include given written

theorem given?_filled (answers : Object) : place.given? (apply answers template) = some v := by
  rw [given?_apply, given, Option.map_some, apply_of_writes written]

include read

/-- A time is reported just if it cannot be straightened. -/
theorem reportsUnfit_time (m : Materializer) (valid : (validate template).value = true) :
    ReportsUnfit (m.compile template c).diagnostics.warnings place.path
      ↔ ∃ e, NumericKind.uint64.coerce v = .error e := by
  rw [reportsUnfit_compile m valid read, or_iff_left (not_reportsUnfit_resolve place c w),
    reportsUnfit_refusals, given?_filled given written, present_of_writes written]
  simp

variable (canonical : template.canonical = template)
include canonical

/-- What a time is straightened to is in the document and in use. -/
theorem inDocument_of_taken {k : Int} (fit : place.OthersFit (apply c.answers template))
    (taken : NumericKind.uint64.coerce v = .ok (.int k)) :
    ∃ u : UInt64, place.inDocument (c.resolve w).value = some u ∧ place.InUse c (c.resolve w).value u ∧
      (u.toNat : Int) = k := by
  have filled := canonical_filled canonical c.answers
  rw [value_prepare canonical] at read
  have straight : place.given? (straightened (apply c.answers template)) = some (.int k) := by
    rw [given?_straightened filled (given?_filled given written _) fit, settle_of_writes written, taken]
    rfl
  obtain ⟨u, there, value⟩ := exists_inDocument (canonical_straightened filled) read straight
  exact ⟨u, inDocument_resolve c there, inUse_resolve c there, value⟩

theorem othersFit_of_inDocument (kept : place.inDocument (c.resolve w).value = some n) :
    place.OthersFit (apply c.answers template) := by
  have filled := canonical_filled canonical c.answers
  rw [value_prepare canonical] at read
  by_contra unfit
  rw [inDocument_of_unfit filled read (given?_filled given written _) unfit] at kept
  cases kept

end

/-- A time that a template gives, as a number or as its decimal text, is in the unmended document and in the
    exec block and is not reported, just if 63 bits hold it and nothing beside it stands in the way. A greater
    one is reported, but for a number up to `2 ^ 63 + 1024`, which is given up without a report. -/
theorem keeps_time_iff (m : Materializer) (template : Value) (c : Context) (d : Workflow)
    (records : m.repair.Records) (canonical : template.canonical = template)
    (made : (m.compile template c).document = some d)
    (unmended : (m.compile template c).diagnostics.repairs = []) (place : TimePlace) (n : UInt64)
    (v : Value) (given : place.given? template = some v) (written : Writes n v) :
    (place.inDocument d = some n ∧ place.InUse c d n ∧
        ¬ReportsUnfit (m.compile template c).diagnostics.warnings place.path ↔
      (n.toNat : Int) ≤ int64Max ∧ place.OthersFit (apply c.answers template)) ∧
    (ReportsUnfit (m.compile template c).diagnostics.warnings place.path ↔
      int64Max < n.toNat ∧ (v = .int n.toNat → int64Max + 1025 < n.toNat)) := by
  obtain ⟨w, valid, read, rfl⟩ := exists_of_unmended records made unmended
  have reported := reportsUnfit_time read given written m valid
  refine ⟨⟨?_, ?_⟩, ?_⟩
  · rintro ⟨kept, -, silent⟩
    have fit := othersFit_of_inDocument read given written canonical kept
    refine ⟨?_, fit⟩
    rcases coerce_of_writes written with ⟨fits, -⟩ | ⟨beyond, -, -, taken⟩ | ⟨-, -, refused⟩
    · exact fits
    · -- the neighbour is in the document, so the time is not
      obtain ⟨u, there, -, value⟩ := inDocument_of_taken read given written canonical fit taken
      cases there.symm.trans kept
      omega
    · exact absurd (reported.mpr refused) silent
  · rintro ⟨fits, fit⟩
    rcases coerce_of_writes written with ⟨-, taken⟩ | ⟨beyond, -⟩ | ⟨beyond, -⟩
    · obtain ⟨u, there, used, value⟩ := inDocument_of_taken read given written canonical fit taken
      obtain rfl : u = n := UInt64.toNat_inj.mp (Int.ofNat.inj value)
      refine ⟨there, used, fun unfit => ?_⟩
      obtain ⟨e, refused⟩ := reported.mp unfit
      cases taken.symm.trans refused
    · omega
    · omega
  · rw [reported]
    rcases coerce_of_writes written with ⟨fits, taken⟩ | ⟨-, number, near, taken⟩ | ⟨beyond, far, refused⟩
    · exact iff_of_false (by simp [taken]) (by omega)
    · exact iff_of_false (by simp [taken]) fun gone => by have := gone.2 number; omega
    · exact iff_of_true refused ⟨beyond, far⟩

/-- An action with the given policies, in a workflow with the given ones. -/
def timedTemplate (own all : Object) : Value :=
  .obj [("actions", .arr [.obj ([("action_ref", .str "m2"), ("local_id", .str "a1"),
      ("required_inputs", .obj [("to", .str "x")])] ++ own ++ [("toolkit_slug", .str "mail")])]),
    ("policies", .obj all), ("triggers", .arr []), ("version", .int 1), ("workflow_id", .str "w")]

/-- The greatest time of 63 bits as a text and as a number, and the greatest of 64 bits. -/
def longTimes : Value :=
  timedTemplate [("retry", .obj [("initial_delay_ms", .int 9223372036854775807), ("max_attempts", .str "4")]),
    ("timeout_ms", .str "9223372036854775807")] [("timeout_ms", .int 18446744073709551615)]

/-- The first two are kept, and the last is reported. -/
theorem keeps_time_iff_greatest :
    ∃ d, (compile ⟨.dropUnresolved, .standard⟩ longTimes officeContext).document = some d ∧
      (timeout 0).inDocument d = some (.ofNat 9223372036854775807) ∧
      (timeout 0).InUse officeContext d (.ofNat 9223372036854775807) ∧
      (delay 0).inDocument d = some (.ofNat 9223372036854775807) ∧
      (delay 0).InUse officeContext d (.ofNat 9223372036854775807) ∧
      ReportsUnfit (compile ⟨.dropUnresolved, .standard⟩ longTimes officeContext).diagnostics.warnings
        workflowTimeout.path := by
  have compiled : (compile ⟨.dropUnresolved, .standard⟩ longTimes officeContext).document.isSome = true := by
    decide +kernel
  obtain ⟨d, made⟩ := Option.isSome_iff_exists.mp compiled
  have retry : (Holder.action 0).get? (apply officeContext.answers longTimes) "retry"
      = some (.obj [("initial_delay_ms", .int 9223372036854775807), ("max_attempts", .str "4")]) := by rfl
  have keeps := keeps_time_iff ⟨.dropUnresolved, .standard⟩ longTimes officeContext d
    RepairStrategy.dropUnresolved_records (by decide +kernel) made (by decide +kernel)
  have text := (keeps (timeout 0) (.ofNat 9223372036854775807) (.str "9223372036854775807") (by rfl)
    (.inr (by decide +kernel))).1.mpr ⟨by decide +kernel, trivial⟩
  have number := (keeps (delay 0) (.ofNat 9223372036854775807) (.int 9223372036854775807) (by rfl)
    (.inl (by decide +kernel))).1.mpr ⟨by decide +kernel, fun o there => by
      cases there.symm.trans retry
      decide +kernel⟩
  have refused := (keeps workflowTimeout (.ofNat 18446744073709551615) (.int 18446744073709551615) (by rfl)
    (.inl (by decide +kernel))).2.mpr ⟨by decide +kernel, fun _ => by decide +kernel⟩
  exact ⟨d, made, text.1, text.2.1, number.1, number.2.1, refused⟩

/-- The least time of 64 bits is another one in the document and in the exec block, without a warning. -/
theorem compile_alters_least_long_time :
    (standard.compile (timedTemplate [("timeout_ms", .int 9223372036854775808)] [])
        officeContext).document.map (fun d => d.actions.map fun a => (a.timeoutMs, a.exec.map (·.timeoutMs)))
      = some [(some 9223372036854775807, some 9223372036854775807)] ∧
    (standard.compile (timedTemplate [("timeout_ms", .int 9223372036854775808)] [])
        officeContext).diagnostics.warnings = [] := by
  decide +kernel

end Materializer

end Flowgraph
