import Flowgraph.Proofs.Json.Trails
import Flowgraph.Proofs.Text
import Flowgraph.Proofs.Traced
import Flowgraph.Secret

/-! What the scanner points out. It meets every member of a document once, in document order, but for those named
    `exec` and what is inside of them, and points out those with a long text under a key that sounds like a
    credential. More words or a lesser length can only add to this. -/

namespace Flowgraph

open Json

/-! ### Trails to members -/

namespace Json.Trail

/-- Of a trail to a member, the trail to the object and the key in it. -/
def member? : Trail → Option (Trail × String)
  | [] => none
  | [.member key] => some ([], key)
  | [.item _] => none
  | step :: next :: t => (member? (next :: t)).map fun m => (step :: m.1, m.2)

theorem member?_cons {t : Trail} (longer : t ≠ []) (step : Step) :
    member? (step :: t) = (member? t).map fun m => (step :: m.1, m.2) := by
  cases t with
  | nil => exact absurd rfl longer
  | cons next t => cases step <;> rfl

theorem member?_eq_some_iff {t parent : Trail} {key : String} :
    member? t = some (parent, key) ↔ t = parent ++ [.member key] := by
  induction t generalizing parent with
  | nil => simp [member?]
  | cons step t ih =>
    by_cases last : t = []
    · subst last
      cases parent with
      | nil => cases step <;> simp [member?]
      | cons first parent => cases step <;> simp [member?]
    · rw [member?_cons last, Option.map_eq_some_iff]
      cases parent with
      | nil => simp [last]
      | cons first parent =>
        rw [List.cons_append, List.cons.injEq, ← ih]
        constructor
        · rintro ⟨⟨parent', key'⟩, found, same⟩
          cases same
          exact ⟨rfl, found⟩
        · rintro ⟨rfl, found⟩
          exact ⟨(parent, key), found, rfl⟩

end Json.Trail

namespace SecretScanner

/-! ### The members pointed out -/

/-- The warning for a member, given the object it is in and its key. -/
def warningAt (base : String) (m : Trail × String) : Diagnostic :=
  ⟨.potentialSecret, Trail.path base (m.1 ++ [.member m.2]), "Field '" ++ m.2 ++ "' looks like an inline secret",
    some "Store credentials in a connection instead of the workflow"⟩

/-- The object and the key of what is pointed out at a spot, if it is a member and one to be pointed out. -/
def pointed? (s : SecretScanner) (spot : Trail × Value) : Option (Trail × String) :=
  if .member "exec" ∈ spot.1 then none
  else (Trail.member? spot.1).filter fun m => s.isSensitiveKey m.2 && s.isSecret spot.2

section
variable (s : SecretScanner)

theorem pointed?_eq_some_iff {spot : Trail × Value} {parent : Trail} {key : String} :
    s.pointed? spot = some (parent, key) ↔
      spot.1 = parent ++ [.member key] ∧ .member "exec" ∉ spot.1 ∧
        s.isSensitiveKey key = true ∧ s.isSecret spot.2 = true := by
  rw [pointed?, Option.ite_none_left_eq_some, Option.filter_eq_some_iff, Trail.member?_eq_some_iff,
    Bool.and_eq_true]
  exact and_left_comm

/-- A step further off, the same is pointed out, unless the step leads into an `exec` block. -/
theorem pointed?_into (step : Step) {spot : Trail × Value} (inner : spot.1 ≠ []) :
    s.pointed? (step.into spot)
      = if step = .member "exec" then none else (s.pointed? spot).map fun m => (step :: m.1, m.2) := by
  simp only [pointed?, Step.into, Trail.member?_cons inner, List.mem_cons]
  by_cases here : step = .member "exec"
  · rw [if_pos (.inl here.symm), if_pos here]
  · by_cases there : .member "exec" ∈ spot.1
    · rw [if_pos (.inr there), if_neg here, if_pos there]
      rfl
    · rw [if_neg (by simp [Ne.symm here, there]), if_neg here, if_neg there]
      cases Trail.member? spot.1 with
      | none => rfl
      | some m => simp [Option.filter, apply_ite]

/-- What is pointed out one step further off: what the step leads to, if this is a member to be pointed out, then
    what is pointed out inside of it. -/
theorem filterMap_spots_into (step : Step) (base : String) (v : Value) :
    ((v.spots.map step.into).filterMap s.pointed?).map (warningAt base)
      = if step = .member "exec" then []
        else (s.pointed? ([step], v)).toList.map (warningAt base) ++
          (v.inside.filterMap s.pointed?).map (warningAt (step.below base)) := by
  have deeper : (v.inside.map step.into).filterMap s.pointed?
      = if step = .member "exec" then []
        else (v.inside.filterMap s.pointed?).map fun m => (step :: m.1, m.2) := by
    rw [List.filterMap_map, List.map_filterMap]
    by_cases exec : step = .member "exec"
    · rw [if_pos exec, List.filterMap_eq_nil_iff]
      intro spot mem
      simpa [exec] using s.pointed?_into step (Value.ne_nil_of_mem_inside mem)
    · rw [if_neg exec]
      refine List.filterMap_congr fun spot mem => ?_
      simpa [exec] using s.pointed?_into step (Value.ne_nil_of_mem_inside mem)
  rw [Value.spots, List.map_cons, List.filterMap_cons, Step.into, deeper]
  by_cases exec : step = .member "exec"
  · simp [exec, pointed?]
  · simp only [if_neg exec]
    cases s.pointed? ([step], v) with
    | none => simp [Function.comp_def, warningAt]
    | some m => simp [Function.comp_def, warningAt]

/-- A member is checked on its own. -/
theorem check_eq {key : String} (scanned : key ≠ "exec") (base : String) (v : Value) :
    s.check key (Path.below base key) v
      = (s.pointed? ([.member key], v)).toList.map (warningAt base) := by
  have outside : .member "exec" ∉ [Step.member key] := by simpa using scanned.symm
  rw [check, pointed?, if_neg outside, Trail.member?, Option.filter]
  cases s.isSensitiveKey key && s.isSecret v <;> rfl

/-- The findings in a value are the warnings for the members that are pointed out, in document order. -/
theorem findings_eq (base : String) (v : Value) :
    s.findings base v = (v.inside.filterMap s.pointed?).map (warningAt base) := by
  induction v using Value.induction generalizing base with
  | null | bool _ | num _ | str _ => rfl
  | arr items ih =>
    rw [findings, Value.inside]
    generalize 0 = i
    induction items generalizing i with
    | nil => rfl
    | cons v vs more =>
      rw [itemFindings, Value.insideItems, List.filterMap_append, List.map_append,
        more (fun u mem => ih u (List.mem_cons_of_mem v mem)), ih v List.mem_cons_self, ← Value.spots,
        filterMap_spots_into, if_neg (by simp)]
      rfl
  | obj members ih =>
    rw [findings, Value.inside]
    induction members with
    | nil => rfl
    | cons m ms more =>
      obtain ⟨key, v⟩ := m
      rw [memberFindings, Value.insideMembers, List.filterMap_append, List.map_append,
        more (fun u mem => ih u (List.mem_cons_of_mem _ mem)), ← Value.spots, filterMap_spots_into]
      by_cases exec : key = "exec"
      · rw [if_pos exec, if_pos (congrArg Step.member exec)]
      · have step : ¬Step.member key = .member "exec" := fun same => exec (Step.member.inj same)
        rw [if_neg exec, if_neg step, s.check_eq exec, ih _ List.mem_cons_self]
        rfl

end

/-! ### Which members these are -/

/-- The usual scanner with further words, and with the length that a text has to exceed. -/
def configured (words : List String) (n : Nat) : SecretScanner :=
  (words.foldl withKeyword standard).withMinLength n

theorem keywords_configured (words : List String) (n : Nat) :
    (configured words n).keywords = (standard.keywords ++ words).map Text.lowercase := by
  have added (s : SecretScanner) :
      (words.foldl withKeyword s).keywords = s.keywords ++ words.map Text.lowercase := by
    induction words generalizing s with
    | nil => simp
    | cons word words ih => simp [ih, withKeyword]
  have small : standard.keywords.map Text.lowercase = standard.keywords := by decide +kernel
  rw [configured, withMinLength, added, List.map_append, small]

theorem isSensitiveKey_configured {words : List String} {n : Nat} {key : String} :
    (configured words n).isSensitiveKey key = true ↔ ∃ word ∈ standard.keywords ++ words,
      (Text.lowercase word).toList <:+: (Text.lowercase key).toList := by
  rw [isSensitiveKey, keywords_configured, List.any_map, List.any_eq_true]
  exact exists_congr fun word => and_congr_right fun _ => Text.contains_iff ..

/-- A member holds what looks like a secret: it is not in an `exec` block, its key contains one of the words,
    whatever their case, and its text is long enough and no bare placeholder. -/
structure Exposes (words : List String) (n : Nat) (doc : Value) (parent : Trail) (key : String) : Prop where
  scanned : .member "exec" ∉ parent ∧ key ≠ "exec"
  sensitive : ∃ word ∈ standard.keywords ++ words,
    (Text.lowercase word).toList <:+: (Text.lowercase key).toList
  long : ∃ text : String, doc.at? (parent ++ [.member key]) = some (.str text) ∧ n < text.length ∧
    isBarePlaceholder text = false

theorem isSecret_iff {s : SecretScanner} {v : Value} : s.isSecret v = true ↔
    ∃ text : String, v = .str text ∧ s.minLength < text.length ∧ isBarePlaceholder text = false := by
  cases v <;> simp [isSecret]

theorem mem_filterMap_pointed {s : SecretScanner} {doc : Value} (canonical : doc.canonical = doc)
    {parent : Trail} {key : String} :
    (parent, key) ∈ doc.inside.filterMap s.pointed? ↔ ∃ v, doc.at? (parent ++ [.member key]) = some v ∧
      .member "exec" ∉ parent ++ [.member key] ∧ s.isSensitiveKey key = true ∧ s.isSecret v = true := by
  have spot {v : Value} : (parent ++ [.member key], v) ∈ doc.inside
      ↔ doc.at? (parent ++ [.member key]) = some v := by
    rw [← Value.mem_spots_iff canonical, Value.spots, List.mem_cons, or_iff_right (by simp)]
  rw [List.mem_filterMap]
  constructor
  · rintro ⟨⟨trail, v⟩, mem, pointed⟩
    obtain ⟨same, found⟩ := s.pointed?_eq_some_iff.mp pointed
    subst same
    exact ⟨v, spot.mp mem, found⟩
  · rintro ⟨v, there, found⟩
    exact ⟨(parent ++ [.member key], v), spot.mpr there, s.pointed?_eq_some_iff.mpr ⟨rfl, found⟩⟩

/-- In a canonical document members are pointed out in order. -/
theorem pairwise_filterMap_pointed (s : SecretScanner) {doc : Value} (canonical : doc.canonical = doc) :
    (doc.inside.filterMap s.pointed?).Pairwise
      fun f g => Trail.Before (f.1 ++ [.member f.2]) (g.1 ++ [.member g.2]) := by
  rw [List.pairwise_filterMap]
  refine (List.pairwise_cons.mp (Value.spots_pairwise canonical)).2.imp fun before f here g there => ?_
  obtain ⟨place, -⟩ := s.pointed?_eq_some_iff.mp here
  obtain ⟨place', -⟩ := s.pointed?_eq_some_iff.mp there
  rwa [← place, ← place']

/-- In a canonical document just the members that expose something are pointed out. -/
theorem mem_pointed_iff {words : List String} {n : Nat} {doc : Value} (canonical : doc.canonical = doc)
    {parent : Trail} {key : String} :
    (parent, key) ∈ doc.inside.filterMap (configured words n).pointed? ↔ Exposes words n doc parent key := by
  rw [mem_filterMap_pointed canonical]
  constructor
  · rintro ⟨v, there, scanned, sensitive, secret⟩
    obtain ⟨text, rfl, long⟩ := isSecret_iff.mp secret
    exact ⟨by simpa [eq_comm] using scanned, isSensitiveKey_configured.mp sensitive, text, there, long⟩
  · rintro ⟨scanned, sensitive, text, there, long⟩
    exact ⟨.str text, there, by simpa [eq_comm] using scanned, isSensitiveKey_configured.mpr sensitive,
      isSecret_iff.mpr ⟨text, rfl, long⟩⟩

/-- Who points out less, points out the same in fewer places. -/
theorem filterMap_pointed_sublist {s s' : SecretScanner}
    (words : ∀ key, s.isSensitiveKey key = true → s'.isSensitiveKey key = true)
    (length : s'.minLength ≤ s.minLength) (spots : List (Trail × Value)) :
    (spots.filterMap s.pointed?).Sublist (spots.filterMap s'.pointed?) := by
  have more {spot : Trail × Value} {m : Trail × String} (pointed : s.pointed? spot = some m) :
      s'.pointed? spot = some m := by
    obtain ⟨place, scanned, sensitive, secret⟩ := s.pointed?_eq_some_iff.mp pointed
    obtain ⟨text, same, long, bare⟩ := isSecret_iff.mp secret
    exact s'.pointed?_eq_some_iff.mpr
      ⟨place, scanned, words _ sensitive, isSecret_iff.mpr ⟨text, same, by omega, bare⟩⟩
  induction spots with
  | nil => exact List.Sublist.refl _
  | cons spot spots ih =>
    cases pointed : s.pointed? spot with
    | none =>
      rw [List.filterMap_cons_none pointed]
      cases also : s'.pointed? spot with
      | none => rwa [List.filterMap_cons_none also]
      | some m =>
        rw [List.filterMap_cons_some also]
        exact ih.cons m
    | some m =>
      rw [List.filterMap_cons_some pointed, List.filterMap_cons_some (more pointed)]
      exact ih.cons_cons m

/-- A scan adds one warning for each member that exposes something, with its path, in document order, and nothing
    else. More words and a lesser length leave all warnings in place. -/
theorem scan_points_out_exposed (words : List String) (n : Nat) (doc : Value)
    (canonical : doc.canonical = doc) (log : Diagnostics) :
    (∃ found : List (Trail × String),
      found.Pairwise (fun f g => Trail.Before (f.1 ++ [.member f.2]) (g.1 ++ [.member g.2])) ∧
      (∀ parent key, (parent, key) ∈ found ↔ Exposes words n doc parent key) ∧
      log ++ (configured words n).scan doc
        = { log with warnings := log.warnings ++ found.map (warningAt "") }) ∧
    ∀ (words' : List String) (n' : Nat), words ⊆ words' → n' ≤ n →
      ((configured words n).scan doc).warnings.Sublist ((configured words' n').scan doc).warnings := by
  constructor
  · refine ⟨doc.inside.filterMap (configured words n).pointed?, pairwise_filterMap_pointed _ canonical,
      fun parent key => mem_pointed_iff canonical, ?_⟩
    rw [scan, findings_eq]
    simp [Diagnostics.append_def, Diagnostics.append, Diagnostics.empty]
  · intro words' n' more less
    simp only [scan, findings_eq]
    refine (filterMap_pointed_sublist (fun key sensitive => ?_) less _).map _
    obtain ⟨word, mem, occurs⟩ := isSensitiveKey_configured.mp sensitive
    refine isSensitiveKey_configured.mpr ⟨word, ?_, occurs⟩
    rcases List.mem_append.mp mem with usual | further
    · exact List.mem_append_left _ usual
    · exact List.mem_append_right _ (more further)

/-- An action with keys in a list and in an object, a bare placeholder, and an `exec` block. -/
def credentials : Value :=
  .obj [("actions", .arr [.obj [
    ("configuration", .obj [("Api_Key", .str "sk_live_12345"), ("hook_token", .str "\x7b\x7bhook_token\x7d\x7d"),
      ("secrets", .arr [.obj [("passphrase", .str "horse"), ("token", .str "correct horse")]])]),
    ("exec", .obj [("Api_Key", .str "sk_live_12345")])]])]

/-- Two members are pointed out, and a further word with a lesser length adds a third between them. -/
theorem scan_points_out_exposed_credentials :
    credentials.canonical = credentials ∧
      ((configured [] 10).scan credentials).warnings.map (·.path)
        = ["actions[0].configuration.Api_Key", "actions[0].configuration.secrets[0].token"] ∧
      ((configured ["Phrase"] 4).scan credentials).warnings.map (·.path)
        = ["actions[0].configuration.Api_Key", "actions[0].configuration.secrets[0].passphrase",
          "actions[0].configuration.secrets[0].token"] ∧
      ((configured [] 10).scan credentials).warnings.Sublist
        ((configured ["Phrase"] 4).scan credentials).warnings := by
  have canonical : credentials.canonical = credentials := by decide +kernel
  refine ⟨canonical, by decide +kernel, by decide +kernel, ?_⟩
  exact (scan_points_out_exposed [] 10 credentials canonical .empty).2 ["Phrase"] 4 (by simp) (by decide)

end SecretScanner

end Flowgraph
