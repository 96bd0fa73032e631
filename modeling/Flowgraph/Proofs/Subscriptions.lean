import Flowgraph.Executable.Resolve
import Flowgraph.Proofs.Paths

/-! What tells trigger subscriptions apart. The text behind the id of a subscription is made of four parts with
    colons between them, and the parts may hold colons themselves. So two subscriptions can have one text, but
    only if two parts or more differ in how many colons they hold, with equally many in all parts together; a user
    whose id holds as many colons as another's is told apart from the other by the id alone, and of two users who
    are not, the id of the one goes on behind that of the other with a colon. -/

namespace Flowgraph

/-- What a trigger subscription is made out by. -/
structure Subscription where
  userId : String
  workflowId : String
  version : String
  localId : String
  deriving DecidableEq, Repr

/-- How many colons a text holds. -/
def colons (text : String) : Nat := text.toList.count ':'

@[simp] theorem colons_append (s t : String) : colons (s ++ t) = colons s + colons t := by
  simp [colons]

@[simp] theorem colons_colon : colons ":" = 1 := rfl

/-- The text goes on behind the other one with a colon. -/
def GoesOn (text front : String) : Prop := ∃ behind, text = front ++ ":" ++ behind

theorem goesOn_of_toList {text front : String} {behind : List Char}
    (letters : text.toList = front.toList ++ ':' :: behind) : GoesOn text front := by
  refine ⟨String.ofList behind, String.toList_injective ?_⟩
  simp [letters]

/-- A text with a colon has a text in front of it and one behind it. -/
theorem exists_goesOn_of_colon {text : String} (mem : ':' ∈ text.toList) :
    ∃ front, GoesOn text front := by
  obtain ⟨front, behind, same⟩ := List.append_of_mem mem
  exact ⟨String.ofList front, goesOn_of_toList (by rw [same, String.toList_ofList])⟩

theorem ne_front (front behind : String) : front ++ ":" ++ behind ≠ front := by
  intro same
  have fewer := congrArg colons same
  rw [colons_append, colons_append, colons_colon] at fewer
  omega

theorem ne_behind (front behind : String) : front ++ ":" ++ behind ≠ behind := by
  intro same
  have fewer := congrArg colons same
  rw [colons_append, colons_append, colons_colon] at fewer
  omega

namespace Subscription

def material (s : Subscription) : String := instanceMaterial s.userId s.workflowId s.version s.localId

def id (s : Subscription) : String := instanceId s.userId s.workflowId s.version s.localId

def parts (s : Subscription) : List String := [s.userId, s.workflowId, s.version, s.localId]

/-- In how many parts the two differ in the number of colons. -/
def uneven (s t : Subscription) : Nat :=
  (s.parts.zip t.parts).countP fun p => colons p.1 ≠ colons p.2

/-- How many colons all parts hold. -/
def total (s : Subscription) : Nat := s.parts.foldl (fun n part => n + colons part) 0

/-- The digest does not take the texts of the two for each other. -/
def CollisionFree (s t : Subscription) : Prop :=
  Digest.ofText s.material = Digest.ofText t.material → s.material = t.material

variable {s t : Subscription}

theorem toList_material (s : Subscription) :
    s.material.toList = s.userId.toList ++ ':' :: (s.workflowId.toList ++ ':' ::
      (s.version.toList ++ ':' :: s.localId.toList)) := by
  simp [material, instanceMaterial]

/-- The colons of the text are those of the parts and the three between them. -/
theorem colons_material (s : Subscription) : colons s.material = s.total + 3 := by
  simp only [material, instanceMaterial, total, parts, colons_append, colons_colon, List.foldl_cons,
    List.foldl_nil]
  omega

theorem total_eq_of_material (same : s.material = t.material) : s.total = t.total := by
  have texts := congrArg colons same
  rw [colons_material, colons_material] at texts
  omega

/-- Users who share a text are one user, or the id of the one goes on behind that of the other. -/
theorem users_of_material (same : s.material = t.material) :
    s.userId = t.userId ∨ GoesOn t.userId s.userId ∨ GoesOn s.userId t.userId := by
  have letters := congrArg String.toList same
  rw [toList_material, toList_material] at letters
  rcases cases_of_append_cons letters with user | ⟨behind, longer⟩ | ⟨behind, longer⟩
  · exact .inl (String.toList_injective user)
  · exact .inr (.inl (goesOn_of_toList longer))
  · exact .inr (.inr (goesOn_of_toList longer))

/-- One text and equally many colons in the user ids make one user. -/
theorem userId_eq_of_material (same : s.material = t.material) (users : colons s.userId = colons t.userId) :
    s.userId = t.userId := by
  have letters := congrArg String.toList same
  rw [toList_material, toList_material] at letters
  exact String.toList_injective (append_cons_inj_of_count users letters).1

/-- One text and equally many colons in all parts but the last make one subscription. -/
theorem eq_of_material (same : s.material = t.material) (users : colons s.userId = colons t.userId)
    (workflows : colons s.workflowId = colons t.workflowId) (versions : colons s.version = colons t.version) :
    s = t := by
  have letters := congrArg String.toList same
  rw [toList_material, toList_material] at letters
  obtain ⟨user, letters⟩ := append_cons_inj_of_count users letters
  obtain ⟨workflow, letters⟩ := append_cons_inj_of_count workflows letters
  obtain ⟨version, localId⟩ := append_cons_inj_of_count versions letters
  obtain ⟨u, w, v, l⟩ := s
  obtain ⟨u', w', v', l'⟩ := t
  rw [mk.injEq]
  exact ⟨String.toList_injective user, String.toList_injective workflow, String.toList_injective version,
    String.toList_injective localId⟩

/-- Different subscriptions with one text differ in the colons of two parts at least: what one part has too
    many, another has too few. -/
theorem two_le_uneven (same : s.material = t.material) (other : s ≠ t) : 2 ≤ s.uneven t := by
  by_contra even
  have total := total_eq_of_material same
  simp only [Subscription.total, parts, List.foldl_cons, List.foldl_nil] at total
  have even : s.uneven t < 2 := Nat.lt_of_not_le even
  simp only [uneven, parts, List.zip_cons_cons, List.zip_nil_right, List.countP_cons, List.countP_nil,
    decide_eq_true_eq] at even
  refine other (eq_of_material same ?_ ?_ ?_)
  · split_ifs at even <;> omega
  · split_ifs at even <;> omega
  · split_ifs at even <;> omega

/-- A subscription with a colon in some part has the text of another one. -/
theorem exists_other {part : String} (mem : part ∈ s.parts) (colon : ':' ∈ part.toList) :
    ∃ t, t ≠ s ∧ t.material = s.material := by
  obtain ⟨front, behind, rfl⟩ := exists_goesOn_of_colon colon
  obtain ⟨u, w, v, l⟩ := s
  simp only [parts, List.mem_cons, List.not_mem_nil, or_false] at mem
  rcases mem with rfl | rfl | rfl | rfl
  · refine ⟨⟨front, behind ++ ":" ++ w, v, l⟩, fun same => ?_, ?_⟩
    · exact ne_front front behind (congrArg userId same).symm
    · simp [material, instanceMaterial, String.append_assoc]
  · refine ⟨⟨u, front, behind ++ ":" ++ v, l⟩, fun same => ?_, ?_⟩
    · exact ne_front front behind (congrArg workflowId same).symm
    · simp [material, instanceMaterial, String.append_assoc]
  · refine ⟨⟨u, w, front, behind ++ ":" ++ l⟩, fun same => ?_, ?_⟩
    · exact ne_front front behind (congrArg version same).symm
    · simp [material, instanceMaterial, String.append_assoc]
  · refine ⟨⟨u, w, v ++ ":" ++ front, behind⟩, fun same => ?_, ?_⟩
    · exact ne_behind front behind (congrArg localId same).symm
    · simp [material, instanceMaterial, String.append_assoc]

/-- A subscription without a colon has a text of its own. -/
theorem eq_of_plain (plain : ∀ part ∈ s.parts, ':' ∉ part.toList) (same : t.material = s.material) : t = s := by
  have none_there (part : String) (mem : part ∈ s.parts) : colons part = 0 :=
    List.count_eq_zero_of_not_mem (plain part mem)
  have total := total_eq_of_material same
  simp only [Subscription.total, parts, List.foldl_cons, List.foldl_nil] at total
  have user := none_there s.userId (by simp [parts])
  have workflow := none_there s.workflowId (by simp [parts])
  have version := none_there s.version (by simp [parts])
  have localId := none_there s.localId (by simp [parts])
  exact eq_of_material same (by omega) (by omega) (by omega)

/-- Different subscriptions have different texts, and different ids if the digest does not take the texts for
    each other, unless they differ in the colons of two parts at least. Different users have different texts
    and ids if their ids hold equally many colons, whatever else is alike or not. Those that share a text, or
    an id without the digest taking one text for another, have equally many colons in all parts together, and
    their users are the same or the id of the one goes on behind that of the other with a colon. The
    subscriptions that share their text with no other are those without a colon in any part. -/
theorem material_separates (s t : Subscription) :
    (s.uneven t ≤ 1 → s ≠ t → s.material ≠ t.material ∧ (CollisionFree s t → s.id ≠ t.id)) ∧
      (colons s.userId = colons t.userId → s.userId ≠ t.userId →
        s.material ≠ t.material ∧ (CollisionFree s t → s.id ≠ t.id)) ∧
      (s.material = t.material ∨ CollisionFree s t ∧ s.id = t.id → s.total = t.total ∧
        (s.userId = t.userId ∨ GoesOn t.userId s.userId ∨ GoesOn s.userId t.userId)) ∧
      ((∀ r : Subscription, r ≠ s → r.material ≠ s.material) ↔ ∀ part ∈ s.parts, ':' ∉ part.toList) := by
  have ids (texts : s.material ≠ t.material) :
      s.material ≠ t.material ∧ (CollisionFree s t → s.id ≠ t.id) :=
    ⟨texts, fun free same => texts (free same)⟩
  refine ⟨fun even other => ids fun same => ?_, fun users other => ids fun same => ?_, fun shared => ?_, ?_, ?_⟩
  · have := two_le_uneven same other
    omega
  · exact other (userId_eq_of_material same users)
  · have same : s.material = t.material := shared.elim (fun texts => texts) fun ids => ids.1 ids.2
    exact ⟨total_eq_of_material same, users_of_material same⟩
  · intro alone part mem colon
    obtain ⟨r, other, same⟩ := exists_other mem colon
    exact alone r other same
  · intro plain r other same
    exact other (eq_of_plain plain same)

/-- Users and workflows with colons in their ids, and a colon more in one of the triggers. -/
theorem material_separates_colons :
    (⟨"ann:home", "mail:1", "2", "t"⟩ : Subscription).uneven ⟨"ann:work", "mail:1", "2", "t:0"⟩ ≤ 1 ∧
      CollisionFree ⟨"ann:home", "mail:1", "2", "t"⟩ ⟨"ann:work", "mail:1", "2", "t:0"⟩ ∧
      instanceId "ann:home" "mail:1" "2" "t" ≠ instanceId "ann:work" "mail:1" "2" "t:0" := by
  have digests : Digest.ofText (material ⟨"ann:home", "mail:1", "2", "t"⟩)
      ≠ Digest.ofText (material ⟨"ann:work", "mail:1", "2", "t:0"⟩) := by decide +kernel
  have even : (⟨"ann:home", "mail:1", "2", "t"⟩ : Subscription).uneven
      ⟨"ann:work", "mail:1", "2", "t:0"⟩ ≤ 1 := by decide
  have free : CollisionFree ⟨"ann:home", "mail:1", "2", "t"⟩ ⟨"ann:work", "mail:1", "2", "t:0"⟩ :=
    fun same => absurd same digests
  exact ⟨even, free, ((material_separates _ _).1 even (by decide)).2 free⟩

/-- Two users share an id: what one has in front of the colon of the workflow, the other has in the user id. -/
theorem instanceId_shared :
    (⟨"ann:home", "mail", "1", "t"⟩ : Subscription) ≠ ⟨"ann", "home:mail", "1", "t"⟩ ∧ "ann:home" ≠ "ann" ∧
      instanceMaterial "ann:home" "mail" "1" "t" = instanceMaterial "ann" "home:mail" "1" "t" ∧
      instanceId "ann:home" "mail" "1" "t" = instanceId "ann" "home:mail" "1" "t" := by
  have same : instanceMaterial "ann:home" "mail" "1" "t" = instanceMaterial "ann" "home:mail" "1" "t" := by
    decide
  exact ⟨by decide, by decide, same, congrArg Digest.ofText same⟩

end Subscription

end Flowgraph
