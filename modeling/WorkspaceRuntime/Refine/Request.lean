import WorkspaceRuntime.Model.Request

/-!
# Execution requests are in normal form

A stored execution request is one that `normalizeExecutionRequest` returned. Normalising it again
gives it back, whatever input list it is then checked against: the list decides only whether the
declared inputs are accepted.
-/

variable {v : Json}

namespace Json.Fields

theorem mem_keys_set {fs : Fields} {k k' : String} (h : k' ∈ (fs.set k v).keys) :
    k' = k ∨ k' ∈ fs.keys := by
  induction fs with
  | nil => simpa [set, keys] using h
  | cons f fs ih =>
    obtain ⟨l, w⟩ := f
    unfold set at h
    split at h
    next =>
      rcases List.mem_cons.mp h with h | h
      · exact .inr (List.mem_cons.mpr (.inl h))
      · exact (ih h).imp id (List.mem_cons_of_mem _)
    next =>
      split at h
      next hl =>
        rcases List.mem_cons.mp h with h | h
        · exact .inl h
        · exact .inr (.tail _ h)
      next => exact List.mem_cons.mp h

theorem mem_keys_erase {fs : Fields} {k k' : String} (h : k' ∈ (fs.erase k).keys) : k' ∈ fs.keys := by
  obtain ⟨f, hf, rfl⟩ := List.mem_map.mp h
  exact List.mem_map_of_mem (List.mem_filter.mp hf).1

theorem erase_erase (fs : Fields) (k : String) : (fs.erase k).erase k = fs.erase k := by
  simp [erase]

end Json.Fields

namespace WorkspaceRuntime

open Fallible

/-! ## Targets -/

/-- A folded alias stays folded. -/
theorem normalizeAliasedTarget_idem {kind aliasField : String} {target : Json.Fields}
    (halias : aliasField ≠ "id") (hkind : aliasField ≠ "kind")
    (h : normalizeAliasedTarget kind aliasField target = .ok v) :
    ∃ folded : Json.Fields, v = .obj folded ∧
      Json.Fields.get folded "kind" = target.get "kind" ∧
      normalizeAliasedTarget kind aliasField folded = .ok (.obj folded) := by
  simp only [normalizeAliasedTarget, bind_eq_ok, require_eq_ok, return_ok] at h
  obtain ⟨_, hkeys, _, -, _, hid, rfl⟩ := h
  obtain ⟨x, hx⟩ : ∃ x, ((target.get "id").orElse fun _ => target.get aliasField) = some x := by
    cases hi : ((target.get "id").orElse fun _ => target.get aliasField) with
    | none =>
      rw [hi] at hid
      simp [nonEmptyString] at hid
    | some x => exact ⟨x, rfl⟩
  rw [hx] at hid
  rw [hx, Option.getD_some]
  have hget : ((target.set "id" x).erase aliasField).get "id" = some x := by
    rw [Json.Fields.get_erase_of_ne _ halias.symm, Json.Fields.get_set_self]
  have hnone : ((target.set "id" x).erase aliasField).get aliasField = none :=
    Json.Fields.get_erase_self _ _
  refine ⟨_, rfl, ?_, ?_⟩
  · rw [Json.Fields.get_erase_of_ne _ hkind.symm, Json.Fields.get_set_of_ne _ _ (by decide)]
  · simp only [normalizeAliasedTarget, bind_eq_ok, require_eq_ok, return_ok]
    refine ⟨(), fun k hk => ?_, (), by simp [hnone], (), by rw [hget]; exact hid, ?_⟩
    · rcases Json.Fields.mem_keys_set (Json.Fields.mem_keys_erase hk) with rfl | hk
      · simp
      · exact hkeys k hk
    · rw [hget]
      simp only [Option.orElse, Option.getD_some]
      rw [Json.Fields.set_erase_set _ _ halias.symm, Json.Fields.erase_erase]

/-- A normalised target is an object that normalises to itself. -/
theorem normalizeExecutionTarget_idem {value : Option Json}
    (h : normalizeExecutionTarget value = .ok v) : normalizeExecutionTarget (some v) = .ok v := by
  simp only [normalizeExecutionTarget, bind_eq_ok, orThrow_eq_ok] at h
  obtain ⟨target, -, h⟩ := h
  split at h
  next hkind =>
    simp only [bind_eq_ok, require_eq_ok, return_ok] at h
    obtain ⟨_, hkeys, _, hpod, _, haccount, rfl⟩ := h
    simp only [normalizeExecutionTarget, Option.bind_some, Json.asObj, orThrow_some, ok_bind, hkind,
      bind_eq_ok, require_eq_ok, pure_eq_ok]
    exact ⟨(), hkeys, (), hpod, (), haccount, trivial⟩
  case h_2 hkind | h_3 hkind =>
    obtain ⟨folded, rfl, hk, hidem⟩ := normalizeAliasedTarget_idem (by decide) (by decide) h
    simp only [normalizeExecutionTarget, Option.bind_some, Json.asObj, orThrow_some, ok_bind, hk,
      hkind, hidem]
  next hkind =>
    simp only [bind_eq_ok, require_eq_ok, return_ok] at h
    obtain ⟨_, hkeys, rfl⟩ := h
    simp only [normalizeExecutionTarget, Option.bind_some, Json.asObj, orThrow_some, ok_bind, hkind,
      bind_eq_ok, require_eq_ok, pure_eq_ok]
    exact ⟨(), hkeys, trivial⟩
  next => cases h

/-- A normalised target has a kind. -/
theorem normalizeExecutionTarget_kind {value : Option Json}
    (h : normalizeExecutionTarget value = .ok v) :
    ∃ fields kind, v = .obj fields ∧ Json.Fields.get fields "kind" = some kind := by
  have hidem := normalizeExecutionTarget_idem h
  simp only [normalizeExecutionTarget, Option.bind_some, bind_eq_ok, orThrow_eq_ok] at hidem
  obtain ⟨target, htarget, hidem⟩ := hidem
  refine ⟨target, ?_⟩
  split at hidem
  case h_5 => cases hidem
  all_goals exact ⟨_, Json.asObj_eq_some.mp htarget, by assumption⟩

/-- The placement is that of a verified executor somewhere. -/
def Placement.External (p : Placement) : Prop :=
  p.verified = true ∧ ∃ fields, p.actual = .obj fields ∧ fields ≠ []

variable {value q : Json} {inputs : List String} {fields : Json.Fields}

/-- A credential attests external placements only. -/
theorem normalizeVerifiedExecutionPlacement_external {p : Placement}
    (h : normalizeVerifiedExecutionPlacement value = .ok p) : p.External := by
  simp only [normalizeVerifiedExecutionPlacement, bind_eq_ok, return_ok] at h
  obtain ⟨fields, -, _, -, actual, hactual, _, -, digest, -, incarnation, -, _, -, rfl⟩ := h
  obtain ⟨target, kind, rfl, hkind⟩ := normalizeExecutionTarget_kind hactual
  refine ⟨rfl, target, rfl, ?_⟩
  rintro rfl
  simp at hkind

/-! ## Requests -/

/-- What a normalised request is: an object with a normalised target, whose declared inputs were
accepted. -/
structure NormalRequest (q : Json) (fields : Json.Fields) (target : Json) : Prop where
  object : q = .obj fields
  binding : fields.get "execution_binding" = none
  targeted : fields.get "target" = some target
  normal : normalizeExecutionTarget (some target) = .ok target
  fixed : fields.set "target" target = fields
  activation : checkPresent (fields.get "remote_activation_required")
    (checkRemoteActivation · target) = .ok ()

theorem normalizeExecutionRequest_ok (h : normalizeExecutionRequest value inputs = .ok q) :
    ∃ fields target, NormalRequest q fields target ∧
      checkPresent (fields.get "inputs") (checkMirroredInputs · inputs) = .ok () := by
  simp only [normalizeExecutionRequest, bind_eq_ok, orThrow_eq_ok, require_eq_ok, return_ok] at h
  obtain ⟨fields, -, _, hbinding, target, htarget, _, hactivation, _, hinputs, rfl⟩ := h
  refine ⟨_, target, ⟨rfl, ?_, Json.Fields.get_set_self _ _ _, normalizeExecutionTarget_idem htarget,
    Json.Fields.set_set _ _ _, hactivation⟩, hinputs⟩
  rw [Json.Fields.get_set_of_ne _ _ (by decide)]
  exact hbinding

/-- A normal request is given back exactly when its declared inputs mirror the input list. -/
theorem NormalRequest.normalize_eq {target : Json} (h : NormalRequest q fields target) :
    normalizeExecutionRequest q inputs =
      (checkPresent (fields.get "inputs") (checkMirroredInputs · inputs)).map fun _ => q := by
  obtain ⟨rfl, hbinding, htarget, hnormal, hfixed, hactivation⟩ := h
  simp only [normalizeExecutionRequest, Json.asObj, orThrow_some, ok_bind, htarget, hnormal, hfixed,
    hactivation, require_of _ hbinding, pure_eq_ok]
  cases checkPresent (fields.get "inputs") (checkMirroredInputs · inputs) <;> rfl

theorem NormalRequest.normalize_eq_ok {q' target : Json} (h : NormalRequest q fields target) :
    normalizeExecutionRequest q inputs = .ok q' ↔
      checkPresent (fields.get "inputs") (checkMirroredInputs · inputs) = .ok () ∧ q' = q := by
  rw [h.normalize_eq]
  cases checkPresent (fields.get "inputs") (checkMirroredInputs · inputs) with
  | error e => simp [Except.map]
  | ok u => simp [Except.map, eq_comm]

/-- Normalising twice is normalising once. -/
theorem normalizeExecutionRequest_idem (h : normalizeExecutionRequest value inputs = .ok q) :
    normalizeExecutionRequest q inputs = .ok q := by
  obtain ⟨fields, target, hnormal, hinputs⟩ := normalizeExecutionRequest_ok h
  exact hnormal.normalize_eq_ok.mpr ⟨hinputs, rfl⟩

/-- A normal request that is accepted with another input list is given back. -/
theorem normalizeExecutionRequest_again {q' : Json} {inputs' : List String}
    (h : normalizeExecutionRequest value inputs = .ok q)
    (h' : normalizeExecutionRequest q inputs' = .ok q') : q' = q := by
  obtain ⟨fields, target, hnormal, -⟩ := normalizeExecutionRequest_ok h
  exact (hnormal.normalize_eq_ok.mp h').2

end WorkspaceRuntime
