import WorkspaceRuntime.Deployment.Read
import WorkspaceRuntime.System

/-!
# What a run keeps of an admission

Runtime rewrites the spec of a task while it runs: a claim stamps the toolchain, a containment closes the
delegation, and an issued child authority registers the derived inputs. What a view of the spec that
overlooks these stamps shows is kept by every run that neither retires the task nor admits it as a
continuation.
-/

namespace WorkspaceRuntime

variable {α : Type} {f : TaskSpec → α} {env : Env} {now : Time} {l : Label} {v v' : View}
  {s s' : State} {t : TaskId} {row row' row₀ : Task} {a₀ : Option ContinuationAdmission}
  {ok : State → Env → Command → Prop}

/-- The rows agree in what the admission stored, as far as `f` shows the spec. -/
structure Task.SameAdmission (f : TaskSpec → α) (row row' : Task) : Prop where
  runId : row'.runId = row.runId
  capability : row'.capability = row.capability
  capabilityDigest : row'.capabilityDigest = row.capabilityDigest
  expectedEffect : row'.expectedEffect = row.expectedEffect
  request : row'.executionRequest = row.executionRequest
  spec : row'.spec.map f = row.spec.map f

theorem Task.SameAdmission.refl (row : Task) : row.SameAdmission f row :=
  ⟨rfl, rfl, rfl, rfl, rfl, rfl⟩

theorem Task.SameAdmission.trans {row₁ row₂ row₃ : Task} (h : row₁.SameAdmission f row₂)
    (h' : row₂.SameAdmission f row₃) : row₁.SameAdmission f row₃ :=
  ⟨h'.runId.trans h.runId, h'.capability.trans h.capability,
    h'.capabilityDigest.trans h.capabilityDigest, h'.expectedEffect.trans h.expectedEffect,
    h'.request.trans h.request, h'.spec.trans h.spec⟩

/-- What `f` shows of a spec does not depend on the stamps of a claim and of a containment. -/
structure TaskSpec.Overlooks (f : TaskSpec → α) : Prop where
  toolchain : ∀ sp x, f { sp with runtimeReuseToolchain := x } = f sp
  closed : ∀ sp a, f { sp with delegationClosedAttemptId := a } = f sp

/-- Nor does it depend on the registered inputs. -/
def TaskSpec.OverlooksRegistry (f : TaskSpec → α) : Prop :=
  ∀ sp r, f { sp with derivedInputRegistry := r } = f sp

theorem Stamped.shows (hf : TaskSpec.Overlooks f) {spec spec' : Option TaskSpec}
    (h : Stamped spec spec') (hsome : spec ≠ none) : spec'.map f = spec.map f := by
  rcases h with rfl | ⟨toolchain, rfl⟩
  · rfl
  · obtain ⟨sp, rfl⟩ := Option.ne_none_iff_exists'.mp hsome
    exact congrArg some (hf.toolchain sp toolchain)

/-- A step keeps the admission of a task that it neither retires nor admits as a continuation. -/
theorem Step.sameAdmission (h : Step now l v v') (hf : TaskSpec.Overlooks f)
    (hregister : l = .register → TaskSpec.OverlooksRegistry f) (hrow : v.row = some row)
    (hrow' : v'.row = some row') (hspec : row.spec ≠ none) (hrequest : row'.executionRequest ≠ none)
    (hadmission : v'.admission = v.admission) : row.SameAdmission f row' := by
  cases h with
  | respec hstored hsp _ hclosed =>
    obtain rfl := Option.mem_unique hstored hrow
    cases hrow'
    obtain ⟨a, rfl⟩ := hclosed
    exact ⟨rfl, rfl, rfl, rfl, rfl, by rw [hsp]; exact congrArg some (hf.closed _ a)⟩
  | register hstored hsp _ hregistry =>
    obtain rfl := Option.mem_unique hstored hrow
    cases hrow'
    obtain ⟨r, rfl⟩ := hregistry
    exact ⟨rfl, rfl, rfl, rfl, rfl, by rw [hsp]; exact congrArg some (hregister rfl _ r)⟩
  | start hstored _ _ _ hstamped =>
    obtain rfl := Option.mem_unique hstored hrow
    cases hrow'
    exact ⟨rfl, rfl, rfl, rfl, rfl, hstamped.shows hf hspec⟩
  | recover hstored =>
    obtain rfl := Option.mem_unique hstored hrow
    cases hrow'
    split <;> exact ⟨rfl, rfl, rfl, rfl, rfl, rfl⟩
  | admission _ _ hnone => simp [hnone] at hadmission
  | retire hstored =>
    cases hrow'
    exact absurd rfl hrequest
  | create => simp [View.blank] at hrow
  | rebind | settle | bind | lift | replace =>
    obtain rfl := Option.mem_unique hrow hrow'
    exact .refl row
  | wait hstored | touch hstored | stop hstored | withdraw hstored | request hstored | mark hstored
  | requeue hstored | keepUnknown hstored | attempt _ hstored | extend hstored | finish hstored
  | retry hstored | reopen hstored | finalize hstored | fence hstored =>
    obtain rfl := Option.mem_unique hstored hrow
    cases hrow'
    exact ⟨rfl, rfl, rfl, rfl, rfl, rfl⟩

/-! ## Runs -/

/-- The task was admitted as `row₀` with the continuation `a₀`: as long as both are there, the admission
is the one of that row. -/
structure View.AdmittedAs (f : TaskSpec → α) (row₀ : Task) (a₀ : Option ContinuationAdmission)
    (v : View) : Prop where
  wf : v.Wf
  targeted : row₀.executionRequest ≠ none
  row : ∃ row, v.row = some row ∧
    (row.executionRequest = row₀.executionRequest ∨ row.executionRequest = none) ∧
    (row.executionRequest ≠ none → v.admission = a₀ → row₀.SameAdmission f row)
  admission : a₀ ≠ none → v.admission = a₀

theorem View.AdmittedAs.initial (hwf : v.Wf) (hrow : v.row = some row)
    (hrequest : row.executionRequest ≠ none) : v.AdmittedAs f row v.admission :=
  ⟨hwf, hrequest, ⟨row, hrow, .inl rfl, fun _ _ => .refl row⟩, fun _ => rfl⟩

/-- What the invariant says of the row. -/
theorem View.AdmittedAs.same (h : v.AdmittedAs f row₀ a₀) (hrow : v.row = some row)
    (hrequest : row.executionRequest ≠ none) (hadmission : v.admission = a₀) :
    row₀.SameAdmission f row := by
  obtain ⟨row₁, hrow₁, -, hsame⟩ := h.row
  obtain rfl := Option.mem_unique hrow₁ hrow
  exact hsame hrequest hadmission

theorem Step.admittedAs (h : Step now l v v') (hf : TaskSpec.Overlooks f)
    (hregister : l = .register → TaskSpec.OverlooksRegistry f) (hv : v.AdmittedAs f row₀ a₀) :
    v'.AdmittedAs f row₀ a₀ := by
  obtain ⟨row, hrow, hkept, hsame⟩ := hv.row
  obtain ⟨row', hrow', -, -, -, hlater⟩ := h.later.row row hrow
  refine ⟨h.wf hv.wf, hv.targeted, ⟨row', hrow', ?_, fun hrequest hadmission => ?_⟩, fun hsome => ?_⟩
  · rcases hlater with hlater | hlater
    · rwa [hlater]
    · exact .inr hlater
  · have hsaid : row.executionRequest ≠ none := by
      rcases hlater with hlater | hlater
      · rwa [← hlater]
      · exact absurd hlater hrequest
    have hbefore : v.admission = a₀ := by
      cases hadm : v.admission with
      | some a => rw [← hadmission, h.later.admission a hadm]
      | none =>
        by_contra hne
        rw [hv.admission (Ne.symm hne)] at hadm
        exact hne hadm.symm
    obtain ⟨q, hq⟩ := Option.ne_none_iff_exists'.mp hsaid
    obtain ⟨sp, hsp, -⟩ := (hv.wf.row row hrow).request q hq
    exact (hsame hsaid hbefore).trans
      (h.sameAdmission hf hregister hrow hrow' (by simp [hsp]) hrequest (hadmission.trans hbefore.symm))
  · obtain ⟨a, rfl⟩ := Option.ne_none_iff_exists'.mp hsome
    exact h.later.admission a (hv.admission hsome)

/-- The command registers derived inputs of the task. -/
def Command.Registers (s : State) (t : TaskId) (c : Command) : Prop :=
  ∃ access a lease registered x, c = .issueChildAuthority access a lease registered ∧
    s.attempts.lookup a = some x ∧ x.taskId = t

theorem Steps.admittedAs (h : Steps ok s s') (hi : Inv s) (hf : TaskSpec.Overlooks f)
    (hregister : ∀ s env c, ok s env c → c.Registers s t → TaskSpec.OverlooksRegistry f)
    (hv : (s.view t).AdmittedAs f row₀ a₀) : (s'.view t).AdmittedAs f row₀ a₀ := by
  refine h.preserves hi (I := fun s => (s.view t).AdmittedAs f row₀ a₀) ?_ hv
  intro env s c hi hok hv
  refine (hi.next.path t).preserves (I := fun v => v.AdmittedAs f row₀ a₀) ?_ hv
  intro l v v' hl hs
  exact hs.admittedAs hf fun hregisters =>
    hregister s env c hok ((Command.labels_rare hl).register hregisters)

/-- A run keeps the admission of a task that it neither retires nor admits as a continuation. -/
theorem Steps.sameAdmission (h : Steps ok s s') (hi : Inv s) (hf : TaskSpec.Overlooks f)
    (hregister : ∀ s env c, ok s env c → c.Registers s t → TaskSpec.OverlooksRegistry f)
    (hrow : s.tasks.lookup t = some row) (hrequest : row.executionRequest ≠ none)
    (hrow' : s'.tasks.lookup t = some row') (hrequest' : row'.executionRequest ≠ none)
    (hadmission : s'.admissions.lookup t = s.admissions.lookup t) : row.SameAdmission f row' :=
  (h.admittedAs hi hf hregister (.initial (hi.view t) hrow hrequest)).same hrow' hrequest' hadmission

end WorkspaceRuntime
