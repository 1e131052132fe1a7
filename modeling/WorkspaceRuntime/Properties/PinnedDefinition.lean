import WorkspaceRuntime.System

/-!
# The definition a task is pinned to

`_executor_can_run` and `_claim_task` gate an executor separately. The claim has every gate of the
other except the one that compares the digest the executor itself advertises with the registered
one, so a granted claim is one that `executorCanRun` accepts exactly when the executor advertises the
registered definition, or none.
-/

namespace WorkspaceRuntime

open Fallible State

variable {env : Env} {s s' : State} {t : TaskId} {executor : ExecutorId} {lease : LeaseId}
  {capability : CapabilityId} {x : Executor} {row task : Task} {spec : TaskSpec}
  {digest : Option String} {facts : Option Json}

/-- `_executor_can_run` without the storage check, for the executor and what the task asks for. -/
def State.accepts (env : Env) (s : State) (executor : ExecutorId) (row : Task) : Prop :=
  s.executorCanRun env (s.executors.lookup executor) row.capability row.capabilityDigest false
    (row.spec.getD {}).requiredFacts = .ok true

/-- The digest that a descriptor advertises, if any, is that of the registered definition. -/
def AdvertisesRow (descriptor : Json.Fields) (row : Capability) : Prop :=
  ∀ d ∈ truthyField descriptor "definition_digest", d = .str row.definitionDigest

/-- The descriptor that the executor stored for the capability advertises the registered definition,
or none. -/
def State.AdvertisesRegistered (s : State) (executor : ExecutorId) (capability : CapabilityId) :
    Prop :=
  ∀ x descriptor row, s.executors.lookup executor = some x →
    x.descriptor capability = some descriptor → s.capabilities.lookup capability = some row →
    AdvertisesRow descriptor row

/-- The capability id that a registered value is looked up by is the one it is described by. -/
theorem descriptorFor_of_key {value : Json} (hkey : capabilityKey value = some (.str capability))
    (hne : capability ≠ "") : (descriptorFor capability value).isSome := by
  cases value with
  | str name =>
    obtain rfl : name = capability := by simpa [capabilityKey] using hkey
    simp [descriptorFor]
  | obj fs =>
    have hid : descriptorId fs = some (.str capability) := by
      simp only [capabilityKey] at hkey
      cases hget : Json.Fields.get fs "capability_id" with
      | none =>
        rw [hget] at hkey
        simpa [descriptorId, truthyField, hget] using hkey
      | some v =>
        obtain rfl : v = .str capability := by simpa [hget] using hkey
        simp [descriptorId, truthyField, hget, Json.truthy, hne]
    simp [descriptorFor, hid]
  | null | bool | int | float | arr => simp [capabilityKey] at hkey

/-- An executor that advertises a capability has a descriptor of it, and the capability is
registered. -/
theorem State.ExecutorsRegistered.descriptor (h : s.ExecutorsRegistered)
    (hx : s.executors.lookup executor = some x) (hhas : x.hasCapabilityId capability = true) :
    (∃ descriptor, x.descriptor capability = some descriptor) ∧
      ∃ row, s.capabilities.lookup capability = some row := by
  obtain ⟨value, hvalue, hkey⟩ := List.any_eq_true.mp hhas
  have hkey : capabilityKey value = some (.str capability) := of_decide_eq_true hkey
  have hcheck := h executor x hx value hvalue
  simp only [checkExecutorCapability, hkey, Option.bind_some, Json.asStr, bind_eq_ok,
    orThrow_eq_ok, require_eq_ok, Option.some.injEq, Option.isSome_iff_exists] at hcheck
  obtain ⟨_, rfl, _, hne, hregistered⟩ := hcheck
  refine ⟨Option.ne_none_iff_exists'.mp fun hnone => ?_, hregistered⟩
  have hfor := descriptorFor_of_key hkey hne
  rw [List.findSome?_eq_none_iff.mp hnone value hvalue] at hfor
  simp at hfor

/-- What `_executor_can_run` checks without the storage check. -/
theorem State.executorCanRun_eq_true :
    s.executorCanRun env (some x) capability digest false facts = .ok true ↔
      x.ready = true ∧ x.live env.now = true ∧ ∃ descriptor row,
        x.descriptor capability = some descriptor ∧ s.capabilities.lookup capability = some row ∧
        descriptorReady descriptor = true ∧ row.status = .ready ∧
        (digest = none ∨ digest = some row.definitionDigest) ∧ AdvertisesRow descriptor row ∧
        (∀ required ∈ facts,
          executionFactsMatch required (descriptorFacts descriptor) = .ok true) ∧
        ∀ key ∈ s.requiredResourceKeys capability, key ∈ x.resourceKeys := by
  simp only [executorCanRun, refusal_eq_true, not_not, and_assoc]
  refine and_congr_right fun _ => and_congr_right fun _ => ?_
  cases x.descriptor capability with
  | none => simp
  | some descriptor =>
    cases s.capabilities.lookup capability with
    | none => simp
    | some row =>
      simp only [descriptorCanRun, pure_eq_ok, refusal_eq_true, not_not]
      cases facts with
      | none => simp [AdvertisesRow]
      | some required =>
        simp only [bind_eq_ok, refusal_eq_true]
        simp [AdvertisesRow]

/-- The gates of a claim leave only the advertised digest to `_executor_can_run`, whatever the
liveness and the epoch of the executor become. -/
theorem ClaimGates.executorCanRun_iff {seen : Executor}
    (hgates : ClaimGates env s task spec executor x) (hregistered : s.ExecutorsRegistered)
    (hlive : seen.live env.now = true) (hready : seen.ready = x.ready)
    (hcapabilities : seen.capabilities = x.capabilities)
    (hkeys : seen.resourceKeys = x.resourceKeys) (hdigest : digest = task.capabilityDigest)
    (hfacts : facts = spec.requiredFacts) :
    s.executorCanRun env (some seen) task.capability digest false facts = .ok true ↔
      s.AdvertisesRegistered executor task.capability := by
  have hseen : seen.descriptor task.capability = x.descriptor task.capability := by
    rw [Executor.descriptor, Executor.descriptor, hcapabilities]
  rw [executorCanRun_eq_true, hseen]
  constructor
  · rintro ⟨-, -, descriptor, row, hdescriptor, hrow, -, -, -, hadvertises, -⟩ x' descriptor' row'
      hx' hd' hr'
    obtain rfl := Option.mem_unique hgates.stored hx'
    obtain rfl := Option.mem_unique hdescriptor hd'
    obtain rfl := Option.mem_unique hrow hr'
    exact hadvertises
  · intro h
    obtain ⟨⟨descriptor, hdescriptor⟩, row, hrow⟩ :=
      hregistered.descriptor hgates.stored hgates.advertised
    have hdescribed := hgates.descriptor
    have hmatched := hgates.facts
    rw [hdescriptor, Option.getD_some] at hdescribed hmatched
    refine ⟨hready.trans hgates.ready, hlive, descriptor, row, hdescriptor, hrow, hdescribed,
      hgates.status row hrow, ?_, h x descriptor row hgates.stored hdescriptor hrow, ?_,
      fun key hkey => hkeys ▸ (hgates.resources key hkey).1⟩
    · rw [hdigest]
      cases hd : task.capabilityDigest with
      | none => exact .inl rfl
      | some d => exact .inr (by simpa [hrow, eq_comm] using hgates.digest d hd)
    · rintro required hr
      have hrequired : spec.requiredFacts = some required := hfacts ▸ hr
      simpa [hrequired] using hmatched

/-! ## The state a claim leaves -/

theorem State.startClaim_executors (t : TaskId) (task : Task) (spec : TaskSpec)
    (executor : ExecutorId) (x : Executor) (lease : LeaseId) (epoch : Nat) (now : Time) :
    (s.startClaim t task spec executor x lease epoch now).executors =
        s.executors.modify executor (fun x => { x with runtimeEpoch := epoch, lastSeenAt := some now }) ∧
      (s.startClaim t task spec executor x lease epoch now).capabilities = s.capabilities := by
  simp only [startClaim, reserveAll_eq, stampSpec]
  split <;> exact ⟨rfl, rfl⟩

/-- The stamp on a render spec is not one of the facts it asks for. -/
theorem State.startClaim_requiredFacts {epoch : Nat} {now : Time}
    (hrow : s.tasks.lookup t = some task) (hspec : s.loadSpec task.spec = .ok spec)
    (h : (s.startClaim t task spec executor x lease epoch now).tasks.lookup t = some row) :
    (row.spec.getD {}).requiredFacts = spec.requiredFacts := by
  simp only [startClaim, stampSpec, reserveAll_eq] at h
  split at h
  · have hrow' := Option.some.inj (show some _ = some row by
      simpa [appendEvent, setRunStatus, putRunSpec, putTaskSpec,
        storeSpec, startRow, hrow] using h)
    rw [← hrow']
    rfl
  · have hrow' := Option.some.inj (show some _ = some row by
      simpa [appendEvent, setRunStatus, startRow, hrow] using h)
    rw [← hrow', ← (loadSpec_ok hspec).1]

/-- In every reachable state, a claim that leaves its task running on an executor is one that
`_executor_can_run` accepts, exactly when the executor's descriptor advertises the registered
definition of the task's capability, or none. -/
theorem running_claim_accepted_iff {supplied : Int} {recovery : Bool} (hreach : Reachable s)
    (h : s.claimTask env t executor lease supplied recovery = .ok (s', row))
    (hrunning : row.status = .running) :
    s'.accepts env executor row ↔
      ∀ before, s.tasks.lookup t = some before →
        s.AdvertisesRegistered executor before.capability := by
  have hi := hreach.inv
  obtain ⟨-, reaped, hreaped, hclaims, hrow⟩ := claimTask_ok h
  have hreap := hi.reapExpiredLeases hreaped
  obtain ⟨tried, task, spec, x, htried, htask, hspec, hgates, rfl⟩ :=
    hclaims.started (hreap.inv hi) hrow hrunning
  have htry := (hreap.inv hi).claimDependencies htried
  -- the claim reads the registrations of the state before it
  have houtside : tried.outside = s.outside :=
    (background_claimDependencies htried).outside.trans (outside_reapExpiredLeases hreaped)
  have hexecutors := executors_of_outside houtside
  have hcapabilities := capabilities_of_outside houtside
  have hsame : tried.AdvertisesRegistered executor task.capability ↔
      ∀ before, s.tasks.lookup t = some before →
        s.AdvertisesRegistered executor before.capability := by
    have hback : ∀ before, s.tasks.lookup t = some before →
        before.capability = task.capability := by
      intro before hbefore
      have hlater := (hreap.path t).later.trans (htry.path t).later
      obtain ⟨row', hrow', -, hcap, -⟩ := hlater.row before hbefore
      rw [← hcap, View.row_eq hrow' htask]
    have hexists : ∃ before, s.tasks.lookup t = some before := by
      refine Option.ne_none_iff_exists'.mp fun hnone => ?_
      have hnone₁ := (hreap.path t).row_none (fun _ hc => hc.ne.2.2.1 _ rfl) hnone
      have hnone₂ := (htry.path t).row_none (fun _ hc => by simp [quietLabels, Label.Quiet] at hc) hnone₁
      exact absurd (htask.symm.trans hnone₂) (by simp)
    simp only [AdvertisesRegistered, hexecutors, hcapabilities]
    refine ⟨fun hadv before hbefore => hback before hbefore ▸ hadv, fun hadv => ?_⟩
    obtain ⟨before, hbefore⟩ := hexists
    exact hback before hbefore ▸ hadv before hbefore
  rw [← hsame]
  -- the started row asks for what the claimed one asked for
  obtain ⟨sp, hstarted⟩ := startClaim_row htask hrow
  obtain ⟨hseen, hcaps⟩ := tried.startClaim_executors t task spec executor x lease
    s.currentRuntimeEpoch env.now
  have hlive : Executor.live { x with
      runtimeEpoch := s.currentRuntimeEpoch, lastSeenAt := some env.now } env.now = true := by
    exact decide_eq_true (Int.sub_lt_self _ (by decide))
  have hcapability : row.capability = task.capability := by simp [hstarted, Task.started]
  have hdigest : row.capabilityDigest = task.capabilityDigest := by simp [hstarted, Task.started]
  have hfacts := startClaim_requiredFacts htask hspec hrow
  unfold accepts
  rw [hseen, Table.lookup_modify_self, hgates.stored, Option.map_some, hcapability]
  rw [← hgates.executorCanRun_iff (htry.inv (hreap.inv hi)).executors hlive rfl rfl rfl hdigest hfacts]
  simp only [executorCanRun, descriptorCanRun, requiredResourceKeys, hcaps,
    Bool.false_eq_true, if_false]

/-! ## Two versions of one capability -/

/-- Two executors register their versions of a capability in this order, and a task is pinned to the
version of the second one. -/
def registeredVersions (first second : String) : State :=
  initial.replay
    [(.tick 0 "0", .beginRuntimeSession "boot" none),
      (.tick 1 "1", .registers "e-1" [("capability_id", .str "c"), ("definition_digest", .str first)]
        []),
      (.tick 2 "2", .registers "e-2" [("capability_id", .str "c"), ("definition_digest", .str second)]
        []),
      (.tick 3 "3", .submitTask { capability := "c", spec := {}, capabilityDigest := some second })]

/-- The claim of the first executor when both have the version of the task. -/
theorem running_claim_accepted_same_version :
    ∃ s' row, (registeredVersions "d" "d").claimTask (.tick 4 "4") "task-3" "e-1" "lease" 1 false =
        .ok (s', row) ∧ row.status = .running ∧ s'.accepts (.tick 4 "4") "e-1" row := by
  obtain ⟨⟨s', row⟩, h, hstatus⟩ := map_eq_ok.mp
    (show ((registeredVersions "d" "d").claimTask (.tick 4 "4") "task-3" "e-1" "lease" 1
      false).map (fun r => r.2.status) = .ok .running by decide +kernel)
  refine ⟨s', row, h, hstatus, (running_claim_accepted_iff (Reachable.replay _) h hstatus).mpr ?_⟩
  intro before hbefore x descriptor capability hx hd hc
  have hall : ∀ before ∈ (registeredVersions "d" "d").tasks.lookup "task-3",
      ∀ x ∈ (registeredVersions "d" "d").executors.lookup "e-1",
      ∀ descriptor ∈ x.descriptor before.capability,
      ∀ c ∈ (registeredVersions "d" "d").capabilities.lookup before.capability,
      ∀ d ∈ truthyField descriptor "definition_digest", d = .str c.definitionDigest := by
    decide +kernel
  exact hall before hbefore x hx descriptor hd capability hc

/-- The second registration has overwritten the capability with the version of the task. The first
executor, which has the other version, claims the task; `_executor_can_run` refuses it. -/
theorem overwritten_version_claimed :
    Reachable (registeredVersions "d-1" "d-2") ∧
      ((registeredVersions "d-1" "d-2").claimNext (.tick 4 "4") {} (.obj [("capability_ids",
        .arr []), ("executor_id", .str "e-1"), ("runtime_epoch", .int 1)]) none).map Prod.snd =
          .ok (.attempt "attempt-4" "task-3" "lease-4" 1 30004) ∧
      ((registeredVersions "d-1" "d-2").claimTask (.tick 4 "4") "task-3" "e-1" "lease-4" 1
        false).map (fun r => (r.2.status, r.1.executorCanRun (.tick 4 "4")
          (r.1.executors.lookup "e-1") r.2.capability r.2.capabilityDigest false
          (r.2.spec.getD {}).requiredFacts)) = .ok (.running, .ok false) :=
  ⟨Reachable.replay _, by decide +kernel, by decide +kernel⟩

end WorkspaceRuntime
