import WorkspaceRuntime.Refine.Claim

/-!
# Registration

Capability rows are only added or replaced, so what an executor advertises stays registered; a
registration that would store anything else is refused.
-/

namespace WorkspaceRuntime

open Fallible State

variable {env : Env} {now : Time} {A : TaskId → Label → Prop} {s s' : State} {value : Json}
  {supplied : Option Int} {executor : ExecutorId}

/-! ## Capabilities -/

theorem State.checkExecutorCapability_ok {u : Unit} :
    s.checkExecutorCapability value = .ok u ↔ ∃ id, capabilityKey value = some (.str id) ∧ id ≠ "" ∧
      (s.capabilities.lookup id).isSome = true := by
  have hstr : ∀ (o : Option Json) id, o.bind Json.asStr = some id ↔ o = some (.str id) := by
    intro o id
    rcases o with _ | v
    · simp
    · cases v <;> simp [Json.asStr]
  simp only [checkExecutorCapability, bind_eq_ok, orThrow_eq_ok, require_eq_ok, hstr]
  constructor
  · rintro ⟨id, hid, _, hne, hsome⟩
    exact ⟨id, hid, hne, hsome⟩
  · rintro ⟨id, hid, hne, hsome⟩
    exact ⟨id, hid, (), hne, hsome⟩

/-- New capability rows. -/
theorem Evolves.capabilities {capabilities : Table CapabilityId Capability}
    (hgrow : ∀ id, (s.capabilities.lookup id).isSome = true → (capabilities.lookup id).isSome = true) :
    Evolves now A s { s with capabilities } := by
  refine .frame (fun _ => rfl) { Grow.refl s with } fun hs => { hs with executors := ?_ }
  intro e x hx value hv
  obtain ⟨id, hid, hne, hsome⟩ := checkExecutorCapability_ok.mp (hs.executors e x hx value hv)
  exact checkExecutorCapability_ok.mpr ⟨id, hid, hne, hgrow id hsome⟩

theorem State.registerCapability_evolves {id : CapabilityId} {row : Capability}
    (h : s.registerCapability id row = .ok s') : Evolves now A s s' := by
  simp only [registerCapability, bind_eq_ok, return_ok] at h
  obtain ⟨_, -, rfl⟩ := h
  refine .capabilities fun id' hsome => ?_
  rw [Table.lookup_upsert]
  split
  · rfl
  · exact hsome

theorem State.registerDescriptor_evolves (h : s.registerDescriptor value = .ok s') :
    Evolves now A s s' := by
  unfold registerDescriptor at h
  split at h
  next =>
    cases h
    exact .refl _
  next fs _ =>
    simp only [bind_eq_ok] at h
    obtain ⟨id, -, h⟩ := h
    split at h
    next =>
      cases h
      exact .refl _
    next =>
      simp only [bind_eq_ok] at h
      obtain ⟨_, -, row, -, h⟩ := h
      exact registerCapability_evolves h

theorem State.registerId_evolves (h : s.registerId env value = .ok s') :
    Evolves now A s s' := by
  simp only [registerId, bind_eq_ok] at h
  obtain ⟨id, -, h⟩ := h
  split at h
  next =>
    cases h
    exact .refl _
  next => exact registerCapability_evolves h

/-! ## Executors -/

theorem Inv.upsertExecutor {reg : ExecutorRegistration} (hi : Inv s)
    (h : s.upsertExecutor env reg supplied = .ok s') : Evolves now A s s' := by
  simp only [State.upsertExecutor, bind_eq_ok, return_ok] at h
  obtain ⟨_, -, epoch, -, facts, -, _, -, keys, -, described, hdescribed, registered, hregistered, _,
    hcheck, _, -, rfl⟩ := h
  have hfirst : Evolves now A s described :=
    .loop hi (fun _ _ {_ _} _ _ hstep => registerDescriptor_evolves hstep) hdescribed
  have hsecond : Evolves now A described registered :=
    .loop (hfirst.inv hi) (fun _ _ {_ _} _ _ hstep => registerId_evolves hstep) hregistered
  refine (hfirst.trans hsecond).trans (.frame (fun _ => rfl)
    { Grow.refl registered with } fun hs => { hs with executors := ?_ })
  intro e x hx value hv
  rw [Table.lookup_upsert] at hx
  split at hx
  next =>
    -- the row is returned to its caller only after every stored value was checked
    cases hx
    obtain ⟨_, hok, -⟩ := mem_of_mapM hcheck hv
    exact hok
  next => exact hs.executors e x hx value hv

theorem Inv.registerExecutor {r : RegisterRequest} {replayed : Bool} (hi : Inv s)
    (h : s.registerExecutor env r = .ok (s', replayed)) : Evolves env.now A s s' := by
  simp only [State.registerExecutor, bind_eq_ok] at h
  obtain ⟨_, -, _, -, _, -, _, -, _, -, replay, -, h⟩ := h
  split at h
  next =>
    cases h
    exact .refl _
  next =>
    simp only [bind_eq_ok, return_ok, Prod.mk.injEq] at h
    obtain ⟨epoch, -, registered, hregistered, recorded, hrecord, rfl, -⟩ := h
    exact (hi.upsertExecutor hregistered).trans (sessionRecord_records hrecord).evolves

theorem State.setExecutorReadiness_evolves {ready : Bool}
    (h : s.setExecutorReadiness env executor ready supplied = .ok s') :
    Evolves now A s s' := by
  simp only [setExecutorReadiness, bind_eq_ok, return_ok] at h
  obtain ⟨epoch, -, _, -, rfl⟩ := h
  exact .modifyExecutor _ _ fun _ => rfl

theorem State.heartbeatExecutor_evolves {ready : Option Bool}
    (h : s.heartbeatExecutor env executor ready supplied = .ok s') :
    Evolves now A s s' := by
  simp only [heartbeatExecutor, bind_eq_ok, return_ok] at h
  obtain ⟨epoch, -, _, -, rfl⟩ := h
  exact .modifyExecutor _ _ fun _ => rfl

end WorkspaceRuntime
