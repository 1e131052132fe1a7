import WorkspaceRuntime.Properties.Fencing
import WorkspaceRuntime.Properties.Retention

/-!
# The children of a settled parent

A settlement checks once, from the lineage in the specs, that every child admitted under its attempt
is completed. A child whose spec retention has released is not seen by that check, nor by the check
of the parent's authority when it is retried. Where neither happens the children of a settled parent
stay completed: no child is admitted under an attempt that has ended, and one that names its parent
cannot be retried.
-/

namespace WorkspaceRuntime

open Fallible State View Command

variable {env : Env} {now : Time} {l : Label} {v v' : View} {allowed : Label → Prop} {s s' : State}
  {c : Command} {t : TaskId} {lin : Lineage}

/-! ## Completed children -/

/-- A completed child. Its spec names its parent, until retention releases it. -/
def View.DoneChild (v : View) (lin : Lineage) : Prop :=
  (∃ result, v.Done result) ∧ (v.lineage = some lin ∨ ∀ row, v.row = some row → row.spec = none)

theorem Step.doneChild (h : Step now l v v') (hl : l ≠ .reopen) (hv : v.DoneChild lin) :
    v'.DoneChild lin := by
  obtain ⟨⟨result, hdone⟩, hspec⟩ := hv
  refine ⟨⟨result, h.done hl hdone⟩, ?_⟩
  by_cases hretire : l = .retire
  · subst hretire
    exact .inr fun row' hrow' => (h.retired hrow').1
  rcases hspec with hlin | hnone
  · exact .inl (h.lineage_kept hretire hlin)
  · refine .inr fun row' hrow' => ?_
    have hcreate : ∀ lin', l ≠ .create lin' := by
      rintro lin' rfl
      cases h
      simp [Done, blank] at hdone
    obtain ⟨row, hrow, hterms⟩ := h.terms hretire hcreate hrow'
    by_contra hne
    rcases hterms.back hne with hsome | hlive
    · exact hsome (hnone row hrow)
    · -- a claim gives a spec back, but not to a completed task
      have hstatus : row.status = .completed := by
        simp only [Done, hrow, Option.map_some, Option.some.injEq, Prod.mk.injEq] at hdone
        exact hdone.1
      simp [hstatus, Status.terminal] at hlive

theorem Life.doneChild (h : Life now allowed v v') (hl : ¬allowed .reopen) (hv : v.DoneChild lin) :
    v'.DoneChild lin :=
  h.preserves (I := fun v => v.DoneChild lin) (fun ha hs => hs.doneChild fun e => hl (e ▸ ha)) hv

/-- The sweep of the command releases no spec of an unfinished child whose parent attempt is neither
settled nor overtaken. -/
def Command.SparesChildren (env : Env) (s : State) (c : Command) : Prop :=
  c.sweeps = true → ∀ t row lin, s.tasks.lookup t = some row → s.retires env t row = true →
    (s.view t).lineage = some lin → ¬s.Dead lin.parentAttemptId → row.status = .completed

/-- Retention hides no child from the checks on its parent: the command neither retries a task whose
spec was released, nor releases the spec of an unfinished child. -/
def Command.KeepsLineage (env : Env) (s : State) (c : Command) : Prop :=
  c.RetriesSpec s ∧ c.SparesChildren env s

/-- A task without a spec is not put back in the queue. -/
theorem Command.RetriesSpec.not_reopen (h : c.RetriesSpec s) (hrow : (s.view t).row ≠ none)
    (hnone : ∀ row, (s.view t).row = some row → row.spec = none) : ¬c.labels env s t .reopen := by
  intro hreopen
  obtain ⟨access, body, key, rfl⟩ := (labels_rare hreopen).reopen rfl
  obtain ⟨row, hrow⟩ := Option.ne_none_iff_exists'.mp hrow
  exact h row hrow (hnone row hrow)

theorem View.DoneChild.row_ne_none (h : v.DoneChild lin) : v.row ≠ none := by
  obtain ⟨⟨result, hdone⟩, -⟩ := h
  intro hnone
  simp [Done, hnone] at hdone

/-- While the parent attempt is open, its child names it or is completed. -/
theorem Inv.keepsChild (hi : Inv s) (hok : c.KeepsLineage env s)
    (hopen : ¬s.Dead lin.parentAttemptId)
    (hv : (s.view t).lineage = some lin ∨ (s.view t).DoneChild lin) :
    ((c.next env s).view t).lineage = some lin ∨ ((c.next env s).view t).DoneChild lin := by
  by_cases hlin : (s.view t).lineage = some lin
  · by_cases hretire : c.labels env s t .retire
    · obtain ⟨hsweeps, row, hrow, hretires⟩ := (labels_rare hretire).retire rfl
      have hstatus := hok.2 hsweeps t row lin hrow hretires hlin hopen
      have hdone : (s.view t).DoneChild lin :=
        ⟨⟨row.result, by simp [Done, State.view, hrow, hstatus]⟩, .inl hlin⟩
      refine .inr ((hi.next.path t).doneChild (fun hreopen => ?_) hdone)
      exact labels_reopen (.inr hreopen) hretire
    · exact .inl ((hi.next.path t).lineage_kept hretire hlin)
  · have hdone := hv.resolve_left hlin
    exact .inr ((hi.next.path t).doneChild
      (hok.1.not_reopen hdone.row_ne_none (hdone.2.resolve_left hlin)) hdone)

/-- The same along a run at whose end the parent attempt is open. -/
theorem Steps.keepsChild {s₁ s₂ : State} (hrun : Steps (fun s env c => c.KeepsLineage env s) s₁ s₂)
    (hi : Inv s₁) (hlin : (s₁.view t).lineage = some lin) (hopen : ¬s₂.Dead lin.parentAttemptId) :
    (s₂.view t).lineage = some lin ∨ (s₂.view t).DoneChild lin := by
  refine (hrun.preserves hi (I := fun s => s.Dead lin.parentAttemptId ∨
    ((s.view t).lineage = some lin ∨ (s.view t).DoneChild lin)) ?_ (.inr (.inl hlin))).resolve_left hopen
  intro env s c hi hok hv
  by_cases hdead : s.Dead lin.parentAttemptId
  · exact .inl (hdead.leads hi (.single trivial))
  · exact .inr (hi.keepsChild hok hdead (hv.resolve_left hdead))

/-! ## The ended parent -/

/-- No attempt of the task runs under this fence, and none will. -/
def View.Past (v : View) (fence : Nat) : Prop :=
  ∃ row, v.row = some row ∧ fence ≤ row.leaseFence ∧ (row.status = .running → fence < row.leaseFence)

theorem Step.past {fence : Nat} (h : Step now l v v') (hv : v.Past fence) : v'.Past fence := by
  obtain ⟨row, hrow, hle, hrun⟩ := hv
  cases h <;> simp_all [Past, blank]
  case recover => split <;> simp_all
  case keepUnknown => split <;> simp_all
  case start => omega

theorem Life.past {fence : Nat} (h : Life now allowed v v') (hv : v.Past fence) : v'.Past fence :=
  h.preserves (I := fun v => v.Past fence) (fun _ hs => hs.past) hv

/-- A child that names an ended parent cannot be retried, so it stays completed. -/
theorem Inv.keepsDone (hi : Inv s) (hspec : c.RetriesSpec s) (hdone : (s.view t).DoneChild lin)
    (hpast : (s.view lin.parentTaskId).Past lin.parentFence) :
    ((c.next env s).view t).DoneChild lin := by
  by_cases hreopen : c.labels env s t .reopen
  · obtain ⟨access, body, key, rfl⟩ := (labels_rare hreopen).reopen rfl
    refine committed_of (P := fun s' => (s'.view t).DoneChild lin) hdone fun ⟨s', replayed⟩ h => ?_
    cases replayed with
    | true => exact retryTask_replay h ▸ hdone
    | false =>
      obtain ⟨task, retried, hrow, -, -, hretried, -⟩ := retryTask_ok h
      have hlin : (s.view t).lineage = some lin := by
        rcases hdone.2 with hlin | hnone
        · exact hlin
        · exact absurd (hnone task hrow) (hspec task hrow)
      obtain ⟨parent, sp, limit, hcap⟩ :=
        assertDelegatedRetryCapacity_ok (retryTaskRows_capacity hretried) hlin
      obtain ⟨row, hparent, -, hlt⟩ := hpast
      obtain rfl := row_eq hcap.stored hparent
      exact absurd hcap.fence (hlt hcap.running).ne'
  · exact (hi.next.path t).doneChild hreopen hdone

/-- No child is admitted under an attempt that has ended. -/
theorem Inv.child_of_dead (hi : Inv s) (hdead : s.Dead lin.parentAttemptId)
    (hlin : ((c.next env s).view t).lineage = some lin) : (s.view t).lineage = some lin := by
  refine ((hi.next.path t).lineage_of_some hlin).resolve_right fun hcreate => ?_
  obtain ⟨r, x, parent, sp, -, hunder⟩ := (labels_rare hcreate).child lin rfl
  have hdel := hunder.delegates
  obtain ⟨x', hx', hended⟩ := hunder.attempt ▸ hdead
  obtain rfl := Option.mem_unique hx' hdel.attempt
  rcases hended with hsettled | hepoch | ⟨row, hrow, hfence⟩
  · simp [hdel.live.unsettled] at hsettled
  · exact absurd hdel.live.epoch hepoch.ne
  · obtain rfl := Option.mem_unique hdel.stored hrow
    exact absurd hdel.fence hfence.ne'

/-! ## The settlement -/

/-- The check of a settlement sees a child that names its attempt. -/
theorem Inv.child_completed {a : AttemptId} (hi : Inv s) (hlin : (s.view t).lineage = some lin)
    (ha : lin.parentAttemptId = a)
    (h : s.delegatedChildrenCompleted lin.parentTaskId a = .ok ()) :
    ∃ result, (s.view t).Done result := by
  simp only [delegatedChildrenCompleted, bind_eq_ok, require_eq_ok] at h
  obtain ⟨_, hchildren, -⟩ := h
  obtain ⟨row, hrow, -⟩ := Option.bind_eq_some_iff.mp hlin
  have hstatus : row.status = .completed := hchildren _ (ha ▸ hi.mem_delegatedChildren hrow hlin)
  exact ⟨row.result, by simp [Done, hrow, hstatus]⟩

/-- At the settlement every child that was admitted under the attempt is completed, and the parent is
past the attempt. -/
theorem Inv.settleAttempt_children {r : SettleRequest} {s₁ s₂ s₃ : State} (hi : Inv s₁)
    (hrun : Steps (fun s env c => c.KeepsLineage env s) s₁ s₂)
    (hsettled : s₂.settleAttempt env r = .ok (s₃, false)) (hlin : (s₁.view t).lineage = some lin)
    (ha : lin.parentAttemptId = r.attemptId) :
    (s₃.view t).DoneChild lin ∧ (s₃.view lin.parentTaskId).Past lin.parentFence := by
  have hi₂ := hrun.inv hi
  obtain ⟨x, row, hholds, hchildren, hcompleted⟩ := hi₂.settleAttempt_completed hsettled
  obtain ⟨x', row', hholds', hev⟩ := hi₂.settleAttempt hsettled
  obtain rfl := Option.mem_unique hholds'.attempt hholds.attempt
  -- the lineage names the task and the fence of the attempt
  obtain ⟨x₁, hx₁, htask, -, hfence, -⟩ := hi.parentAttempt hlin
  obtain ⟨x₂, hx₂, hsame⟩ := (hrun.grow hi).attempts _ x₁ hx₁
  obtain rfl := Option.mem_unique (ha ▸ hx₂) hholds.attempt
  rw [hsame.taskId, htask] at hchildren hcompleted
  have hopen : ¬s₂.Dead lin.parentAttemptId := fun hdead =>
    (ha ▸ hdead).not_acts (Acts.settles rfl hsettled)
  have hdone : (s₂.view t).DoneChild lin := by
    rcases hrun.keepsChild hi hlin hopen with hlin₂ | hdone
    · exact ⟨hi₂.child_completed hlin₂ ha hchildren, .inl hlin₂⟩
    · exact hdone
  refine ⟨(hev.path t).doneChild (by simp [finishLabels, Label.Background, Label.Quiet]) hdone, ?_⟩
  obtain ⟨row₃, hrow₃, hstatus⟩ := Option.map_eq_some_iff.mp hcompleted
  obtain ⟨row₃', hrow₃', -, -, hle, -⟩ := (hev.path x₂.taskId).later.row row hholds.leased.stored
  rw [hsame.taskId, htask] at hrow₃'
  obtain rfl := row_eq hrow₃ hrow₃'
  refine ⟨row₃', hrow₃', ?_, by simp [hstatus]⟩
  rw [← hfence, ← hsame.fence, ← hholds.fence]
  exact hle

/-- A sweep that finds no spec to release spares every child. -/
theorem Command.sparesChildren_of_none (h : ∀ e ∈ s.tasks.entries, s.retires env e.1 e.2 = false) :
    c.SparesChildren env s := by
  intro _ t row lin hrow hretires
  exact absurd hretires (by simp [h (t, row) (Table.lookup_eq_some_iff.mp hrow)])

/-- The child is settled before its parent. -/
def childSettled : State :=
  (initial.replay delegationRun).replay
    [claimsChild, (.tick 6 "6", .settles "attempt-5" "lease-5" 1 1 [])]

/-- The settlement of the parent. -/
def settlesParent : SettleRequest where
  attemptId := "attempt-3"
  body := .obj (leaseFields "lease-3" 1 1)
  key := some "settle"
  staged := .ok []

end WorkspaceRuntime
