import WorkspaceRuntime.Lib.Trace
import WorkspaceRuntime.Store.Claim

/-!
# The life of one task

A task is spread over six tables: its row, its execution binding, its dependency rows, its
continuation admission, its reservations and its attempts; its placement decisions are events. `View` is what they hold about one task,
and `Step` is the automaton of the changes that a view goes through; the label of a step says what
kind of event it is. No step is about a command: the commands are shown to be paths of this automaton,
one path for every task of the realm.

The automaton is where the external work of a task is tracked: `View.unresolved` says that a verified
external executor may still be running, and the guards of the steps say which changes are made only
when it is not.
-/

namespace WorkspaceRuntime

/-- The lease that an attempt was granted, and whether the attempt is settled. -/
structure Grant where
  leaseId : LeaseId
  fence : Nat
  executorId : ExecutorId
  runtimeEpoch : Nat
  settled : Bool
  deriving DecidableEq

/-- The lease of an attempt row. -/
def Attempt.grant (x : Attempt) : Grant where
  leaseId := x.leaseId
  fence := x.fence
  executorId := x.executorId
  runtimeEpoch := x.runtimeEpoch
  settled := x.settled

/-- What the tables hold about one task. -/
@[ext] structure View where
  row : Option Task
  binding : Option Binding
  admission : Option ContinuationAdmission
  /-- The predecessor of each ordinal. -/
  dep : Nat → Option TaskId
  /-- The reservation of each resource key. -/
  hold : ResourceKey → Option Reservation
  /-- The lease of each of the task's attempts. -/
  grant : AttemptId → Option Grant
  /-- The placement decisions, the latest one last. -/
  decisions : List PlacementDecision

namespace View

/-- The view of a task that does not exist. -/
def blank : View where
  row := none
  binding := none
  admission := none
  dep _ := none
  hold _ := none
  grant _ := none
  decisions := []

/-- The binding is that of an attempt whose verified external executor may still run. -/
def unresolved (v : View) : Prop := ∃ b ∈ v.binding, b.unresolvedExternal = true

instance (v : View) : Decidable v.unresolved :=
  inferInstanceAs (Decidable (∃ b ∈ v.binding, b.unresolvedExternal = true))

/-- The attempt, if it is one of the task's, is settled. -/
def Closed (v : View) (a : Option AttemptId) : Prop := ∀ b ∈ a, ∀ g ∈ v.grant b, g.settled = true

end View

/-- What the tables hold about a task of the realm. -/
def State.view (s : State) (t : TaskId) : View where
  row := s.tasks.lookup t
  binding := s.bindings.lookup t
  admission := s.admissions.lookup t
  dep i := s.dependencies.lookup (t, i)
  hold k := s.reservations.lookup (t, k)
  grant a := ((s.attempts.lookup a).filter (·.taskId = t)).map Attempt.grant
  decisions := s.events.filterMap (State.placementDecision t)

/-! ## Changes of the parts of a view -/

/-- The reservations of the lease, or all without one, are released. -/
def releaseHolds (lease : Option LeaseId) (now : Time)
    (hold : ResourceKey → Option Reservation) (k : ResourceKey) : Option Reservation :=
  (hold k).map fun r =>
    if r.releasedAt = none ∧ (lease = none ∨ lease = some r.leaseToken) then
      { r with releasedAt := some now }
    else r

/-- The reservations of the lease have a new deadline. -/
def extendHolds (lease : LeaseId) (deadline : Time)
    (hold : ResourceKey → Option Reservation) (k : ResourceKey) : Option Reservation :=
  (hold k).map fun r =>
    if r.leaseToken = lease ∧ r.releasedAt = none then { r with leaseExpiresAt := deadline } else r

/-- The attempt is settled. -/
def settleGrants (a : AttemptId) (grant : AttemptId → Option Grant) (b : AttemptId) : Option Grant :=
  if b = a then (grant b).map fun g => { g with settled := true } else grant b

/-- A claimed binding is closed with this status. -/
def Binding.closed (status : BindingStatus) (now : Time) (b : Binding) : Binding :=
  if b.status = .claimed then { b with status := status, updatedAt := now } else b

/-- The binding of a fenced child. -/
def Binding.fenced (now : Time) (b : Binding) : Binding :=
  if b.status = .prepared then { b with status := .stale, updatedAt := now } else b

/-- None of the bindings is that of an external executor that may still run. -/
def Resolved (b : Option Binding) : Prop := ∀ x ∈ b, x.unresolvedExternal = false

/-- The binding waits for an attempt. -/
def Prepared (b : Option Binding) : Prop := ∀ x ∈ b, x.status = .prepared

/-- The target of the request that the row stores, as a read of the row returns it. -/
def Task.Targets (row : Task) (target : Json) : Prop :=
  ∃ q q' inputs, row.executionRequest = some q ∧ normalizeExecutionRequest q inputs = .ok q' ∧
    q'.get? "target" = some target

/-- The target that the next attempt of the task is to run on. -/
def View.Selects (v : View) (target : Json) : Prop :=
  match v.decisions.getLast? with
  | some decision => decision.replacementTarget = target
  | none => ∃ row, v.row = some row ∧ row.Targets target

/-- A binding that is rewritten keeps its selector or takes the one of the next attempt; it is claimed
only if it is left alone. -/
def View.Rebinds (v : View) (b : Option Binding) : Prop :=
  ∀ x ∈ b, ∃ y ∈ v.binding, (x.selected = y.selected ∨ v.Selects x.selected) ∧
    (x.status = .claimed → x = y)

/-- A decision that replaces the placement of the task. -/
structure View.Decides (v : View) (row : Task) (d : PlacementDecision) : Prop where
  version : d.placementVersion = ((v.decisions.getLast?.map (·.placementVersion)).getD 0) + 1
  run : d.runId = row.runId
  original : row.Targets d.originalTarget
  previous : v.Selects d.previousEffectiveTarget
  normal : normalizeExecutionTarget (some d.replacementTarget) = .ok d.replacementTarget
  moved : d.replacementTarget ≠ d.previousEffectiveTarget

/-- The specs agree in what an admission and a settlement read of them. -/
structure TaskSpec.SameBody (sp sp' : TaskSpec) : Prop where
  inputs : sp'.inputObjectIds = sp.inputObjectIds
  body : sp'.spec = sp.spec
  storage : sp'.storageEstimate = sp.storageEstimate
  lineage : sp'.delegatedParent = sp.delegatedParent

/-- The spec that a start leaves: the one before, or that one stamped with a toolchain. -/
def Stamped (spec spec' : Option TaskSpec) : Prop :=
  spec' = spec ∨ ∃ toolchain, spec' = some { spec.getD {} with runtimeReuseToolchain := toolchain }

/-- The body of a continuation names its dependencies. -/
def TaskSpec.Continues (sp : TaskSpec) : Prop :=
  ∃ fields dependencies, sp.spec = some (.obj fields) ∧
    Json.Fields.get fields "runtime_dependencies" = some (.obj dependencies)

/-- The predecessors that a resolved admission names, by ordinal. -/
def ResolvedFor (dep : Nat → Option TaskId) (children : List ResolvedChild) : Prop :=
  children.map (fun c => (c.ordinal, some c.taskId)) = [(0, dep 0), (1, dep 1)]

/-- The view of a task right after its rows are inserted. -/
structure View.Created (v : View) (row : Task) (sp : TaskSpec) : Prop where
  stored : v.row = some row
  spec : row.spec = some sp
  status : row.status = .queued
  fence : row.leaseFence = 0
  token : row.leaseToken = none
  deadline : row.leaseExpiresAt = none
  waiting : row.unknown = false
  prepared : Prepared v.binding
  selected : ∀ b ∈ v.binding, ∃ q, row.executionRequest = some q ∧
    b.selected = (q.get? "target").getD .null
  decisions : v.decisions = []
  admission : v.admission = none
  hold : ∀ k, v.hold k = none
  grant : ∀ a, v.grant a = none
  dep_lt : ∀ i p, v.dep i = some p → i < 2
  dep_pair : (v.dep 0).isSome = (v.dep 1).isSome
  storage : ∀ e ∈ sp.storageEstimate, validateStorageEstimate e = .ok ()
  request : ∀ q ∈ row.executionRequest, normalizeExecutionRequest q sp.inputObjectIds = .ok q
  continuation : (v.dep 0).isSome → sp.Continues ∧ sp.inputObjectIds = []

/-! ## The automaton -/

/-- What kind of event a step is. -/
inductive Label where
  /-- A closed delegation, a waiting reason, a timestamp, a binding without external work, or a
  settled attempt. -/
  | note
  /-- The inputs that an attempt derives for its children are registered. -/
  | register
  /-- The admission of a continuation. -/
  | admission
  /-- A cancel, or the request of one. -/
  | cancel
  /-- A cancel of a failed task. -/
  | withdraw
  /-- A lease that expired or that a restart ended. -/
  | expire
  /-- A granted claim. -/
  | start
  /-- The attempt of a started task, and its binding. -/
  | bind
  /-- A heartbeat. -/
  | extend
  /-- A settlement or a failure. -/
  | finish
  /-- A failed or cancelled task goes back to the queue. -/
  | retry
  /-- A completed task goes back to the queue. -/
  | reopen
  /-- Retention releases the spec. -/
  | retire
  /-- The rows are inserted; the spec records this delegation. -/
  | create (lineage : Option Lineage)
  /-- A resume resets the binding before it claims. -/
  | lift
  /-- An owner stop is finalised. -/
  | finalize
  /-- The parent's placement was replaced. -/
  | fence
  /-- The placement is replaced. -/
  | replace
  deriving DecidableEq, Repr

/-- One change of a view at clock value `now`. -/
inductive Step (now : Time) : Label → View → View → Prop
  /-- The delegation under an attempt is closed. -/
  | respec {v : View} {row : Task} {sp sp' : TaskSpec} (hrow : v.row = some row)
      (hspec : row.spec = some sp) (hbody : sp.SameBody sp')
      (hclosed : ∃ a, sp' = { sp with delegationClosedAttemptId := a }) :
      Step now .note v { v with row := some { row with spec := some sp' } }
  | register {v : View} {row : Task} {sp sp' : TaskSpec} (hrow : v.row = some row)
      (hspec : row.spec = some sp) (hbody : sp.SameBody sp')
      (hregistry : ∃ r, sp' = { sp with derivedInputRegistry := r }) :
      Step now .register v { v with row := some { row with spec := some sp' } }
  /-- The waiting reason of a task that may have external work is not touched. -/
  | wait {v : View} {row : Task} {reason : Option WaitingReason} (hrow : v.row = some row)
      (hqueued : row.status = .queued) (hresolved : ¬v.unresolved)
      (hreason : reason ≠ some .providerStateUnknown) :
      Step now .note v { v with row := some { row with waitingReason := reason, updatedAt := now } }
  | touch {v : View} {row : Task} (hrow : v.row = some row) :
      Step now .note v { v with row := some { row with updatedAt := now } }
  /-- A binding that is not prepared is reset only while its task is open. -/
  | rebind {v : View} {b : Option Binding} (hresolved : ¬v.unresolved)
      (hopen : Prepared v.binding ∨ ∃ row, v.row = some row ∧ row.status.terminal = false)
      (hb : Prepared b) (hsome : b.isSome = v.binding.isSome) (hsel : v.Rebinds b) :
      Step now .note v { v with binding := b }
  | settle {v : View} (a : AttemptId) : Step now .note v { v with grant := settleGrants a v.grant }
  /-- Both predecessors are done: the inputs are those of the resolved children. -/
  | admission {v : View} {row : Task} {sp sp' : TaskSpec} {children : List ResolvedChild}
      (hrow : v.row = some row) (hqueued : row.status = .queued) (hnone : v.admission = none)
      (hresolved : ¬v.unresolved) (hspec : row.spec = some sp)
      (hchildren : ResolvedFor v.dep children)
      (hset : setResolvedChildren { sp with inputObjectIds := orderedInputs children } children =
        .ok sp') :
      Step now .admission v { v with
        row := some { row with spec := some sp', waitingReason := none, updatedAt := now }
        admission := some
          { children, inputObjectIds := orderedInputs children, admittedAt := now } }
  | stop {v : View} {row : Task} {lease : Option LeaseId} {b : Option Binding}
      (hrow : v.row = some row) (hopen : row.status ≠ .completed) (hresolved : ¬v.unresolved)
      (hlease : row.leaseToken = lease ∨ row.leaseToken = none) (hclosed : v.Closed row.attemptId)
      (hb : b = v.binding ∨ b = v.binding.map (Binding.closed .released now))
      (hfailed : row.status ≠ .failed) :
      Step now .cancel v { v with
        row := some
          { row with status := .cancelled, leaseToken := none, executorId := none, attemptId := none,
                     leaseExpiresAt := none, waitingReason := none, updatedAt := now }
        binding := b
        hold := releaseHolds lease now v.hold }
  /-- The stop of a failed task is the same change. -/
  | withdraw {v : View} {row : Task} {lease : Option LeaseId} {b : Option Binding}
      (hrow : v.row = some row) (hfailed : row.status = .failed) (hresolved : ¬v.unresolved)
      (hlease : row.leaseToken = lease ∨ row.leaseToken = none) (hclosed : v.Closed row.attemptId)
      (hb : b = v.binding ∨ b = v.binding.map (Binding.closed .released now)) :
      Step now .withdraw v { v with
        row := some
          { row with status := .cancelled, leaseToken := none, executorId := none, attemptId := none,
                     leaseExpiresAt := none, waitingReason := none, updatedAt := now }
        binding := b
        hold := releaseHolds lease now v.hold }
  | request {v : View} {row : Task} (hrow : v.row = some row) (hlive : row.status.terminal = false)
      (hunresolved : v.unresolved) :
      Step now .cancel v { v with
        row := some { row with status := .cancelRequested
                               waitingReason := some .providerStateUnknown, updatedAt := now }
        binding := v.binding.map (Binding.closed .stale now) }
  | mark {v : View} {row : Task} (hrow : v.row = some row) (hleased : row.status.leased = true)
      (hunresolved : v.unresolved) (hover : ∀ d ∈ row.leaseExpiresAt, d ≤ now) :
      Step now .expire v { v with
        row := some { row with waitingReason := some .providerStateUnknown, updatedAt := now } }
  | requeue {v : View} {row : Task} {lease : Option LeaseId} (hrow : v.row = some row)
      (hleased : row.status.leased = true) (hresolved : ¬v.unresolved)
      (hlease : row.leaseToken = lease ∨ row.leaseToken = none) (hclosed : v.Closed row.attemptId) :
      Step now .expire v { v with
        row := some
          { row with status := .queued, executorId := none, leaseToken := none, leaseExpiresAt := none,
                     waitingReason := some .waitingForWorker, updatedAt := now }
        hold := releaseHolds lease now v.hold }
  | keepUnknown {v : View} {row : Task} (hrow : v.row = some row)
      (hleased : row.status.leased = true) (hunresolved : v.unresolved) :
      Step now .expire v { v with
        row := some
          { row with
            status := if row.status = .cancelRequested then .cancelRequested else .queued
            leaseExpiresAt := none, waitingReason := some .providerStateUnknown, updatedAt := now }
        binding := v.binding.map (Binding.closed .stale now) }
  /-- A restart releases the lease; only a running task goes back to the queue. -/
  | recover {v : View} {row : Task} {lease : Option LeaseId} (hrow : v.row = some row)
      (hleased : row.status.leased = true) (hresolved : ¬v.unresolved)
      (hlease : row.leaseToken = lease ∨ row.leaseToken = none) (hclosed : v.Closed row.attemptId) :
      Step now .expire v { v with
        row := some (if row.status = .running then
          { row with status := .queued, executorId := none, leaseToken := none, leaseExpiresAt := none,
                     attemptId := none, waitingReason := some .runtimeRecovery, updatedAt := now }
          else row)
        hold := releaseHolds lease now v.hold }
  | start {v : View} {row : Task} {executor : ExecutorId} {lease : LeaseId} {deadline : Time}
      {epoch : Nat} {spec : Option TaskSpec} {keys : List ResourceKey} {r : Reservation}
      (hrow : v.row = some row)
      (hstatus : row.status = .queued ∨ row.status = .cancelRequested) (hresolved : ¬v.unresolved)
      (hadmitted : v.admission = none → ∀ i, v.dep i = none) (hspec : Stamped row.spec spec)
      (hlease : r.leaseToken = lease) (hheld : r.releasedAt = none) :
      Step now .start v { v with
        row := some
          { row with status := .running, executorId := some executor, leaseToken := some lease,
                     leaseFence := row.leaseFence + 1, leaseExpiresAt := some deadline,
                     waitingReason := none, attempt := row.attempt + 1, runtimeEpoch := some epoch,
                     spec := spec, updatedAt := now }
        hold := fun k => if k ∈ keys then some r else v.hold k }
  /-- The attempt of a started task, under a fence that none of its attempts has. -/
  | attempt {v : View} {row : Task} (a : AttemptId) {g : Grant} (hrow : v.row = some row)
      (hrunning : row.status = .running) (hnew : v.grant a = none)
      (hfence : g.fence = row.leaseFence) (hopen : g.settled = false)
      (hfresh : ∀ b g', v.grant b = some g' → g'.fence < row.leaseFence) :
      Step now .bind v { v with
        row := some { row with attemptId := some a }
        grant := fun b => if b = a then some g else v.grant b }
  | bind {v : View} {row : Task} {b b' : Binding} (hrow : v.row = some row)
      (hrunning : row.status = .running) (hb : v.binding = some b) (hprepared : b.status = .prepared)
      (hclaimed : b'.status = .claimed) (hexternal : b'.unresolvedExternal = true)
      (hsel : b'.selected = b.selected)
      (hmatch : executionPlacementMatches b.selected b'.placement = true) :
      Step now .bind v { v with binding := some b' }
  | extend {v : View} {row : Task} {lease : LeaseId} {deadline : Time} (hrow : v.row = some row)
      (hrunning : row.status = .running) (hlive : ∀ d ∈ row.leaseExpiresAt, now < d) :
      Step now .extend v { v with
        row := some { row with leaseExpiresAt := some deadline, updatedAt := now }
        hold := extendHolds lease deadline v.hold }
  | finish {v : View} {row : Task} {lease : LeaseId} {status : Status} {result : Json}
      (hrow : v.row = some row) (hrunning : row.status = .running)
      (hlive : ∀ d ∈ row.leaseExpiresAt, now < d) (hlease : row.leaseToken = some lease)
      (hclosed : v.Closed row.attemptId) (hstatus : status = .completed ∨ status = .failed) :
      Step now .finish v { v with
        row := some { row with status := status, result := some result, leaseExpiresAt := none
                               waitingReason := none, updatedAt := now }
        binding := v.binding.map (Binding.closed .released now)
        hold := releaseHolds (some lease) now v.hold }
  | retry {v : View} {row : Task} {createdAt : Time} {b : Option Binding} (hrow : v.row = some row)
      (hstatus : row.status = .failed ∨ row.status = .cancelled) (hb : Prepared b)
      (hsome : b.isSome = v.binding.isSome) (hsel : v.Rebinds b) :
      Step now .retry v { v with
        row := some
          { row with status := .queued, leaseToken := none, executorId := none, leaseExpiresAt := none,
                     waitingReason := none, result := none, attemptId := none, createdAt := createdAt,
                     updatedAt := now }
        binding := b
        hold := releaseHolds row.leaseToken now v.hold }
  | reopen {v : View} {row : Task} {createdAt : Time} {b : Option Binding} (hrow : v.row = some row)
      (hstatus : row.status = .completed) (hb : Prepared b)
      (hsome : b.isSome = v.binding.isSome) (hsel : v.Rebinds b) :
      Step now .reopen v { v with
        row := some
          { row with status := .queued, leaseToken := none, executorId := none, leaseExpiresAt := none,
                     waitingReason := none, result := none, attemptId := none, createdAt := createdAt,
                     updatedAt := now }
        binding := b
        hold := releaseHolds row.leaseToken now v.hold }
  | retire {v : View} {row : Task} (hrow : v.row = some row) (hdone : row.status.terminal = true) :
      Step now .retire v { v with
        row := some { row with spec := none, expectedEffect := none, executionRequest := none } }
  | create {v : View} {row : Task} {sp : TaskSpec} (hcreated : v.Created row sp) :
      Step now (.create sp.delegatedParent) View.blank v
  | lift {v : View} {b : Option Binding} (hb : Prepared b)
      (hsome : b.isSome = v.binding.isSome) (hsel : v.Rebinds b) :
      Step now .lift v { v with binding := b }
  | finalize {v : View} {row : Task} {b : Option Binding} (hrow : v.row = some row)
      (hrequested : row.status = .cancelRequested) (hclosed : v.Closed row.attemptId)
      (hb : Resolved b) (hsel : v.Rebinds b) :
      Step now .finalize v { v with
        row := some
          { row with status := .cancelled, leaseToken := none, executorId := none, attemptId := none,
                     leaseExpiresAt := none, waitingReason := none, updatedAt := now }
        binding := b
        hold := releaseHolds row.leaseToken now v.hold }
  | fence {v : View} {row : Task} (hrow : v.row = some row) (hqueued : row.status = .queued)
      (hresolved : ¬v.unresolved) :
      Step now .fence v { v with
        row := some
          { row with status := .cancelled, waitingReason := some .parentPlacementRecovered
                     leaseToken := none, executorId := none, leaseExpiresAt := none
                     updatedAt := now }
        binding := v.binding.map (Binding.fenced now) }
  /-- The binding is prepared for the replacement. -/
  | replace {v : View} {row : Task} {b : Binding} {d : PlacementDecision} (hrow : v.row = some row)
      (hstatus : row.status = .failed ∨ row.status = .cancelled) (hbound : v.binding.isSome)
      (hb : Prepared (some b)) (hsel : b.selected = d.replacementTarget) (hd : v.Decides row d) :
      Step now .replace v { v with binding := some b, decisions := v.decisions ++ [d] }

/-- A path of the automaton at one clock value. -/
abbrev Life (now : Time) (allowed : Label → Prop) : View → View → Prop := Trace (Step now) allowed

end WorkspaceRuntime
