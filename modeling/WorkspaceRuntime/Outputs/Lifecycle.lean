import WorkspaceRuntime.Lib.Run
import WorkspaceRuntime.Service.Ledger

/-!
# The lifecycle of managed outputs

The association of a managed output with its task never changes; its lifecycle row does. A command
leases, pins, promotes, expires or reclaims the output under the row's version, and a command that
is executed moves that version by one. A command that repeats an executed one is answered from the
ledger and moves nothing.
-/

namespace WorkspaceRuntime.Outputs

open Fallible

/-! ## Rows -/

/-- The states of a lifecycle row. -/
inductive Phase where
  | available | temporary | promoted | expired | reclaimed
  deriving DecidableEq

/-- The lease columns, which are written and cleared together. -/
structure Lease where
  id : String
  owner : String
  expiresAt : Time
  deriving DecidableEq

/-- A row of `managed_output_lifecycle`, with the project and the object of its association. -/
structure Output where
  projectId : Option String
  objectDigest : String
  state : Phase
  version : Int := 1
  expiresAt : Option Time := none
  pinnedAt : Option Time := none
  lease : Option Lease := none
  updatedAt : Time := 0
  deriving DecidableEq

/-- The lease that has not expired. -/
def Output.activeLease (o : Output) (now : Time) : Option Lease :=
  o.lease.filter fun lease => lease.id ≠ "" ∧ now < lease.expiresAt

/-- The output is pinned or leased. -/
def Output.Kept (o : Output) (now : Time) : Prop :=
  o.pinnedAt.isSome ∨ (o.activeLease now).isSome

instance (o : Output) (now : Time) : Decidable (o.Kept now) := by unfold Output.Kept; infer_instance

/-! ## Operations -/

/-- The lifecycle operations. -/
inductive Operation where
  | lease | release | pin | unpin | expire | reclaim | promote
  deriving DecidableEq

/-- The operation that a text names. -/
def Operation.parse : String → Option Operation
  | "lease" => some .lease
  | "release" => some .release
  | "pin" => some .pin
  | "unpin" => some .unpin
  | "expire" => some .expire
  | "reclaim" => some .reclaim
  | "promote" => some .promote
  | _ => none

/-- What a body asks for. -/
structure Request where
  operation : String
  expectedVersion : Int
  leaseId : Option String
  leaseOwner : Option String
  leaseSeconds : Option Int
  provenance : Option Json

/-- What a command reads besides the rows: its two readings of the clock and a new id. -/
structure Env where
  now : Time
  leaseClock : Time
  newId : String

/-- The lease is active, and the caller presents another one. -/
def Output.heldByAnother (o : Output) (now : Time) (leaseId : Option String) : Bool :=
  match o.activeLease now, leaseId with
  | some held, some id => id ≠ held.id
  | _, _ => false

/-- The first of two texts that is there and not empty. -/
def firstText (a b : Option String) (default : String) : String :=
  ((a.filter (· ≠ "")).or (b.filter (· ≠ ""))).getD default

/-- The branches of `update_managed_output_lifecycle`: the row before its version and its time are
written. -/
def Output.apply (env : Env) (request : Request) (o : Output) : Operation → Except Err Output
  | .lease => do
    require (o.state ≠ .expired ∧ o.state ≠ .reclaimed)
      (.conflict "managed output is not leaseable")
    require (o.heldByAnother env.now request.leaseId = false)
      (.conflict "managed output lease is held by another owner")
    let seconds ← orThrow request.leaseSeconds
      (.validation "managed output lease_seconds is required")
    require (0 < seconds) (.validation "managed output lease_seconds must be a positive integer")
    let id := firstText request.leaseId (o.lease.map (·.id)) ("managed-lease-" ++ env.newId)
    let owner := firstText request.leaseOwner (o.lease.map (·.owner)) "managed-output-client"
    return { o with lease := some { id, owner, expiresAt := env.leaseClock + 1000 * seconds } }
  | .release => do
    require (o.heldByAnother env.now request.leaseId = false)
      (.conflict "managed output lease does not belong to caller")
    return { o with lease := none }
  | .pin => do
    require (o.state ≠ .expired ∧ o.state ≠ .reclaimed)
      (.conflict "managed output cannot be pinned")
    return { o with pinnedAt := o.pinnedAt.or (some env.now) }
  | .unpin => return { o with pinnedAt := none }
  | .expire => do
    require (o.state = .temporary) (.conflict "only temporary managed outputs can expire")
    require (¬o.Kept env.now) (.conflict "managed output is protected from expiry")
    return { o with state := .expired, expiresAt := o.expiresAt.or (some env.now) }
  | .reclaim => do
    require (o.state = .expired) (.conflict "only expired managed outputs can be reclaimed")
    require (¬o.Kept env.now) (.conflict "managed output is protected from reclaim")
    return { o with state := .reclaimed, lease := none }
  | .promote => do
    require (o.state = .available ∨ o.state = .temporary)
      (.conflict "managed output cannot be promoted")
    require (o.projectId.isSome)
      (.conflict "managed output promotion requires a project association")
    return { o with state := .promoted, expiresAt := none, lease := none }

/-! ## The command -/

/-- The answer to a command. -/
structure Answer where
  output : Output
  lifecycleProvenance : Option Json
  deriving DecidableEq

/-- The rows that the command reads and writes. -/
structure State where
  outputs : Table String Output := .empty
  /-- `project_objects`: project, digest and relation to the time of the row. -/
  projectObjects : Table (String × String × String) Time := .empty
  ledger : CommandLedger Unit Answer := .empty

/-- `Store.update_managed_output_lifecycle`. The row is read and written in one transaction, so that
its last version test cannot fail. -/
def State.updateRow (env : Env) (s : State) (id : String) (request : Request) :
    Except Err (State × Output) := do
  let o ← orThrow (s.outputs.lookup id) (.notFound "managed output not found")
  require (1 ≤ request.expectedVersion)
    (.validation "managed output expected_version must be a positive integer")
  require (request.expectedVersion = o.version)
    (.conflict "managed output lifecycle version conflict")
  let operation ← orThrow (Operation.parse request.operation)
    (.validation "unsupported managed output lifecycle operation")
  let moved ← o.apply env request operation
  let projectObjects := match operation, o.projectId with
    | .promote, some project =>
      s.projectObjects.insertIgnore (project, o.objectDigest, "promoted") env.now
    | _, _ => s.projectObjects
  let written := { moved with version := o.version + 1, updatedAt := env.now }
  return ({ s with outputs := s.outputs.modify id fun _ => written, projectObjects }, written)

/-- A text that may be left out but not be empty. -/
def givenText (fields : Json.Fields) (field : String) : Except Err (Option String) :=
  match fields.get field with
  | none => .ok none
  | some value => do
    require (nonEmptyString (some value)) (.validation (field ++ " must be a non-empty string"))
    return value.asStr

/-- The duration of a lease, which may be left out. -/
def givenSeconds (fields : Json.Fields) : Except Err (Option Int) :=
  match fields.get "lease_seconds" with
  | none => .ok none
  | some (.int n) => do
    require (0 < n) (.validation "lease_seconds must be a positive integer")
    return some n
  | some _ => .error (.validation "lease_seconds must be a positive integer")

/-- The checks of the body. -/
def Request.ofBody (body : Json) : Except Err Request := do
  let fields ← wireObject body ["operation", "expected_version"]
    ["operation", "expected_version", "lease_id", "lease_owner", "lease_seconds", "provenance"]
  let operation ← wireString fields "operation"
  let expectedVersion ← wireInteger fields "expected_version" true
  let leaseId ← givenText fields "lease_id"
  let leaseOwner ← givenText fields "lease_owner"
  let leaseSeconds ← givenSeconds fields
  let provenance := fields.get "provenance"
  require (provenance.all fun value => value.asObj.isSome)
    (.validation "lifecycle provenance must be an object")
  return { operation, expectedVersion, leaseId, leaseOwner, leaseSeconds, provenance }

/-- A call of the command. -/
structure Command where
  env : Env
  associationId : String
  body : Json
  key : Option String

/-- `update_managed_output_lifecycle`. -/
def State.outcome (s : State) (c : Command) : Except Err (State × Answer) := do
  let key ← requireIdempotencyKey c.key
  let request ← Request.ofBody c.body
  let _ ← orThrow (s.outputs.lookup c.associationId) (.notFound "managed output not found")
  let asked := Json.obj [("association_id", .str c.associationId), ("body", c.body)]
  match ← s.ledger.replay () c.associationId (some key) asked c.env.now with
  | some answer => return (s, answer)
  | none => do
    let (s', output) ← s.updateRow c.env c.associationId request
    let answer := { output, lifecycleProvenance := request.provenance }
    let ledger ← s'.ledger.record () c.associationId (some key) asked answer c.env.now
    return ({ s' with ledger }, answer)

/-- The rows after a call: a call that fails writes nothing. -/
def State.next (s : State) (c : Command) : State :=
  match s.outcome c with
  | .ok (s', _) => s'
  | .error _ => s

/-- The call succeeds and is not answered from the ledger. -/
def State.executes (s : State) (c : Command) : Bool :=
  (s.outcome c).isOk && c.key.all fun key => (s.ledger.lookup ((), c.associationId, key)).isNone

/-! ## What one command does -/

variable {s s' : State} {c : Command} {answer : Answer}

/-- The row that an executed command reads, and the one it writes. -/
structure Writes (s : State) (c : Command) (o o' : Output) where
  request : Request
  operation : Operation
  moved : Output
  body : Request.ofBody c.body = .ok request
  found : s.outputs.lookup c.associationId = some o
  named : Operation.parse request.operation = some operation
  applied : o.apply c.env request operation = .ok moved
  written : o' = { moved with version := o.version + 1, updatedAt := c.env.now }

/-- A command that succeeds repeats an executed one and writes nothing, or writes one row. -/
theorem outcome_eq_ok (h : s.outcome c = .ok (s', answer)) :
    (s.executes c = false ∧ s' = s) ∨
      s.executes c = true ∧ ∃ o o', Nonempty (Writes s c o o') ∧
        s'.outputs = s.outputs.modify c.associationId fun _ => o' := by
  have hok : (s.outcome c).isOk = true := by rw [h]; rfl
  simp only [State.outcome, requireIdempotencyKey, CommandLedger.replay, bind_eq_ok, orThrow_eq_ok,
    return_ok] at h
  obtain ⟨_, ⟨key, hkey, _, -, rfl⟩, request, hbody, _, -, replayed, ⟨_, -, hreplay⟩, h⟩ := h
  cases hrow : s.ledger.lookup ((), c.associationId, key) with
  | some row =>
    simp only [hrow, bind_eq_ok, return_ok] at hreplay
    obtain ⟨-, -, -, -, rfl⟩ := hreplay
    exact .inl ⟨by simp [State.executes, hkey, hrow], (congrArg Prod.fst (Except.ok.inj h)).symm⟩
  | none =>
    simp only [hrow, return_ok] at hreplay
    subst hreplay
    simp only [State.updateRow, bind_eq_ok, orThrow_eq_ok, return_ok, Prod.exists,
      Prod.mk.injEq] at h
    obtain ⟨_, _, ⟨o, hfound, -, -, -, -, operation, hnamed, moved, happlied, rfl, rfl⟩, _, -, rfl,
      -⟩ := h
    exact .inr ⟨by simp [State.executes, hok, hkey, hrow], o, _,
      ⟨⟨request, operation, moved, hbody, hfound, hnamed, happlied, rfl⟩⟩, rfl⟩

/-- The row of an output after a command: it is the one that the command writes if it is executed on
that output, and the one before otherwise. -/
theorem lookup_next {id : String} {o : Output} (ho : s.outputs.lookup id = some o) :
    ((s.executes c = true ∧ c.associationId = id) ∧
        ∃ o', Nonempty (Writes s c o o') ∧ (s.next c).outputs.lookup id = some o') ∨
      ¬(s.executes c = true ∧ c.associationId = id) ∧ (s.next c).outputs.lookup id = some o := by
  cases h : s.outcome c with
  | error e =>
    refine .inr ⟨?_, ?_⟩
    · simp [State.executes, h, Except.isOk, Except.toBool]
    · simpa only [State.next, h] using ho
  | ok r =>
    have hnext : s.next c = r.1 := by simp only [State.next, h]
    rw [hnext]
    rcases outcome_eq_ok h with ⟨hreplayed, hs⟩ | ⟨hexecuted, read, written, hwrites, houtputs⟩
    · exact .inr ⟨by simp [hreplayed], hs ▸ ho⟩
    · by_cases hid : c.associationId = id
      · obtain ⟨writes⟩ := hwrites
        have hread : read = o := Option.mem_unique writes.found (hid ▸ ho)
        subst hread
        refine .inl ⟨⟨hexecuted, hid⟩, written, ⟨writes⟩, ?_⟩
        rw [houtputs, hid, Table.lookup_modify_self, ho]
        rfl
      · refine .inr ⟨fun hboth => hid hboth.2, ?_⟩
        rw [houtputs, Table.lookup_modify_of_ne _ _ (Ne.symm hid), ho]

/-! ## Protection -/

/-- The states of an output that is there to stay. -/
def Phase.Settled (p : Phase) : Prop := p = .promoted ∨ p = .available

/-- What an operation at `now` may make of a row. -/
structure Output.Becomes (now : Time) (o o' : Output) : Prop where
  kept : o.Kept now → o'.state = .expired ∨ o'.state = .reclaimed → o'.state = o.state
  reclaimed : o.state = .reclaimed → o'.state = .reclaimed
  settled : o.state.Settled → o'.state.Settled

/-- An operation that leaves the state alone may do the rest. -/
theorem Output.Becomes.of_state {now : Time} {o o' : Output} (h : o'.state = o.state) :
    o.Becomes now o' :=
  ⟨fun _ _ => h, fun hstate => h.trans hstate, fun hstate => h ▸ hstate⟩

theorem apply_becomes {env : Env} {request : Request} {operation : Operation} {o moved : Output}
    (h : o.apply env request operation = .ok moved) : o.Becomes env.now moved := by
  cases operation with
  | lease | release | pin | unpin =>
    simp only [Output.apply, bind_eq_ok, return_ok] at h
    grind [Output.Becomes.of_state]
  | expire =>
    simp only [Output.apply, bind_eq_ok, require_eq_ok, return_ok] at h
    obtain ⟨-, htemporary, -, hfree, rfl⟩ := h
    exact ⟨fun hkept => absurd hkept hfree, by simp [htemporary],
      by simp [Phase.Settled, htemporary]⟩
  | reclaim =>
    simp only [Output.apply, bind_eq_ok, require_eq_ok, return_ok] at h
    obtain ⟨-, hexpired, -, hfree, rfl⟩ := h
    exact ⟨fun hkept => absurd hkept hfree, fun _ => rfl, by simp [Phase.Settled, hexpired]⟩
  | promote =>
    simp only [Output.apply, bind_eq_ok, require_eq_ok, return_ok] at h
    obtain ⟨-, hopen, -, -, rfl⟩ := h
    exact ⟨by simp, fun hreclaimed => by simp [hreclaimed] at hopen, fun _ => .inl rfl⟩

/-- A command moves the rows only as the operations may, and one version by one when executed. -/
def MovesRows (s : State) (c : Command) : Prop :=
  ∀ id o, s.outputs.lookup id = some o → ∃ o', (s.next c).outputs.lookup id = some o' ∧
    o.Becomes c.env.now o' ∧
    o'.version = o.version + if s.executes c ∧ c.associationId = id then 1 else 0

theorem movesRows (s : State) (c : Command) : MovesRows s c := by
  intro id o ho
  rcases lookup_next (c := c) ho with ⟨hexecuted, o', ⟨writes⟩, hnext⟩ | ⟨hnot, hnext⟩
  · refine ⟨o', hnext, ?_, by rw [if_pos hexecuted, writes.written]⟩
    obtain ⟨hkept, hreclaimed, hsettled⟩ := apply_becomes writes.applied
    rw [writes.written]
    exact ⟨hkept, hreclaimed, hsettled⟩
  · exact ⟨o, hnext, .of_state rfl, by rw [if_neg hnot, Int.add_zero]⟩

/-- The output on which a command is executed. -/
def State.executed (s : State) (c : Command) : Option String :=
  if s.executes c then some c.associationId else none

/-- What a run that executes commands on the outputs `executed` may make of the rows. -/
def Carries (executed : List String) (s s' : State) : Prop :=
  ∀ id o, s.outputs.lookup id = some o → ∃ o', s'.outputs.lookup id = some o' ∧
    (o.state = .reclaimed → o'.state = .reclaimed) ∧ (o.state.Settled → o'.state.Settled) ∧
    o'.version = o.version + executed.count id

/-- Over every run, no pinned or leased output is expired or reclaimed, a reclaimed output stays
reclaimed, a promoted or available one stays so, and a version counts the commands executed. -/
theorem managed_outputs_protected (start : State) (run : List Command) :
    Run.Meets State.next MovesRows start run ∧
      Carries (Run.emitted State.next State.executed start run) start
        (Run.replay State.next start run) := by
  refine ⟨Run.meets_of fun c _ s => movesRows s c, ?_⟩
  induction run generalizing start with
  | nil => exact fun id o ho => ⟨o, ho, fun h => h, fun h => h, by simp [Run.emitted]⟩
  | cons c run ih =>
    intro id o ho
    obtain ⟨o₁, ho₁, hstep, hversion⟩ := movesRows start c id o ho
    obtain ⟨o₂, ho₂, hreclaimed, hsettled, hversions⟩ := ih (start.next c) id o₁ ho₁
    refine ⟨o₂, ho₂, fun h => hreclaimed (hstep.reclaimed h),
      fun h => hsettled (hstep.settled h), ?_⟩
    rw [hversions, hversion, Run.emitted, List.count_append, State.executed]
    by_cases hexecutes : start.executes c <;> by_cases hid : c.associationId = id <;>
      simp [hexecutes, hid]
    omega

/-! ## Leases -/

/-- A text field of the body. -/
def Command.field (c : Command) (name : String) : Option String :=
  (c.body.get? name).bind Json.asStr

/-- The active lease that a lease or release finds. -/
def State.contended (s : State) (c : Command) : Option Lease :=
  if c.field "operation" = some "lease" ∨ c.field "operation" = some "release" then
    (s.outputs.lookup c.associationId).bind (·.activeLease c.env.now)
  else none

/-- A lease or release that is executed under an active lease presents that lease. -/
def PresentsHeld (s : State) (c : Command) : Prop :=
  ∀ held ∈ s.contended c, s.executes c = true → c.field "lease_id" = some held.id

/-- A lease or release that finds an active lease presents some lease. -/
def PresentsSome (s : State) (c : Command) : Prop :=
  (s.contended c).isSome → (c.body.get? "lease_id").isSome

instance : DecidableRel PresentsHeld := fun s c => by unfold PresentsHeld; infer_instance

instance : DecidableRel PresentsSome := fun s c => by unfold PresentsSome; infer_instance

/-- A text that is given is read. -/
theorem givenText_eq_ok {fields : Json.Fields} {field : String} {text : Option String}
    (h : givenText fields field = .ok text) :
    (fields.get field).bind Json.asStr = text ∧ ((fields.get field).isSome → text.isSome) := by
  unfold givenText at h
  cases hget : fields.get field with
  | none =>
    rw [hget] at h
    exact ⟨Except.ok.inj h, by simp⟩
  | some value =>
    simp only [hget, bind_eq_ok, require_eq_ok, return_ok] at h
    obtain ⟨-, hvalue, rfl⟩ := h
    cases value with
    | str text => exact ⟨rfl, fun _ => rfl⟩
    | _ => simp [nonEmptyString] at hvalue

/-- The operation and the lease of an accepted body. -/
theorem ofBody_fields {body : Json} {request : Request} (h : Request.ofBody body = .ok request) :
    (body.get? "operation").bind Json.asStr = some request.operation ∧
      (body.get? "lease_id").bind Json.asStr = request.leaseId ∧
      ((body.get? "lease_id").isSome → request.leaseId.isSome) := by
  simp only [Request.ofBody, wireObject, wireString, bind_eq_ok, orThrow_eq_ok, return_ok] at h
  obtain ⟨_, ⟨fields, hfields, -, -, -, -, rfl⟩, _, ⟨_, hoperation, -, -, rfl⟩, _, -, leaseId,
    hlease, -, -, -, -, -, -, rfl⟩ := h
  have hget : ∀ name, body.get? name = fields.get name := fun name => by
    rw [Json.get?, hfields, Option.bind_some]
  rw [hget, hget]
  exact ⟨hoperation, givenText_eq_ok hlease⟩

/-- Under an active lease that is not the caller's, neither a lease nor a release goes through. -/
theorem apply_presented {env : Env} {request : Request} {operation : Operation} {o moved : Output}
    {held : Lease} {id : String} (hop : operation = .lease ∨ operation = .release)
    (h : o.apply env request operation = .ok moved) (hheld : o.activeLease env.now = some held)
    (hid : request.leaseId = some id) : id = held.id := by
  have hfree : o.heldByAnother env.now request.leaseId = false := by
    rcases hop with rfl | rfl
    · simp only [Output.apply, bind_eq_ok, require_eq_ok] at h
      exact h.choose_spec.2.choose_spec.1
    · simp only [Output.apply, bind_eq_ok, require_eq_ok] at h
      exact h.choose_spec.1
  simpa [Output.heldByAnother, hheld, hid] using hfree

/-- A run in which each lease and release of a leased output presents a lease keeps every lease with
its holder: what goes through presents the lease that is held. -/
theorem lease_kept_by_holder (start : State) (run : List Command)
    (h : Run.Meets State.next PresentsSome start run) :
    Run.Meets State.next PresentsHeld start run := by
  refine h.mono fun s c hpresents held hcontended hexecuted => ?_
  have hpresented := hpresents (Option.isSome_of_mem hcontended)
  simp only [State.contended, Option.mem_def, Option.ite_none_right_eq_some,
    Option.bind_eq_some_iff] at hcontended
  obtain ⟨hasked, o, ho, hheld⟩ := hcontended
  rcases lookup_next (c := c) ho with ⟨-, _, ⟨writes⟩, -⟩ | ⟨hnot, -⟩
  · obtain ⟨hoperation, hlease, hgiven⟩ := ofBody_fields writes.body
    obtain ⟨id, hid⟩ := Option.isSome_iff_exists.mp (hgiven hpresented)
    have hop : writes.operation = .lease ∨ writes.operation = .release := by
      have hnamed := writes.named
      rw [Command.field, hoperation, Option.some.injEq, Option.some.injEq] at hasked
      rcases hasked with hasked | hasked
      · rw [hasked] at hnamed
        exact .inl (Option.some.inj hnamed).symm
      · rw [hasked] at hnamed
        exact .inr (Option.some.inj hnamed).symm
    rw [Command.field, hlease, hid, apply_presented hop writes.applied hheld hid]
  · exact absurd ⟨hexecuted, rfl⟩ hnot

/-- An output that `owner-a` holds under the lease `lease-a`. -/
def leasedOutput : State where
  outputs := Table.empty.push "output" {
    projectId := none, objectDigest := "", state := .temporary
    lease := some { id := "lease-a", owner := "owner-a", expiresAt := 5000 } } (by decide)

/-- A call at time 0. -/
def call (key : String) (fields : Json.Fields) : Command :=
  ⟨⟨0, 0, "new"⟩, "output", .obj fields, some key⟩

/-- The holder releases its lease. -/
theorem lease_kept_by_holder_release :
    Run.Meets State.next PresentsHeld leasedOutput
      [call "release" [("expected_version", .int 1), ("lease_id", .str "lease-a"),
        ("operation", .str "release")]] :=
  lease_kept_by_holder _ _ (by decide)

/-- Another caller that presents no lease takes the lease over, and one that presents none releases
it. -/
theorem lease_taken_over :
    ¬Run.Meets State.next PresentsHeld leasedOutput
      [call "take" [("expected_version", .int 1), ("lease_owner", .str "owner-b"),
        ("lease_seconds", .int 9), ("operation", .str "lease")]] ∧
    ¬Run.Meets State.next PresentsHeld leasedOutput
      [call "drop" [("expected_version", .int 1), ("operation", .str "release")]] := by
  decide

end WorkspaceRuntime.Outputs
