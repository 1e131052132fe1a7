import WorkspaceRuntime.Lib.Run
import WorkspaceRuntime.Service.Wire

/-!
# Project sequence numbers

A command of a project records its receipt in its own transaction, under the next sequence number of
the project. Commands run one after another on one connection, so that the rows of
`command_idempotency` stand in commit order. A row recorded without a project has neither a
transaction nor a number. An admission that finds such a row of its own under its key deletes it and
records a numbered one; no command records such a row of an admission.
-/

namespace WorkspaceRuntime.Sequence

open Fallible

/-- What a receipt says of its transaction. The project is the one that the number is allocated for;
the table has no column for it. -/
structure Facts where
  txnId : String
  project : String
  seq : Nat
  deriving DecidableEq

/-- A row of `command_idempotency`; `facts` is none when `txn_id` and the numbers are null. -/
structure Row where
  requestHash : String
  facts : Option Facts
  deriving DecidableEq

/-- Kind, aggregate and idempotency key. -/
abbrev Key := String × String × String

/-- The tables `project_sequences` and `command_idempotency`. -/
structure Ledger where
  nextSeq : Table String Nat := .empty
  receipts : Table Key Row := .empty

namespace Ledger

variable (l : Ledger)

/-- `_allocate_project_seq`: the tables after it, and the number. -/
def allocateProjectSeq (project : String) : Ledger × Nat :=
  let next := (l.nextSeq.lookup project).elim 2 (· + 1)
  ({ l with nextSeq := l.nextSeq.upsert project next }, next - 1)

/-- `_record_command_receipt`. What it expires are results, which are not part of a row here. -/
def recordCommandReceipt (key : Key) (requestHash txnId project : String) : Except Err Ledger := do
  let (allocated, seq) := l.allocateProjectSeq project
  let receipts ← orThrow (l.receipts.insertNew key ⟨requestHash, some ⟨txnId, project, seq⟩⟩)
    (.integrity "command_idempotency")
  return { allocated with receipts }

/-- The receipt of `create_task`; `old` says that the key has a run, which matches the request. -/
def admissionReceipt (aggregate key requestHash txnId : String) (old : Bool) :
    Except Err Ledger :=
  let key : Key := ("task.create", aggregate, key)
  match l.receipts.lookup key with
  | none => l.recordCommandReceipt key requestHash txnId aggregate
  | some ⟨hash, some facts⟩ =>
    if hash = requestHash then .ok l
    else if old then
      .ok { l with receipts := l.receipts.modify key fun _ => ⟨requestHash, some facts⟩ }
    else .error (.conflict "idempotency key was already used with different input")
  | some ⟨_, none⟩ =>
    if old then
      { l with receipts := l.receipts.filter fun k _ => k ≠ key }.recordCommandReceipt key
        requestHash txnId aggregate
    else .error (.conflict "persisted task admission identity is unavailable")

end Ledger

/-- What a command does to the ledger in a transaction, up to its end. -/
inductive Body where
  | done
  | raise (e : Err)
  | receipt (key : Key) (requestHash txnId project : String) (rest : Body)
  | admission (aggregate key requestHash txnId : String) (old : Bool) (rest : Body)
  /-- `_command_record` without a project, and the plain inserts of the store. -/
  | unnumbered (key : Key) (requestHash : String) (hkind : key.1 ≠ "task.create") (rest : Body)
  /-- A `_transaction` inside the transaction: a savepoint. -/
  | nested (inner rest : Body)
  /-- The same with a handler for what it raises. -/
  | guarded (inner handler rest : Body)

/-- The ledger at the end of a body. A raise has none: whatever is written since the innermost
savepoint, or since the transaction began, is rolled back. -/
def Body.run : Body → Ledger → Except Err Ledger
  | done, l => .ok l
  | raise e, _ => .error e
  | receipt key hash txn project rest, l => do
    rest.run (← l.recordCommandReceipt key hash txn project)
  | admission aggregate key hash txn old rest, l => do
    rest.run (← l.admissionReceipt aggregate key hash txn old)
  | unnumbered key hash _ rest, l => do
    let receipts ← orThrow (l.receipts.insertNew key ⟨hash, none⟩) (.integrity "command_idempotency")
    rest.run { l with receipts }
  | nested inner rest, l => do rest.run (← inner.run l)
  | guarded inner handler rest, l =>
    match inner.run l with
    | .ok l' => rest.run l'
    | .error _ => do rest.run (← handler.run l)

/-- `_transaction`: commit, or roll back. -/
def Ledger.transact (l : Ledger) (command : Body) : Ledger :=
  match command.run l with
  | .ok l' => l'
  | .error _ => l

/-- The number of a row, if it is one of the project. -/
def Row.numberOf (project : String) (row : Row) : Option Nat :=
  (row.facts.filter (·.project = project)).map (·.seq)

/-- The numbers in the receipts of a project, in commit order. -/
def Ledger.numbers (l : Ledger) (project : String) : List Nat :=
  l.receipts.entries.filterMap fun e => e.2.numberOf project

/-! ## One receipt after another -/

/-- The numbers of every project end where its counter stands, and a receipt of an admission has
one. -/
structure Ledger.Exact (l : Ledger) : Prop where
  numbers : ∀ project,
    l.numbers project = List.range' 1 ((l.nextSeq.lookup project).elim 0 (· - 1))
  counter : ∀ project next, l.nextSeq.lookup project = some next → 1 ≤ next
  admission : ∀ key row, l.receipts.lookup key = some row → key.1 = "task.create" → row.facts ≠ none

variable {l l' : Ledger} {key : Key} {hash txn project : String}

theorem Ledger.Exact.record (h : l.Exact)
    (hrecord : l.recordCommandReceipt key hash txn project = .ok l') : l'.Exact := by
  simp only [Ledger.recordCommandReceipt, bind_eq_ok, orThrow_eq_ok, return_ok] at hrecord
  obtain ⟨receipts, hreceipts, rfl⟩ := hrecord
  refine ⟨fun p => ?_, fun p next hnext => ?_, fun k row hrow hkind => ?_⟩
  · simp only [Ledger.numbers, Table.entries_insertNew hreceipts, List.filterMap_append,
      Ledger.allocateProjectSeq, Table.lookup_upsert]
    rw [show l.receipts.entries.filterMap (fun e => e.2.numberOf p) = l.numbers p from rfl,
      h.numbers p]
    by_cases hp : p = project
    · subst hp
      cases hnext : l.nextSeq.lookup p with
      | none => simp [Row.numberOf]
      | some next =>
        obtain ⟨n, rfl⟩ := Nat.exists_eq_add_of_le' (h.counter p next hnext)
        simp [Row.numberOf, List.range'_concat, Nat.add_comm]
    · simp [Row.numberOf, hp, Ne.symm hp]
  · simp only [Ledger.allocateProjectSeq, Table.lookup_upsert] at hnext
    split at hnext
    next =>
      cases hnext
      cases l.nextSeq.lookup project <;> simp
    next => exact h.counter p next hnext
  · rw [Table.lookup_insertNew hreceipts] at hrow
    split at hrow
    next => simp [← Option.some.inj hrow]
    next => exact h.admission k row hrow hkind

/-- A row without a number that is no admission. -/
theorem Ledger.Exact.unnumbered {receipts : Table Key Row} (h : l.Exact)
    (hkind : key.1 ≠ "task.create") (hinsert : l.receipts.insertNew key ⟨hash, none⟩ = some receipts) :
    ({ l with receipts } : Ledger).Exact := by
  refine ⟨fun p => ?_, h.counter, fun k row hrow hcreate => ?_⟩
  · rw [← h.numbers p]
    simp [Ledger.numbers, Table.entries_insertNew hinsert, Row.numberOf]
  · rw [Table.lookup_insertNew hinsert] at hrow
    split at hrow
    next heq => exact absurd (heq ▸ hcreate) hkind
    next => exact h.admission k row hrow hcreate

/-- A receipt that is refreshed keeps its number. -/
theorem Ledger.Exact.refresh {row : Row} (h : l.Exact) (hrow : l.receipts.lookup key = some row) :
    ({ l with receipts := l.receipts.modify key fun _ => ⟨hash, row.facts⟩ } : Ledger).Exact := by
  refine ⟨fun p => ?_, h.counter, fun k row' hrow' hcreate => ?_⟩
  · rw [← h.numbers p]
    simp only [Ledger.numbers, Table.modify, Table.mapRows, List.filterMap_map]
    refine List.filterMap_congr fun e he => ?_
    have hlookup := Table.lookup_eq_some_iff.mpr he
    by_cases hk : e.1 = key
    · obtain rfl := Option.mem_unique hrow (hk ▸ hlookup)
      simp [hk, Row.numberOf]
    · simp [hk]
  · rw [Table.lookup_modify] at hrow'
    split at hrow'
    next heq =>
      subst heq
      simp only [hrow, Option.map_some, Option.some.injEq] at hrow'
      subst hrow'
      exact h.admission _ row hrow hcreate
    next => exact h.admission k row' hrow' hcreate

theorem Ledger.Exact.admissionReceipt {aggregate key : String} {old : Bool} (h : l.Exact)
    (hrun : l.admissionReceipt aggregate key hash txn old = .ok l') : l'.Exact := by
  unfold Ledger.admissionReceipt at hrun
  dsimp only at hrun
  split at hrun
  next => exact h.record hrun
  next stored facts hrow =>
    split at hrun
    next => exact Except.ok.inj hrun ▸ h
    next =>
      split at hrun
      next => exact Except.ok.inj hrun ▸ h.refresh hrow
      next => cases hrun
  next hrow => exact absurd rfl (h.admission _ _ hrow rfl)

/-- The step lemma: what a body commits is exact. -/
theorem Ledger.Exact.run (body : Body) (h : l.Exact) (hrun : body.run l = .ok l') : l'.Exact := by
  induction body generalizing l l' with
  | done => exact Except.ok.inj hrun ▸ h
  | raise => cases hrun
  | receipt key hash txn project rest ih =>
    obtain ⟨l₁, hrecord, hrest⟩ := bind_eq_ok.mp hrun
    exact ih (h.record hrecord) hrest
  | admission aggregate key hash txn old rest ih =>
    obtain ⟨l₁, hreceipt, hrest⟩ := bind_eq_ok.mp hrun
    exact ih (h.admissionReceipt hreceipt) hrest
  | unnumbered key hash hkind rest ih =>
    obtain ⟨receipts, hinsert, hrest⟩ := bind_eq_ok.mp hrun
    exact ih (h.unnumbered hkind (orThrow_eq_ok.mp hinsert)) hrest
  | nested inner rest ihinner ih =>
    obtain ⟨l₁, hinner, hrest⟩ := bind_eq_ok.mp hrun
    exact ih (ihinner h hinner) hrest
  | guarded inner handler rest ihinner ihhandler ih =>
    unfold Body.run at hrun
    split at hrun
    next l₁ hinner => exact ih (ihinner h hinner) hrun
    next =>
      obtain ⟨l₁, hhandler, hrest⟩ := bind_eq_ok.mp hrun
      exact ih (ihhandler h hhandler) hrest

theorem Ledger.Exact.transact (h : l.Exact) (command : Body) : (l.transact command).Exact := by
  unfold Ledger.transact
  split
  next l' hrun => exact h.run command hrun
  next => exact h

theorem Ledger.exact_empty : ({} : Ledger).Exact := ⟨fun _ => rfl, by simp, by simp⟩

/-- **Sequence numbers.** After any commands, committed or rolled back, the numbers in the receipts of
a project are 1, 2, 3 and so on without gap or repetition, in commit order. -/
theorem project_numbers_exact (commands : List Body) (project : String) :
    let l := commands.foldl Ledger.transact {}
    l.numbers project = List.range' 1 (l.numbers project).length := by
  have hmeets : Run.Meets Ledger.transact (fun _ _ => True) {} commands :=
    Run.meets_of fun _ _ _ => trivial
  have hexact := hmeets.preserves (I := Ledger.Exact) (fun {_ c} _ h => h.transact c)
    Ledger.exact_empty
  have hnumbers := hexact.numbers project
  dsimp only
  rw [Run.replay] at hnumbers
  rw [hnumbers, List.length_range']

end WorkspaceRuntime.Sequence
