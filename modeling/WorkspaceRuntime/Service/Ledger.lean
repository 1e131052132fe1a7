import WorkspaceRuntime.Service.Wire

/-!
# The command ledger

A project command leaves one row in `command_idempotency`, under its kind, its aggregate and the
caller's key. A later call under that key is answered from the row: with the recorded result when it
asks for the same inside the window, and with an error otherwise. Rows are never removed.

A request hash stands for the value it is taken of.
-/

namespace WorkspaceRuntime

open Fallible

/-- A row of `command_idempotency`. -/
structure Executed (α : Type) where
  request : Json
  result : α
  createdAt : Time
  deriving DecidableEq

/-- `command_idempotency`: kind, aggregate and key to what was executed. -/
abbrev CommandLedger (κ α : Type) := Table (κ × String × String) (Executed α)

namespace CommandLedger

variable {κ α : Type} [DecidableEq κ]

/-- `_command_replay`: the result of a command that was executed before. -/
def replay (ledger : CommandLedger κ α) (kind : κ) (aggregate : String) (key : Option String)
    (request : Json) (now : Time) : Except Err (Option α) :=
  match key with
  | none => .ok none
  | some key => do
    validateIdempotencyKey key
    match ledger.lookup (kind, aggregate, key) with
    | none => return none
    | some row => do
      require (row.request = request)
        (.conflict "idempotency key was already used with different input")
      require (now - resultWindow ≤ row.createdAt) (.windowExpired
        "idempotency result is outside its replay window; the command was not executed again")
      return some row.result

/-- `_command_record`. -/
def record (ledger : CommandLedger κ α) (kind : κ) (aggregate : String) (key : Option String)
    (request : Json) (result : α) (now : Time) : Except Err (CommandLedger κ α) :=
  match key with
  | none => .ok ledger
  | some key => do
    validateIdempotencyKey key
    orThrow (ledger.insertNew (kind, aggregate, key) { request, result, createdAt := now })
      (.integrity "command_idempotency")

variable {ledger ledger' : CommandLedger κ α} {kind : κ} {aggregate : String} {request : Json}
  {result : α} {now : Time}

/-- A row that is recorded is in the ledger. -/
theorem lookup_of_record {key : String}
    (h : ledger.record kind aggregate (some key) request result now = .ok ledger') :
    ledger'.lookup (kind, aggregate, key) = some { request, result, createdAt := now } := by
  simp only [record, bind_eq_ok, orThrow_eq_ok] at h
  obtain ⟨-, -, h⟩ := h
  rw [Table.lookup_insertNew h, if_pos rfl]

/-- Whether a row can be recorded does not depend on its request. -/
theorem record_request {key : Option String} (request' : Json)
    (h : ledger.record kind aggregate key request result now = .ok ledger') :
    ∃ other, ledger.record kind aggregate key request' result now = .ok other := by
  cases key with
  | none => exact ⟨ledger, rfl⟩
  | some key =>
    simp only [record, bind_eq_ok, orThrow_eq_ok] at h ⊢
    obtain ⟨_, hvalid, h⟩ := h
    obtain ⟨other, hother⟩ := Table.insertNew_eq_some_iff.mpr
      (Table.insertNew_eq_some_iff.mp ⟨ledger', h⟩)
    exact ⟨other, (), hvalid, hother⟩

/-- Rows are never removed or changed. -/
theorem lookup_of_lookup_of_record {key : Option String} {k : κ × String × String} {row : Executed α}
    (h : ledger.record kind aggregate key request result now = .ok ledger')
    (hrow : ledger.lookup k = some row) : ledger'.lookup k = some row := by
  cases key with
  | none => exact Except.ok.inj h ▸ hrow
  | some key =>
    simp only [record, bind_eq_ok, orThrow_eq_ok] at h
    obtain ⟨-, -, h⟩ := h
    exact Table.lookup_of_insertNew h hrow

/-- Inside the window, a row answers the request it was recorded for. -/
theorem replay_of_lookup {key : String} {row : Executed α} (hkey : validateIdempotencyKey key = .ok ())
    (hrow : ledger.lookup (kind, aggregate, key) = some row)
    (hwindow : now - resultWindow ≤ row.createdAt) :
    ledger.replay kind aggregate (some key) row.request now = .ok (some row.result) := by
  simp only [replay, hkey, hrow, ok_bind, require_of _ hwindow, require_of _ trivial,
    pure_eq_ok]

end CommandLedger

end WorkspaceRuntime
