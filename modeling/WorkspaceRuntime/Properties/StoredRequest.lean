import WorkspaceRuntime.System

/-!
# Reading a stored execution request

The execution request of a task is checked again on every read, against the input list that its spec
has by then. Only the admission of a continuation changes that list, and it does not look at the
request: a request that declares inputs, of which a continuation can only declare none, is outgrown by
the inputs that the continuation derives.
-/

namespace WorkspaceRuntime

open Fallible State

variable {s : State} {t : TaskId} {row : Task} {q : Json} {inputs : List String}

/-- The request declares an input list, and the continuation was admitted with inputs. -/
def State.Outgrown (s : State) (t : TaskId) (q : Json) : Prop :=
  q.get? "inputs" ≠ none ∧ ∃ adm, s.admissions.lookup t = some adm ∧ adm.inputObjectIds ≠ []

/-- An empty list of declared inputs mirrors only the empty list. -/
theorem checkMirroredInputs_empty {v : Json} (h : checkMirroredInputs v [] = .ok ()) :
    checkMirroredInputs v inputs = .ok () ↔ inputs = [] := by
  simp only [checkMirroredInputs, suppliedInputs, bind_eq_ok, orThrow_eq_ok, require_eq_ok,
    List.mapM_nil, return_ok] at h
  obtain ⟨items, hitems, declared, hdeclared, _, rfl, _, -, _, -, rfl⟩ := h
  constructor
  · intro h
    simp only [checkMirroredInputs, suppliedInputs, bind_eq_ok, orThrow_eq_ok, require_eq_ok] at h
    obtain ⟨items', hitems', declared', hdeclared', supplied, hsupplied, _, -, _, -, rfl⟩ := h
    obtain rfl := Option.mem_unique hitems hitems'
    obtain rfl := Except.ok.inj (hdeclared.symm.trans hdeclared')
    exact List.length_eq_zero_iff.mp (length_mapM hsupplied).symm
  · rintro rfl
    simp [checkMirroredInputs, suppliedInputs, hitems, hdeclared, require]

/-- A request that was accepted without inputs is accepted with others exactly when it declares
none. -/
theorem normalizeExecutionRequest_inputs (h : normalizeExecutionRequest q [] = .ok q) :
    normalizeExecutionRequest q inputs = .ok q ↔ q.get? "inputs" = none ∨ inputs = [] := by
  obtain ⟨fields, target, hnormal, hinputs⟩ := normalizeExecutionRequest_ok h
  have hget : q.get? "inputs" = fields.get "inputs" := by rw [hnormal.object]; rfl
  rw [hnormal.normalize_eq_ok, hget]
  cases hfield : fields.get "inputs" with
  | none => simp [checkPresent]
  | some v =>
    rw [hfield] at hinputs
    simp [checkPresent, checkMirroredInputs_empty hinputs]

/-- What a read of a stored request needs. -/
theorem Inv.executionRequestFromRow_iff (hi : Inv s) (hrow : s.tasks.lookup t = some row)
    (hq : row.executionRequest = some q) :
    s.executionRequestFromRow row = .ok (some q) ↔ ¬s.Outgrown t q := by
  have hwf := (hi.view t).row row hrow
  obtain ⟨sp, hsp, hpending, hadmitted⟩ := hwf.request q hq
  have hload : s.loadSpec row.spec = .ok sp := by
    simp [loadSpec, hsp, require_of _ (hi.spec t row sp hrow hsp)]
  have hread : s.executionRequestFromRow row = .ok (some q) ↔
      normalizeExecutionRequest q sp.inputObjectIds = .ok q := by
    simp [executionRequestFromRow, hload, hq, map_eq_ok]
  rw [hread]
  cases hadm : s.admissions.lookup t with
  | none =>
    refine iff_of_true (hpending hadm) ?_
    rintro ⟨-, adm, hsome, -⟩
    simp [hadm] at hsome
  | some adm =>
    obtain ⟨hinputs, hempty⟩ := hadmitted adm hadm
    rw [hinputs, normalizeExecutionRequest_inputs hempty]
    simp [Outgrown, hadm, or_iff_not_imp_left]

/-- A read of a stored request gives that request. -/
theorem Inv.executionRequestFromRow_ok {r : Option Json} (hi : Inv s)
    (hrow : s.tasks.lookup t = some row) (hq : row.executionRequest = some q)
    (h : s.executionRequestFromRow row = .ok r) : r = some q := by
  obtain ⟨sp, -, hpending, hadmitted⟩ := ((hi.view t).row row hrow).request q hq
  simp only [executionRequestFromRow, bind_eq_ok, hq, map_eq_ok] at h
  obtain ⟨_, -, q', hq', rfl⟩ := h
  cases hadm : s.admissions.lookup t with
  | none => rw [normalizeExecutionRequest_again (hpending hadm) hq']
  | some adm => rw [normalizeExecutionRequest_again (hadmitted adm hadm).2 hq']

/-- The task resource can be read exactly when the stored request can. -/
theorem Inv.getTask_iff (hi : Inv s) (hrow : s.tasks.lookup t = some row)
    (hq : row.executionRequest = some q) : s.getTask t = .ok row ↔ ¬s.Outgrown t q := by
  rw [← hi.executionRequestFromRow_iff hrow hq]
  obtain ⟨run, hrun⟩ := Option.ne_none_iff_exists'.mp (hi.run t row hrow)
  constructor
  · intro h
    simp only [getTask, hrow, hrun, orThrow_some, ok_bind, bind_eq_ok] at h
    obtain ⟨r, hread, -⟩ := h
    rw [hread, hi.executionRequestFromRow_ok hrow hq hread]
  · intro h
    have hbinding : ∃ b, s.executionBinding t = .ok b := by
      unfold executionBinding
      cases s.bindings.lookup t with
      | none => exact ⟨none, rfl⟩
      | some b => simp [storedRequest, hrow, h]
    obtain ⟨b, hb⟩ := hbinding
    simp [getTask, hrow, hrun, h, hb]

/-- In every reachable state the stored execution request of a task is the one its admission stored,
and reading it, alone or with the task, succeeds and returns it unless the request declares an input
list and the task is a continuation that was admitted with inputs. -/
theorem stored_request_readable_iff (hreach : Reachable s) (hrow : s.tasks.lookup t = some row)
    (hq : row.executionRequest = some q) :
    (s.executionRequestFromRow row = .ok (some q) ↔ ¬s.Outgrown t q) ∧
      (s.getTask t = .ok row ↔ ¬s.Outgrown t q) ∧
      ∀ s₀ env (c : Command) admitted, Reachable s₀ → s₀.tasks.lookup t = none →
        (c.next env s₀).tasks.lookup t = some admitted → Leads (c.next env s₀) s →
        admitted.executionRequest = some q := by
  have hi := hreach.inv
  refine ⟨hi.executionRequestFromRow_iff hrow hq, hi.getTask_iff hrow hq, ?_⟩
  intro s₀ env c admitted hreach₀ _ hadmitted hrun
  have hlater := hrun.later hreach₀.next.inv t
  obtain ⟨row', hrow', -, -, -, hsame⟩ := hlater.row admitted hadmitted
  obtain rfl := View.row_eq hrow hrow'
  rcases hsame with hsame | hnone
  · rw [← hsame, hq]
  · simp [hq] at hnone

/-- A task for any machine, with no declared inputs. -/
def undeclaredRequest : Json := .obj [("target", .obj [("kind", .str "default")])]

/-- The continuation was admitted with the outputs of its predecessors, and is readable. -/
theorem stored_request_readable_undeclared :
    ∃ row, (initial.replay (continuationRun (some "p") (some undeclaredRequest) ++
        [(.tick 8 "8", settlesSecond)])).tasks.lookup "task-4" = some row ∧
      (initial.replay (continuationRun (some "p") (some undeclaredRequest) ++
        [(.tick 8 "8", settlesSecond)])).getTask "task-4" = .ok row := by
  obtain ⟨row, hrow, hq⟩ : ∃ row, (initial.replay (continuationRun (some "p")
      (some undeclaredRequest) ++ [(.tick 8 "8", settlesSecond)])).tasks.lookup "task-4" = some row ∧
        row.executionRequest = some undeclaredRequest := by decide +kernel
  refine ⟨row, hrow, (stored_request_readable_iff (Reachable.replay _) hrow hq).2.1.mpr ?_⟩
  rintro ⟨hinputs, -⟩
  exact hinputs rfl

/-- The continuation declares an empty input list, as its admission demands. Once its predecessors
are settled with outputs it can no longer be read, and no claim of any worker gets through. -/
theorem admitted_continuation_unreadable :
    ∃ s, Reachable s ∧
      s = initial.replay (continuationRun (some "p") (some (.obj [("inputs", .arr []),
        ("target", .obj [("kind", .str "default")])])) ++ [(.tick 8 "8", settlesSecond)]) ∧
      (s.getTask "task-4").map (fun _ => ()) = .error (.validation
        "input_object_ids must exactly mirror execution_request.inputs in order") ∧
      (s.claimNext (.tick 9 "9") {} (.obj [("capability_ids", .arr []), ("executor_id", .str "e"),
        ("runtime_epoch", .int 1)]) none).map Prod.snd = .error (.validation
        "input_object_ids must exactly mirror execution_request.inputs in order") :=
  ⟨_, Reachable.replay _, rfl, by decide +kernel, by decide +kernel⟩

end WorkspaceRuntime
