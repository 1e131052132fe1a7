import WorkspaceRuntime.Properties.Retention

/-!
# Continuations

A continuation runs after it was admitted, it is admitted once, when both of its predecessors are
completed, and the settlement that completes the last of them admits it. Its inputs are the digests of
their outputs. The spec of a continuation has these inputs until retention releases it; a retry of
the task after that leaves it to be claimed without them.
-/

namespace WorkspaceRuntime

variable {env : Env} {now : Time} {l : Label} {v v' : View} {s : State} {c : Command} {t : TaskId}

/-! ## Ordered inputs -/

theorem foldl_appendNew (inputs : List String) : ∀ digests : List String,
    digests.foldl appendNew inputs = inputs ++ (digests.filter (· ∉ inputs)).eraseDups
  | [] => by simp
  | d :: digests => by
    rw [List.foldl_cons, foldl_appendNew _ digests]
    by_cases hd : d ∈ inputs
    · simp [appendNew, hd]
    · -- the rest of the list is filtered by the inputs, and by the digest itself
      have hfilter : digests.filter (fun x => decide (x ∉ inputs ++ [d])) =
          (digests.filter fun x => decide (x ∉ inputs)).filter fun x => !x == d := by
        rw [List.filter_filter]
        refine List.filter_congr fun x _ => ?_
        by_cases hx : x = d <;> simp [hx]
      rw [appendNew, if_neg hd, hfilter, List.filter_cons_of_pos (by simpa using hd),
        List.eraseDups_cons, List.append_assoc, List.singleton_append]

/-- Each digest is an input once, where it occurs first. -/
theorem orderedInputs_eq (children : List ResolvedChild) :
    orderedInputs children = (childDigests children).eraseDups := by
  simp [orderedInputs, foldl_appendNew]

/-! ## The stored inputs -/

/-- The spec of a continuation has a body. -/
def View.Bodied (v : View) : Prop :=
  (v.dep 0).isSome = true → ∀ row sp, v.row = some row → row.spec = some sp → sp.spec ≠ none

theorem TaskSpec.Continues.body {sp : TaskSpec} (h : sp.Continues) : sp.spec ≠ none := by
  obtain ⟨fields, _, hbody, -⟩ := h
  simp [hbody]

/-- The body is lost with the spec only; a claim of a task without a spec writes one without a body,
but a live task has its spec. -/
theorem Step.bodied (h : Step now l v v') (hv : v.Specified) (hb : v.Bodied) : v'.Bodied := by
  intro hdep row' sp' hrow' hsp'
  cases h with
  | create hcreated =>
    obtain rfl := View.row_eq hcreated.stored hrow'
    obtain rfl := Option.mem_unique hcreated.spec hsp'
    exact (hcreated.continuation hdep).1.body
  | retire hrow =>
    cases hrow'
    simp at hsp'
  | respec hrow hspec hbody | register hrow hspec hbody =>
    cases hrow'
    cases hsp'
    rw [hbody.body]
    exact hb hdep _ _ hrow hspec
  | admission hrow _ _ _ hspec _ hset =>
    cases hrow'
    cases hsp'
    exact (setResolvedChildren_ok hset).2.1.body
  | start hrow hstatus _ _ hstamp _ _ =>
    cases hrow'
    obtain ⟨sp, hsp⟩ := Option.ne_none_iff_exists'.mp
      (hv _ hrow (by rcases hstatus with h | h <;> simp [h, Status.terminal]))
    have hbody := hb hdep _ sp hrow hsp
    rcases hstamp with rfl | ⟨toolchain, rfl⟩
    · obtain rfl := Option.mem_unique hsp hsp'
      exact hbody
    · cases hsp'
      simpa [hsp] using hbody
  | rebind | settle | lift | bind | replace => exact hb hdep _ _ hrow' hsp'
  | recover hrow =>
    cases hrow'
    refine hb hdep _ _ hrow ?_
    split at hsp' <;> exact hsp'
  | wait hrow | touch hrow | stop hrow | withdraw hrow | request hrow | mark hrow | requeue hrow | keepUnknown hrow
    | attempt _ hrow | extend hrow | finish hrow | retry hrow | reopen hrow | finalize hrow
    | fence hrow =>
    cases hrow'
    exact hb hdep _ _ hrow hsp'

/-! ## Admission -/

/-- The predecessors of a continuation that a command admits are completed after it. -/
theorem Inv.next_admits (hi : Inv s) : AdmitsDone (fun _ _ => False) s (c.next env s) := by
  cases hc : c with
  | retryTask access t body key =>
    exact committed_of (.refl s) fun _ hretry => hi.retryTask_admits hretry
  | _ =>
    intro t adm hnone hsome child hchild
    refine (hi.next.admits t adm hnone hsome child hchild).imp id fun hreopen => ?_
    obtain ⟨_, _, _, h⟩ := (Command.labels_rare hreopen).reopen rfl
    simp at h

/-- The children of an admission are completed with these outputs, and the inputs are theirs. -/
theorem Inv.admitted_from {adm : ContinuationAdmission} (hi : Inv s)
    (hadm : s.admissions.lookup t = some adm)
    (hdone : ∀ child ∈ adm.children, (s.view child.taskId).Resolves child) :
    ∃ p q rp rq first second, Predecessors s t p q rp rq ∧ rp.status = .completed ∧
      rq.status = .completed ∧ rp.outputs = some first ∧ rq.outputs = some second ∧
      adm.inputObjectIds = ((first ++ second).filterMap outputDigest).eraseDups := by
  obtain ⟨row, hrow⟩ : ∃ row, s.tasks.lookup t = some row := by
    rw [← Option.ne_none_iff_exists']
    intro hnone
    have hblank := congrArg View.admission ((hi.view t).blank hnone)
    exact absurd (hadm.symm.trans hblank) (by simp [View.blank])
  obtain ⟨hinputs, hfor, -⟩ := ((hi.view t).row row hrow).admitted adm hadm
  rcases hi.predecessors t with ⟨-, hno⟩ | ⟨p, q, rp, rq, hpred⟩
  · have hdep : (s.dependencies.lookup (t, 0)).isSome = true := hfor.dep_isSome
    simp [hno 0] at hdep
  obtain ⟨c, d, hchildren, hc, hd⟩ : ∃ c d, adm.children = [c, d] ∧ c.taskId = p ∧ d.taskId = q := by
    obtain ⟨c, rest, hchildren, hc, hrest⟩ := List.map_eq_cons_iff.mp hfor
    obtain ⟨d, rest', rfl, hd, hnil⟩ := List.map_eq_cons_iff.mp hrest
    obtain rfl := List.map_eq_nil_iff.mp hnil
    refine ⟨c, d, hchildren, ?_, ?_⟩
    · exact Option.some.inj ((Prod.mk.inj hc).2.trans hpred.first)
    · exact Option.some.inj ((Prod.mk.inj hd).2.trans hpred.second)
  have hresolved : ∀ {child : ResolvedChild} {r : Task}, child ∈ adm.children →
      s.tasks.lookup child.taskId = some r → r.status = .completed ∧ r.outputs = some child.outputs := by
    intro child r hmem hr
    obtain ⟨result, hdone', hout⟩ := hdone child hmem
    simp only [View.Done, State.view, hr, Option.map_some, Option.some.injEq, Prod.mk.injEq] at hdone'
    obtain ⟨hstatus, rfl⟩ := hdone'
    exact ⟨hstatus, hout⟩
  obtain ⟨hp, hfirst⟩ := hresolved (by simp [hchildren]) (hc ▸ hpred.row_first)
  obtain ⟨hq, hsecond⟩ := hresolved (by simp [hchildren]) (hd ▸ hpred.row_second)
  refine ⟨p, q, rp, rq, c.outputs, d.outputs, hpred, hp, hq, hfirst, hsecond, ?_⟩
  simp [hinputs, orderedInputs_eq, childDigests, hchildren]

/-- A command that completes a predecessor of a continuation leaves the continuation admitted, if it
is ready. -/
theorem Inv.next_awake {p : TaskId} (hi : Inv s) (hopen : s.statusOf p ≠ some .completed) :
    (c.next env s).statusOf p = some .completed → (c.next env s).Awake p := by
  have hsettles : ∀ {s₁ s' r replayed}, Inv s₁ → s₁.statusOf p ≠ some .completed →
      s₁.settleAttempt env r = .ok (s', replayed) → s'.statusOf p = some .completed →
      s'.Awake p := by
    intro s₁ s' r replayed hi₁ hopen₁ h hdone
    cases replayed with
    | true => exact absurd (State.settleAttempt_replay h ▸ hdone) hopen₁
    | false => exact hi₁.settleAttempt_awake h hopen₁ hdone
  cases c with
  | settleAttempt r =>
    exact committed_of (P := fun s' => s'.statusOf p = some .completed → s'.Awake p)
      (fun hdone => absurd hdone hopen) fun _ h => hsettles hi hopen h
  | failAttempt r =>
    refine committed_of (P := fun s' => s'.statusOf p = some .completed → s'.Awake p)
      (fun hdone => absurd hdone hopen) fun ⟨s', replayed⟩ h hdone => absurd ?_ hopen
    cases replayed with
    | true => exact State.failAttempt_replay h ▸ hdone
    | false => exact hi.failAttempt_completed h hdone
  | importMedia create settle =>
    refine committed_of (P := fun s' => s'.statusOf p = some .completed → s'.Awake p)
      (fun hdone => absurd hdone hopen) fun s' h => ?_
    obtain ⟨claimed, r, replayed, hclaimed, hsettled⟩ := hi.settleMediaImport_ok h
    exact hsettles (hclaimed.inv hi) (fun hdone => hopen (hclaimed.completed_of (by simp) hdone))
      hsettled
  | _ =>
    intro hdone
    refine absurd (hi.next.completed_of ?_ hdone) hopen
    simp [Command.labels, createLabels, delegateLabels, registerLabels, claimNextLabels, backgroundLabels, cancelLabels,
      retryLabels, retryRunLabels, resumeLabels, finalizeLabels, placementLabels, containLabels,
      retireLabels, Label.Background, Label.Quiet]

/-! ## Runs -/

/-- Two tasks of a project and a render that continues them, which is admitted. -/
def renderContinuation : List (Env × Command) :=
  [(.tick 0 "0", .createProject "p"),
    (.tick 0 "0", .beginRuntimeSession "boot" none),
    (.tick 1 "1", .registerExecutor
      { registration :=
          { executorId := "e"
            capabilities := ["c", "rendering.render"].map fun id =>
              .obj [("capability_id", .str id), ("definition_digest", .str "d")]
            sourceEpoch := some (.str "source"), sourceDigest := some "source-digest" }
        runtimeEpoch := none, body := .null }),
    (.tick 2 "2", .submitTask { capability := "c", spec := {}, project := some "p" }),
    (.tick 3 "3", .submitTask { capability := "c", spec := {}, project := some "p" }),
    (.tick 4 "4", .submitTask
      { capability := "rendering.render", spec := continues "task-2" "task-3", project := some "p" }),
    (.tick 5 "5", .claims {} "e" 1 none),
    (.tick 6 "6", .settles "attempt-5" "lease-5" 1 1 [firstOutput]),
    (.tick 7 "7", .claims {} "e" 1 none),
    (.tick 8 "8", settlesSecond)]

/-- The realm after that run. -/
def renderAdmitted : State := State.initial.replay renderContinuation

/-- The render is cancelled. Forty days later the admission of another task releases its spec; it is
retried and claimed, and runs with a spec that has none of its inputs. -/
def renderRetried : State := renderAdmitted.replay
  [(.tick 9 "9", .cancelTask "task-4" (.obj []) (some "cancel")),
    (.tick (days 40) "10", .submitTask { capability := "c", spec := {}, project := some "p" }),
    (.tick (days 40 + 1) "11", .retryTask {} "task-4" (.obj []) (some "retry")),
    (.tick (days 40 + 2) "12", .heartbeatExecutor "e" (some true) (some 1)),
    (.tick (days 40 + 3) "13", .claims {} "e" 1 none)]

end WorkspaceRuntime
