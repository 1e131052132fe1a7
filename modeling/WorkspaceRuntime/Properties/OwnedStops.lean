import WorkspaceRuntime.Properties.Placement

/-!
# The cancellations of a stopped host

A local host that gives up its executor captures the cancellations it still owns, stops, and
finalises the captured set with the proof of its stop. The set is finalised as a whole: a round of the
loop finalises its own task and moves the others by quiet steps, which undo no stop.
-/

namespace WorkspaceRuntime

open Fallible State View

variable {env : Env} {now : Time} {s s' : State} {v v' : View} {l : Label} {a : AttemptId}
  {captured : Captured} {proof : String} {entry : CapturedEntry}

/-! ## Stopped tasks -/

/-- The stop of the task's attempt is final. -/
structure View.Stopped (v : View) (a : AttemptId) : Prop where
  row : ∃ row, v.row = some row ∧ row.status = .cancelled
  attempt : ∃ g, v.grant a = some g ∧ g.settled = true
  hold : ∀ k r, v.hold k = some r → r.releasedAt ≠ none
  binding : ∃ b, v.binding = some b ∧ b.status = .released

theorem Step.stopped_quiet (h : Step now l v v') (hl : l.Quiet) (hv : v.Stopped a) :
    v'.Stopped a := by
  have hcalm := h.calm hl
  obtain ⟨row, hrow, hcancelled⟩ := hv.row
  obtain ⟨row', hrow', hstage⟩ := hcalm.row row hrow
  obtain ⟨g, hg, hsettled⟩ := hv.attempt
  obtain ⟨g', hg', hsame⟩ := h.grant_later hg
  refine ⟨⟨row', hrow', hstage.status.trans hcancelled⟩, ⟨g', hg', hsame.settled hsettled⟩,
    hcalm.hold ▸ hv.hold, ?_⟩
  obtain ⟨b, hb, hreleased⟩ := hv.binding
  cases h with
  | rebind _ hopen =>
    -- a released binding of a cancelled task is not reset
    rcases hopen with hprepared | ⟨row, hrow₁, hlive⟩
    · simp [hprepared b hb] at hreleased
    · obtain rfl := row_eq hrow hrow₁
      simp [hcancelled, Status.terminal] at hlive
  | _ => first | exact ⟨b, hb, hreleased⟩ | simp [Label.Quiet] at hl

theorem Life.stopped_quiet (h : Life now Label.Quiet v v') (hv : v.Stopped a) : v'.Stopped a :=
  h.preserves (fun hl hs => hs.stopped_quiet hl) hv

/-! ## Rounds -/

/-- What a round needs of its entry. -/
structure CapturedEntry.Stopping (entry : CapturedEntry) (s : State) : Prop where
  current : entry.task.attemptId = some entry.attemptId
  pending : entry.Pending s
  attempt : ∃ g, (s.view entry.taskId).grant entry.attemptId = some g
  held : ∀ k r, (s.view entry.taskId).hold k = some r → r.releasedAt = none →
    some r.leaseToken = entry.task.leaseToken

/-- What a round leaves of its entry. -/
structure CapturedEntry.Done (entry : CapturedEntry) (s : State) (proof : String) : Prop where
  stopped : (s.view entry.taskId).Stopped entry.attemptId
  logged : s.finalized entry proof = true

theorem State.finalized_mono (hlog : s.events ⊆ s'.events) (h : s.finalized entry proof = true) :
    s'.finalized entry proof = true := by
  obtain ⟨e, he, hkind⟩ := List.any_eq_true.mp h
  exact List.any_eq_true.mpr ⟨e, hlog he, hkind⟩

theorem CapturedEntry.Stopping.quiet (h : entry.Stopping s)
    (hpath : Life now Label.Quiet (s.view entry.taskId) (s'.view entry.taskId)) :
    entry.Stopping s' := by
  have hcalm := hpath.calm fun _ hl => hl
  obtain ⟨row, hrow, hrequested, htoken, hcurrent⟩ := h.pending
  obtain ⟨row', hrow', hstage⟩ := hcalm.row _ hrow
  obtain ⟨g, hg⟩ := h.attempt
  obtain ⟨g', hg', -⟩ := hpath.later.grant _ _ hg
  exact ⟨h.current, ⟨row', hrow', hstage.status.trans hrequested, hstage.leaseToken.trans htoken,
    hstage.attemptId.trans hcurrent⟩, ⟨g', hg'⟩, hcalm.hold ▸ h.held⟩

/-- The statements of a round make the stop of its task final. -/
theorem State.stopRows_done (h : entry.Stopping s)
    (hstale : ∃ b ∈ s.bindings.lookup entry.taskId, b.status = .stale) :
    entry.Done (s.stopRows proof now entry) proof := by
  obtain ⟨row, hrow, -⟩ := h.pending
  obtain ⟨b, hb, hst⟩ := hstale
  obtain ⟨g, hg⟩ := h.attempt
  obtain ⟨x, hx, rfl⟩ := Option.map_eq_some_iff.mp hg
  obtain ⟨hlookup, hown⟩ := Option.filter_eq_some_iff.mp hx
  have hb : s.bindings.lookup entry.taskId = some b := hb
  refine ⟨⟨?_, ?_, fun k r hr hopen => ?_, ?_⟩, ?_⟩
  · simp [stopRows, h.current, view, cancelRow, appendEvent, setRunStatus, closeStaleBinding,
      releaseReservations, settleAttemptRow, hrow]
  · simp_all [stopRows, h.current, view, cancelRow, appendEvent, setRunStatus, closeStaleBinding,
      releaseReservations, settleAttemptRow, Attempt.grant]
  · have hhold : (fun k => (s.stopRows proof now entry).reservations.lookup (entry.taskId, k)) =
        releaseHolds entry.task.leaseToken now (s.view entry.taskId).hold := by
      rw [← hold_release, stopRows, h.current]
      rfl
    have hr : releaseHolds entry.task.leaseToken now (s.view entry.taskId).hold k = some r :=
      hhold ▸ hr
    obtain ⟨r₀, hr₀, rfl⟩ := Option.map_eq_some_iff.mp hr
    split at hopen
    · simp at hopen
    next hkept => exact hkept ⟨hopen, .inr (h.held k r₀ hr₀ hopen).symm⟩
  · simp [stopRows, h.current, view, cancelRow, appendEvent, setRunStatus, closeStaleBinding,
      releaseReservations, settleAttemptRow, hb, hst]
  · simp [finalized, stopRows, appendEvent, h.current]

/-- A round finalises its own task, moves the others by quiet steps and only adds to the log. -/
theorem Inv.finalizeEntry_round (hi : Inv s) (hstop : entry.Stopping s)
    (h : s.finalizeEntry proof now entry = .ok s') :
    Evolves now (fun t l => l.Quiet ∨ t = entry.taskId) s s' ∧ entry.Done s' proof ∧
      s.events ⊆ s'.events := by
  obtain ⟨hstale, hrefresh⟩ := finalizeEntry_ok h
  have hdone : entry.Done (s.stopRows proof now entry) proof := stopRows_done hstop hstale
  have hev : Evolves now (fun t l => l.Quiet ∨ t = entry.taskId) s (s.stopRows proof now entry) :=
    .stopRows (fun _ _ hl => .inl hl) (.inr rfl) hstop.pending hstale
  obtain ⟨added, hadded, -⟩ := (background_refreshContinuations hrefresh).logs
  have hlog : (s.stopRows proof now entry).events ⊆ s'.events := by simp [hadded]
  refine ⟨hi.thenRefresh (fun _ _ hl => .inl hl) hrefresh hev, ⟨?_, finalized_mono hlog hdone.logged⟩,
    List.Subset.trans ?_ hlog⟩
  · exact (((hev.inv hi).refreshContinuations hrefresh).path entry.taskId).stopped_quiet hdone.stopped
  · rw [stopRows, hstop.current]
    exact List.subset_append_left _ _

/-- The loop of a finalisation makes the stop of every task of the set final. -/
theorem Inv.finalizeEntries (hi : Inv s) (hnodup : (captured.entries.map (·.taskId)).Nodup)
    (hstop : ∀ entry ∈ captured.entries, entry.Stopping s)
    (h : captured.entries.foldlM (State.finalizeEntry proof now) s = .ok s') :
    ∀ entry ∈ captured.entries, entry.Done s' proof := by
  -- an entry has had its round, or still waits for it
  have hrounds := foldlM_rest (fun rest s₁ => Inv s₁ ∧ (rest.map (·.taskId)).Nodup ∧
    (∀ entry ∈ rest, entry.Stopping s₁) ∧
    ∀ entry ∈ captured.entries, entry ∈ rest ∨ entry.Done s₁ proof) ?_
    ⟨hi, hnodup, hstop, fun _ => .inl⟩ h
  · exact fun entry he => (hrounds.2.2.2 entry he).resolve_left List.not_mem_nil
  rintro current rest s₁ s₂ ⟨hi₁, hnd, hwait, hall⟩ hround
  rw [List.map_cons, List.nodup_cons] at hnd
  obtain ⟨hev, hdone, hlog⟩ := hi₁.finalizeEntry_round (hwait current List.mem_cons_self) hround
  have hquiet : ∀ t, t ≠ current.taskId → Life now Label.Quiet (s₁.view t) (s₂.view t) :=
    fun t ht => (hev.path t).mono fun _ hl => hl.resolve_right ht
  refine ⟨hev.inv hi₁, hnd.2, fun entry he => ?_, fun entry he => ?_⟩
  · exact (hwait entry (.tail _ he)).quiet
      (hquiet _ fun heq => hnd.1 (heq ▸ List.mem_map_of_mem he))
  · rcases hall entry he with hrest | hearlier
    · rcases List.mem_cons.mp hrest with rfl | hrest
      · exact .inr hdone
      · exact .inl hrest
    · -- the task of an earlier round is cancelled, that of this round is not yet
      have hne : entry.taskId ≠ current.taskId := by
        intro heq
        obtain ⟨row, hrow, hcancelled⟩ := hearlier.stopped.row
        obtain ⟨row', hrow', hrequested, -⟩ := (hwait current List.mem_cons_self).pending
        rw [heq] at hrow
        obtain rfl := row_eq hrow hrow'
        simp [hcancelled] at hrequested
      exact .inr ⟨(hquiet _ hne).stopped_quiet hearlier.stopped,
        finalized_mono hlog hearlier.logged⟩

/-! ## The captured set -/

/-- The attempt of a captured entry is the current one of its task. -/
theorem State.captureOwnedLocalCancellations_ok {executor : ExecutorId} {placement : Placement}
    (h : s.captureOwnedLocalCancellations executor placement now = .ok captured)
    (hentry : entry ∈ captured.entries) :
    entry.task.attemptId = some entry.attemptId ∧ entry.attempt.taskId = entry.taskId := by
  simp only [captureOwnedLocalCancellations, bind_eq_ok, return_ok] at h
  obtain ⟨entries, hentries, rfl⟩ := h
  obtain ⟨t, -, hcapture⟩ := exists_of_mem_mapM hentries hentry
  simp only [captureEntry, bind_eq_ok, orThrow_eq_ok, require_eq_ok, return_ok] at hcapture
  obtain ⟨task, -, _, -, a, ha, x, -, _, -, _, hsame, _, -, _, -, _, -, _, -, rfl⟩ := hcapture
  exact ⟨ha, hsame.2.2.2.2.2.2.1⟩

theorem CapturedEntry.Unchanged.stopping (h : entry.Unchanged s proof)
    (hfresh : s.finalized entry proof = false)
    (hcaptured : entry.task.attemptId = some entry.attemptId ∧ entry.attempt.taskId = entry.taskId) :
    entry.Stopping s := by
  refine ⟨hcaptured.1, h.pending hfresh, ?_, fun k r hr hopen => ?_⟩
  · obtain ⟨x, hx, hsame, -⟩ := h.attempt
    have hown : x.taskId = entry.taskId := (congrArg Attempt.taskId hsame).trans hcaptured.2
    exact ⟨x.grant, by simp [view, hx, hown]⟩
  · refine h.held (k, r) ?_ hopen
    have hr : ((entry.taskId, k), r) ∈ s.reservations.entries := Table.lookup_eq_some_iff.mp hr
    simp only [taskReservations, List.mem_insertionSort, List.mem_map, List.mem_filter]
    exact ⟨_, ⟨hr, by simp⟩, rfl⟩

/-- A set that is finalised stays as it is. -/
theorem finalizeOwned_again (hall : ∀ entry ∈ captured.entries, s.finalized entry proof = true) :
    (Command.finalizeOwned captured proof).next env s = s := by
  show committed s id (s.finalizeOwnedLocalCancellations captured proof env.now) = s
  cases hvalid : s.validateOwnedLocalCancellations captured proof with
  | error e => simp [finalizeOwnedLocalCancellations, hvalid, committed, bind, Except.bind]
  | ok replay =>
    cases replay with
    | true => simp [finalizeOwnedLocalCancellations, hvalid, committed]
    | false =>
      obtain ⟨-, -, hfresh⟩ := validateOwnedLocalCancellations_ok hvalid
      have hnil : captured.entries = [] := List.eq_nil_iff_forall_not_mem.mpr fun entry he => by
        simpa [hall entry he] using (hfresh entry he).1
      simp [finalizeOwnedLocalCancellations, hvalid, hnil, committed]

/-- The finalisation of a captured set raises and changes nothing, or the set is what was captured and
all the outstanding work of its executor. It is then stopped as a whole, by this finalisation or by an
earlier one with the same proof; and as long as the log keeps the events of the stop, another
finalisation with this proof changes nothing. -/
theorem owned_stop_finalizes_whole_set {s₀ : State} {executor : ExecutorId} {placement : Placement}
    {now₀ : Time} (hs : Reachable s)
    (hcaptured : s₀.captureOwnedLocalCancellations executor placement now₀ = .ok captured)
    (env : Env) (proof : String) :
    (∃ e, s.finalizeOwnedLocalCancellations captured proof env.now = .error e ∧
      (Command.finalizeOwned captured proof).next env s = s) ∨
    ∃ s', s.finalizeOwnedLocalCancellations captured proof env.now = .ok s' ∧
      (Command.finalizeOwned captured proof).next env s = s' ∧
      (∀ t ∈ s.ownedCancellationRows executor, t ∈ captured.entries.map (·.taskId)) ∧
      (∀ entry ∈ captured.entries, entry.Unchanged s proof) ∧
      ((s' = s ∧ ∀ entry ∈ captured.entries, s.finalized entry proof = true) ∨
        ∀ entry ∈ captured.entries, entry.Pending s ∧
          (s'.view entry.taskId).Stopped entry.attemptId) ∧
      ∀ env₂ s₂, s'.events ⊆ s₂.events →
        (Command.finalizeOwned captured proof).next env₂ s₂ = s₂ := by
  cases hrun : s.finalizeOwnedLocalCancellations captured proof env.now with
  | error e => exact .inl ⟨e, rfl, by simp [Command.next, committed, hrun]⟩
  | ok s' =>
    refine .inr ⟨s', rfl, by simp [Command.next, committed, hrun], ?_⟩
    have hexecutor : captured.executorId = executor := by
      simp only [captureOwnedLocalCancellations, bind_eq_ok, return_ok] at hcaptured
      obtain ⟨_, -, rfl⟩ := hcaptured
      rfl
    simp only [finalizeOwnedLocalCancellations, bind_eq_ok] at hrun
    obtain ⟨replay, hvalid, hrun⟩ := hrun
    obtain ⟨hnodup, hwork, hentries⟩ := validateOwnedLocalCancellations_ok hvalid
    refine ⟨hexecutor ▸ hwork, fun entry he => (hentries entry he).2, ?_⟩
    cases replay with
    | true =>
      obtain rfl : s = s' := by simpa [return_ok] using hrun
      exact ⟨.inl ⟨rfl, fun entry he => (hentries entry he).1⟩, fun _ _ hlog =>
        finalizeOwned_again fun entry he => finalized_mono hlog (hentries entry he).1⟩
    | false =>
      have hdone := hs.inv.finalizeEntries hnodup (fun entry he => (hentries entry he).2.stopping
        (hentries entry he).1 (captureOwnedLocalCancellations_ok hcaptured he)) hrun
      exact ⟨.inr fun entry he => ⟨(hentries entry he).2.pending (hentries entry he).1,
        (hdone entry he).stopped⟩, fun _ _ hlog =>
          finalizeOwned_again fun entry he => finalized_mono hlog (hdone entry he).logged⟩

/-- The task of pod `p` is cancelled while it may still run there. -/
def podCancelled : State :=
  State.initial.replay (podRun.take 4 ++
    [(.tick 4 "4", .cancelTask "task-2" (.obj []) (some "cancel"))])

/-- The host of the pod captures the cancellation. -/
def podCaptured : Except Err Captured :=
  podCancelled.captureOwnedLocalCancellations "e"
    { actual := podTarget "p", evidenceDigest := podEvidence, verified := true
      executorIncarnation := "p" } 5

theorem owned_stop_finalizes_whole_set_pod :
    ∃ captured, podCaptured = .ok captured ∧ captured.entries.map (·.taskId) = ["task-2"] ∧
      ∀ entry ∈ captured.entries, (((Command.finalizeOwned captured "proof").next (.tick 6 "6")
        podCancelled).view entry.taskId).Stopped entry.attemptId := by
  have hrun : podCaptured.toOption.map (fun c => (c.entries.map (·.taskId),
      (podCancelled.finalizeOwnedLocalCancellations c "proof" 6).isOk,
      c.entries.all fun entry => podCancelled.finalized entry "proof")) =
        some (["task-2"], true, false) := by decide +kernel
  cases hcaptured : podCaptured with
  | error e => simp [hcaptured, Except.toOption] at hrun
  | ok captured =>
    simp only [hcaptured, Except.toOption, Option.map_some, Option.some.injEq, Prod.mk.injEq] at hrun
    obtain ⟨hids, hok, hfresh⟩ := hrun
    refine ⟨captured, rfl, hids, ?_⟩
    have hs : Reachable podCancelled := .replay _
    rcases owned_stop_finalizes_whole_set hs hcaptured (.tick 6 "6") "proof" with
      ⟨e, he, -⟩ | ⟨s', -, hnext, -, -, hset, -⟩
    · have he : podCancelled.finalizeOwnedLocalCancellations captured "proof" 6 = .error e := he
      simp [he, Except.isOk, Except.toBool] at hok
    · rcases hset with ⟨-, hall⟩ | hset
      · exact absurd (List.all_eq_true.mpr hall) (by simp [hfresh])
      · exact hnext ▸ fun entry he => (hset entry he).2

end WorkspaceRuntime
