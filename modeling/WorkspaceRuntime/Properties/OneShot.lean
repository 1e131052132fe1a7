import WorkspaceRuntime.Lib.Run
import WorkspaceRuntime.Refine.Epoch

/-!
# One reboot and one successor

A recovery checkpoint carries the nonce of its authorisation. `request_reboot` invokes the executor for
a durable checkpoint only, after it has committed that the checkpoint is durable no more, and no two
checkpoints share a nonce: the executor runs at most once for a nonce. `resume_attempt` commits the
successor attempt before it marks the checkpoint as resumed. If the process dies between the two, the
checkpoint is good for another successor; without such a crash there is one at most
(`recovery_is_one_shot`).
-/

namespace WorkspaceRuntime

open Fallible State

variable {env : Env} {now : Time} {s s' : State} {x row : RecoveryCheckpoint} {c : CheckpointId}
  {access : Access} {value : Json} {intact : Except Err Unit} {commits : List State}

/-! ## What happens to the database -/

namespace State

/-- The state that a resume leaves when it makes no more than this many commits. -/
def resumeUntil (env : Env) (s : State) (r : ResumeRequest) (commits : Nat) : State :=
  match s.resumeChecks env r with
  | .ok (.proceed c row binding placement epoch) =>
    ((s.resumeCommits env c row binding placement epoch).take commits).getLastD s
  | _ => s

/-- The checkpoint that such a resume creates an attempt from: its third commit inserts it. -/
def successorOf (env : Env) (s : State) (r : ResumeRequest) (commits : Nat) : Option CheckpointId :=
  match s.resumeChecks env r with
  | .ok (.proceed c row binding placement epoch) =>
    if 3 ≤ ((s.resumeCommits env c row binding placement epoch).take commits).length then some c
    else none
  | _ => none

end State

/-- A command, or a resume that the process does not survive. A process that dies between the two
transactions of `request_reboot` is one in which `finishReboot` does not happen. -/
inductive Occurrence where
  | command (env : Env) (c : Command)
  | crash (env : Env) (r : ResumeRequest) (commits : Nat)

namespace Occurrence

/-- The database after it. -/
def next (s : State) : Occurrence → State
  | command env c => c.next env s
  | crash env r commits => s.resumeUntil env r commits

/-- The nonce that it invokes the reboot executor for. -/
def invokes (s : State) : Occurrence → Option String
  | command env (.requestReboot access body intact) =>
    match s.rebootPlan env access body intact with
    | .ok (some (_, row)) => some row.nonce
    | _ => none
  | _ => none

/-- The checkpoint that it creates a successor attempt from. -/
def creates (s : State) : Occurrence → Option CheckpointId
  | command env (.resumeAttempt r) => s.successorOf env r 4
  | crash env r commits => s.successorOf env r commits
  | _ => none

/-- The process dies after the commit of a successor attempt, and before that of its checkpoint. -/
def Torn (s : State) (o : Occurrence) : Prop :=
  ∃ env r, o = crash env r 3 ∧ (s.successorOf env r 3).isSome

end Occurrence

theorem State.resumeCommits_length (c : CheckpointId) (row : RecoveryCheckpoint)
    (binding : Option BindingView) (placement : Option Placement) (epoch : Nat) :
    (s.resumeCommits env c row binding placement epoch).length ≤ 4 := by
  unfold resumeCommits
  split
  · simp
  split
  · simp
  split
  · simp
  split <;> simp

/-- A resume that nothing interrupts makes all its commits. -/
theorem State.resumeAttempt_state {r : ResumeRequest} :
    (s.resumeAttempt env r).1 = s.resumeUntil env r 4 := by
  unfold resumeAttempt resumeUntil
  split
  next h => rw [h]
  next h => rw [h]
  next c row binding placement epoch h =>
    rw [h]
    dsimp only
    rw [resumeProceed_state, List.take_of_length_le (resumeCommits_length ..)]

/-! ## The checkpoints -/

/-- A later version of a checkpoint. -/
structure RecoveryCheckpoint.Later (x x' : RecoveryCheckpoint) : Prop where
  nonce : x'.nonce = x.nonce
  durable : x'.state = .durable → x.state = .durable
  resumed : x.state = .resumed → x'.state = .resumed

theorem RecoveryCheckpoint.Later.refl (x : RecoveryCheckpoint) : x.Later x := ⟨rfl, id, id⟩

theorem RecoveryCheckpoint.Later.trans {y z : RecoveryCheckpoint} (h : x.Later y) (h' : y.Later z) :
    x.Later z :=
  ⟨h'.nonce.trans h.nonce, fun hz => h.durable (h'.durable hz), fun hx => h'.resumed (h.resumed hx)⟩

/-- No two checkpoints share a nonce. -/
def State.UniqueNonces (s : State) : Prop :=
  ∀ c c' x x', s.checkpoints.lookup c = some x → s.checkpoints.lookup c' = some x' →
    x.nonce = x'.nonce → c = c'

/-- How the checkpoints move. -/
structure State.Advances (s s' : State) : Prop where
  later : ∀ c x, s.checkpoints.lookup c = some x →
    ∃ x', s'.checkpoints.lookup c = some x' ∧ x.Later x'
  unique : s.UniqueNonces → s'.UniqueNonces

namespace State.Advances

theorem of_eq (h : s'.checkpoints = s.checkpoints) : s.Advances s' where
  later c x hx := ⟨x, by rw [h, hx], .refl x⟩
  unique hu c c' x x' hx hx' := hu c c' x x' (h ▸ hx) (h ▸ hx')

theorem trans {s₁ s₂ s₃ : State} (h : s₁.Advances s₂) (h' : s₂.Advances s₃) : s₁.Advances s₃ where
  later c x hx := by
    obtain ⟨y, hy, hxy⟩ := h.later c x hx
    obtain ⟨z, hz, hyz⟩ := h'.later c y hy
    exact ⟨z, hz, hxy.trans hyz⟩
  unique hu := h'.unique (h.unique hu)

/-- Every checkpoint is replaced by a later version of itself. -/
theorem of_map {g : CheckpointId → RecoveryCheckpoint → RecoveryCheckpoint}
    (h : ∀ c, s'.checkpoints.lookup c = (s.checkpoints.lookup c).map (g c))
    (hg : ∀ c x, s.checkpoints.lookup c = some x → x.Later (g c x)) : s.Advances s' where
  later c x hx := ⟨g c x, by rw [h, hx, Option.map_some], hg c x hx⟩
  unique hu c c' x x' hx hx' hnonce := by
    rw [h] at hx hx'
    obtain ⟨y, hy, rfl⟩ := Option.map_eq_some_iff.mp hx
    obtain ⟨y', hy', rfl⟩ := Option.map_eq_some_iff.mp hx'
    refine hu c c' y y' hy hy' ?_
    rw [← (hg c y hy).nonce, ← (hg c' y' hy').nonce, hnonce]

theorem modify {f : RecoveryCheckpoint → RecoveryCheckpoint}
    (h : s'.checkpoints = s.checkpoints.modify c f)
    (hf : ∀ x, s.checkpoints.lookup c = some x → x.Later (f x)) : s.Advances s' := by
  refine of_map (g := fun c' x => if c' = c then f x else x) (fun c' => ?_) (fun c' x hx => ?_)
  · rw [h, Table.modify, Table.lookup_mapRows]
  · split
    next hc => exact hf x (hc ▸ hx)
    next => exact .refl x

/-- A checkpoint with a nonce of its own is inserted. -/
theorem insert (h : s.checkpoints.insertNew c x = some s'.checkpoints)
    (hnew : ∀ e ∈ s.checkpoints.entries, e.2.nonce ≠ x.nonce) : s.Advances s' where
  later c' y hy := ⟨y, Table.lookup_of_insertNew h hy, .refl y⟩
  unique hu c₁ c₂ x₁ x₂ h₁ h₂ hnonce := by
    have hother : ∀ {c y}, s.checkpoints.lookup c = some y → y.nonce ≠ x.nonce := fun hy =>
      hnew _ (Table.lookup_eq_some_iff.mp hy)
    rw [Table.lookup_insertNew h] at h₁ h₂
    split at h₁ <;> split at h₂
    next hc₁ hc₂ => rw [hc₁, hc₂]
    next =>
      cases h₁
      exact absurd hnonce.symm (hother h₂)
    next =>
      cases h₂
      exact absurd hnonce (hother h₁)
    next => exact hu c₁ c₂ x₁ x₂ h₁ h₂ hnonce

end State.Advances

/-! ## The recovery commands -/

theorem State.checkpointRow_ok {checkpoint : Option CheckpointId} {attempt : Option AttemptId}
    (h : s.checkpointRow checkpoint attempt = .ok (c, row)) :
    s.checkpoints.lookup c = some row := by
  cases checkpoint with
  | some c' =>
    simp only [checkpointRow, bind_eq_ok, orThrow_eq_ok, return_ok] at h
    obtain ⟨row', hrow, _, -, _, rfl, _, -, heq⟩ := h
    obtain ⟨rfl, rfl⟩ := Prod.mk.inj heq
    exact hrow
  | none =>
    simp only [checkpointRow, bind_eq_ok, orThrow_eq_ok, return_ok] at h
    obtain ⟨found, hfound, _, -, rfl⟩ := h
    obtain ⟨a, rfl, hlatest⟩ := Option.bind_eq_some_iff.mp hfound
    have hmem := List.mem_of_mem_head? hlatest
    rw [List.mem_insertionSort] at hmem
    exact Table.lookup_eq_some_iff.mpr (List.mem_of_mem_filter hmem)

/-- The checkpoint for which the executor is invoked is durable. -/
theorem State.rebootPlan_ok (h : s.rebootPlan env access value intact = .ok (some (c, row))) :
    s.checkpoints.lookup c = some row ∧ row.state = .durable := by
  simp only [rebootPlan, bind_eq_ok, Prod.exists] at h
  obtain ⟨body, -, _, -, c', row', hrow, _, -, h⟩ := h
  split at h
  next => simp [bind_eq_ok] at h
  next =>
    simp only [bind_eq_ok, require_eq_ok, return_ok, Option.some.injEq,
      Prod.mk.injEq] at h
    obtain ⟨_, -, _, -, attempt, -, _, -, _, -, _, hdurable, rfl, rfl⟩ := h
    exact ⟨checkpointRow_ok hrow, hdurable⟩

theorem State.Advances.claimReboot {plan : Option (CheckpointId × RecoveryCheckpoint)}
    (hplan : ∀ c row, plan = some (c, row) → s.checkpoints.lookup c = some row ∧
      row.state = .durable) : s.Advances (s.claimReboot plan) := by
  match plan with
  | none => exact .of_eq rfl
  | some (c, row) =>
    obtain ⟨hrow, hdurable⟩ := hplan c row rfl
    refine .modify (f := fun x => { x with state := .rebootRequested }) rfl fun x hx => ?_
    obtain rfl := Option.mem_unique hrow hx
    exact ⟨rfl, nofun, fun hresumed => by rw [hdurable] at hresumed; cases hresumed⟩

theorem State.Advances.requestReboot (h : s.requestReboot env access value intact = .ok s') :
    s.Advances s' := by
  rw [requestReboot_eq] at h
  obtain ⟨plan, hplan, rfl⟩ := map_eq_ok.mp h
  refine .claimReboot fun c row heq => ?_
  subst heq
  exact rebootPlan_ok hplan

theorem State.Advances.checkpointAttempt {a : AttemptId} {digest : String}
    {stored : Except Err Unit} (h : s.checkpointAttempt env access a value digest stored = .ok s') :
    s.Advances s' := by
  simp only [State.checkpointAttempt, bind_eq_ok] at h
  obtain ⟨fields, -, lease, -, nonce, -, authorization, -, _, -, row, -, _, -, authorized, -, _, -,
    h⟩ := h
  split at h
  next =>
    cases h
    exact .of_eq rfl
  next =>
    simp only [bind_eq_ok, require_eq_ok, orThrow_eq_ok, return_ok] at h
    obtain ⟨_, hunused, checkpoints, hinsert, rfl⟩ := h
    exact .insert hinsert hunused

theorem State.Advances.finishReboot (c : CheckpointId) (executed : Bool) :
    s.Advances (s.finishReboot c executed) := by
  have hadvance : ∀ x : RecoveryCheckpoint, x.Later (if x.state = .rebootRequested then
      { x with state := if executed then .executed else .executorFailed } else x) := by
    intro x
    split
    next hrequested =>
      refine ⟨rfl, fun hdurable => ?_, fun hresumed => ?_⟩
      · cases executed <;> cases hdurable
      · rw [hrequested] at hresumed
        cases hresumed
    next => exact .refl x
  exact .modify rfl fun x _ => hadvance x

theorem State.Advances.beginRuntimeSession {boot : String} {floor : Option Int}
    (h : s.beginRuntimeSession boot floor now = .ok s') : s.Advances s' := by
  simp only [State.beginRuntimeSession, bind_eq_ok, require_eq_ok, return_ok] at h
  obtain ⟨_, -, _, -, recovered, hloop, rfl⟩ := h
  have hsame : recovered.checkpoints = s.checkpoints :=
    (steady_foldlM steady_recoverInterrupted _ recovered hloop).checkpoints
  split
  next => exact .of_eq hsame
  next =>
    have hadvance : ∀ x : RecoveryCheckpoint, x.Later (if x.runtimeEpoch = s.currentRuntimeEpoch ∧
        (x.state = .durable ∨ x.state = .rebootRequested) then { x with state := .recovered }
        else x) := by
      intro x
      split
      next hopen =>
        refine ⟨rfl, by simp, fun hresumed => ?_⟩
        rcases hopen.2 with hstate | hstate <;> rw [hstate] at hresumed <;> cases hresumed
      next => exact .refl x
    exact .of_map (fun c => (Table.lookup_mapRows ..).trans (by rw [hsame])) fun c x _ => hadvance x

/-! ## Resume -/

/-- The commits of a resume: only the last one writes the checkpoints. -/
inductive ResumeTrail (env : Env) (s : State) (c : CheckpointId) : List State → Prop
  | unset : ResumeTrail env s c []
  | reset {reset : State} (hreset : reset.checkpoints = s.checkpoints) : ResumeTrail env s c [reset]
  | claimed {reset claimed : State} (hreset : reset.checkpoints = s.checkpoints)
      (hclaimed : claimed.checkpoints = s.checkpoints) : ResumeTrail env s c [reset, claimed]
  | resumed {reset claimed started : State} (hreset : reset.checkpoints = s.checkpoints)
      (hclaimed : claimed.checkpoints = s.checkpoints)
      (hstarted : started.checkpoints = s.checkpoints) :
      ResumeTrail env s c [reset, claimed, started, started.markResumed c env.newAttempt]

theorem State.resumeCommits_trail (env : Env) (c : CheckpointId) (row : RecoveryCheckpoint)
    (binding : Option BindingView) (placement : Option Placement) (epoch : Nat) :
    ResumeTrail env s c (s.resumeCommits env c row binding placement epoch) := by
  unfold resumeCommits
  split
  · exact .unset
  next reset hreset =>
    have hreset : s.SameRecords reset :=
      returns_ite steady_resetExecutionAttempt (returns_ok rfl) reset hreset
    split
    · exact .reset hreset.checkpoints
    next claimed task hclaimed =>
      have hclaimed := SameRecords.trans hreset (steady_claimTask _ hclaimed)
      split
      · exact .claimed hreset.checkpoints hclaimed.checkpoints
      split
      · exact .claimed hreset.checkpoints hclaimed.checkpoints
      next started hstarted =>
        have hstarted := hclaimed.trans (steady_startAttempt _ hstarted)
        exact .resumed hreset.checkpoints hclaimed.checkpoints hstarted.checkpoints

/-- A resume that is cut short before its last commit leaves the checkpoints as they are. -/
theorem ResumeTrail.cut (h : ResumeTrail env s c commits) {n : Nat}
    (hn : n < 4 ∨ commits.length < 4) :
    ((commits.take n).getLastD s).checkpoints = s.checkpoints := by
  cases h with
  | unset => rw [List.take_nil, List.getLastD_nil]
  | reset hreset =>
    match n with
    | 0 => rfl
    | n + 1 => simpa using hreset
  | claimed hreset hclaimed =>
    match n with
    | 0 => rfl
    | 1 => exact hreset
    | n + 2 => simpa using hclaimed
  | resumed hreset hclaimed hstarted =>
    match n with
    | 0 => rfl
    | 1 => exact hreset
    | 2 => exact hclaimed
    | 3 => exact hstarted
    | n + 4 => simp at hn

/-- A resume that makes all four commits marks the checkpoint. -/
theorem ResumeTrail.whole (h : ResumeTrail env s c commits) {n : Nat} (hn : 4 ≤ n)
    (hlength : 3 ≤ commits.length) :
    ∃ started : State, started.checkpoints = s.checkpoints ∧
      (commits.take n).getLastD s = started.markResumed c env.newAttempt := by
  cases h with
  | unset | reset | claimed => simp at hlength
  | @resumed _ _ started _ _ hstarted =>
    refine ⟨started, hstarted, ?_⟩
    rw [List.take_of_length_le (by simpa using hn)]
    rfl

theorem State.Advances.markResumed (c : CheckpointId) (a : AttemptId) :
    s.Advances (s.markResumed c a) := by
  have hadvance : ∀ x : RecoveryCheckpoint, x.Later (if x.state.resumable then
      { x with state := .resumed, resumedAs := some a } else x) := by
    intro x
    split
    · exact ⟨rfl, nofun, fun _ => rfl⟩
    · exact .refl x
  exact .modify rfl fun x _ => hadvance x

theorem State.Advances.resumeUntil (r : ResumeRequest) (n : Nat) :
    s.Advances (s.resumeUntil env r n) := by
  unfold State.resumeUntil
  split
  next c row binding placement epoch _ =>
    have htrail := s.resumeCommits_trail env c row binding placement epoch
    by_cases hcut : n < 4 ∨ (s.resumeCommits env c row binding placement epoch).length < 4
    · exact .of_eq (htrail.cut hcut)
    · obtain ⟨started, hstarted, hlast⟩ := htrail.whole (n := n) (by omega) (by omega)
      rw [hlast]
      exact (Advances.of_eq hstarted).trans (.markResumed c env.newAttempt)
  next => exact .of_eq rfl

/-- A resume creates a successor of a checkpoint that is not resumed, and marks it as resumed unless
it is torn. -/
theorem State.successorOf_ok {r : ResumeRequest} {n : Nat} (h : s.successorOf env r n = some c) :
    ∃ x, s.checkpoints.lookup c = some x ∧ x.state.resumable = true ∧
      (n ≠ 3 → ∃ x', (s.resumeUntil env r n).checkpoints.lookup c = some x' ∧ x'.state = .resumed) := by
  unfold successorOf at h
  split at h
  next c' row binding placement epoch hchecks =>
    split at h
    next hlength =>
      obtain rfl := Option.some.inj h
      obtain ⟨-, -, -, hresumable, -, checkpoint, attempt, hrow⟩ := resumeChecks_proceed hchecks
      have hrow := checkpointRow_ok hrow
      refine ⟨row, hrow, hresumable, fun hn => ?_⟩
      rw [List.length_take] at hlength
      obtain ⟨started, hstarted, hlast⟩ := (s.resumeCommits_trail env c' row binding placement
        epoch).whole (n := n) (by omega) (by omega)
      refine ⟨{ row with state := .resumed, resumedAs := some env.newAttempt }, ?_, rfl⟩
      unfold resumeUntil
      rw [hchecks]
      dsimp only
      rw [hlast, markResumed, Table.lookup_modify_self, hstarted, hrow, Option.map_some,
        if_pos hresumable]
    next => cases h
  next => cases h

/-! ## Runs -/

theorem Occurrence.advances (o : Occurrence) : s.Advances (o.next s) := by
  cases o with
  | crash env r commits => exact .resumeUntil r commits
  | command env c =>
    by_cases hrecovers : c.recovers = false
    · exact .of_eq (c.sameRecords_next hrecovers).checkpoints
    cases c with
    | beginRuntimeSession => exact committed_of (.of_eq rfl) fun _ => .beginRuntimeSession
    | checkpointAttempt => exact committed_of (.of_eq rfl) fun _ => .checkpointAttempt
    | requestReboot => exact committed_of (.of_eq rfl) fun _ => .requestReboot
    | finishReboot c executed => exact .finishReboot c executed
    | resumeAttempt r =>
      show s.Advances (s.resumeAttempt env r).1
      rw [resumeAttempt_state]
      exact .resumeUntil r 4
    | _ => exact absurd rfl hrecovers

/-- The nonce belongs to a checkpoint that is durable no more. -/
def State.SpentNonce (s : State) (nonce : String) : Prop :=
  ∃ c x, s.checkpoints.lookup c = some x ∧ x.nonce = nonce ∧ x.state ≠ .durable

theorem State.Advances.spentNonce (h : s.Advances s') {nonce : String} (hs : s.SpentNonce nonce) :
    s'.SpentNonce nonce := by
  obtain ⟨c, x, hx, hnonce, hstate⟩ := hs
  obtain ⟨x', hx', hlater⟩ := h.later c x hx
  exact ⟨c, x', hx', hlater.nonce.trans hnonce, fun hdurable => hstate (hlater.durable hdurable)⟩

/-- The executor is invoked for the nonce of a durable checkpoint, which it is not any more after. -/
theorem Occurrence.invokes_ok {o : Occurrence} {nonce : String} (h : o.invokes s = some nonce) :
    (∃ c x, s.checkpoints.lookup c = some x ∧ x.nonce = nonce ∧ x.state = .durable) ∧
      (o.next s).SpentNonce nonce := by
  unfold Occurrence.invokes at h
  split at h
  next env access body intact =>
    split at h
    next c row hplan =>
      cases h
      obtain ⟨hrow, hdurable⟩ := rebootPlan_ok hplan
      refine ⟨⟨c, row, hrow, rfl, hdurable⟩, c, { row with state := .rebootRequested }, ?_, rfl,
        by simp⟩
      have hnext : Occurrence.next s (.command env (.requestReboot access body intact)) =
          s.claimReboot (some (c, row)) := by
        simp only [Occurrence.next, Command.next, requestReboot_eq, hplan]
        rfl
      rw [hnext, claimReboot, Table.lookup_modify_self, hrow, Option.map_some]
    next => cases h
  next => cases h

/-- The checkpoint is resumed. -/
def State.Resumed (s : State) (c : CheckpointId) : Prop :=
  ∃ x, s.checkpoints.lookup c = some x ∧ x.state = .resumed

theorem State.Advances.resumed (h : s.Advances s') (hs : s.Resumed c) :
    s'.Resumed c := by
  obtain ⟨x, hx, hstate⟩ := hs
  obtain ⟨x', hx', hlater⟩ := h.later c x hx
  exact ⟨x', hx', hlater.resumed hstate⟩

theorem Occurrence.creates_ok {o : Occurrence} (h : o.creates s = some c) :
    ¬s.Resumed c ∧ (¬o.Torn s → (o.next s).Resumed c) := by
  have hopen : ∀ {x : RecoveryCheckpoint}, s.checkpoints.lookup c = some x →
      x.state.resumable = true → ¬s.Resumed c := by
    rintro x hx hresumable ⟨x', hx', hresumed⟩
    obtain rfl := Option.mem_unique hx hx'
    rw [hresumed] at hresumable
    cases hresumable
  unfold Occurrence.creates at h
  split at h
  next env r =>
    obtain ⟨x, hx, hresumable, hmarked⟩ := successorOf_ok h
    refine ⟨hopen hx hresumable, fun _ => ?_⟩
    obtain ⟨x', hx', hresumed⟩ := hmarked (by decide)
    refine ⟨x', ?_, hresumed⟩
    show (s.resumeAttempt env r).1.checkpoints.lookup c = some x'
    rw [resumeAttempt_state]
    exact hx'
  next env r commits =>
    obtain ⟨x, hx, hresumable, hmarked⟩ := successorOf_ok h
    refine ⟨hopen hx hresumable, fun htorn => hmarked ?_⟩
    rintro rfl
    exact htorn ⟨env, r, rfl, by rw [h]; rfl⟩
  next => cases h

/-- In every run the reboot executor is invoked at most once for a nonce. No checkpoint has two
successor attempts, if no process dies between the commit of a successor and that of its
checkpoint. -/
theorem recovery_is_one_shot (run : List Occurrence) :
    (Run.emitted Occurrence.next Occurrence.invokes .initial run).Nodup ∧
      (Run.Meets Occurrence.next (fun s o => ¬o.Torn s) .initial run →
        (Run.emitted Occurrence.next Occurrence.creates .initial run).Nodup) := by
  have hinitial : initial.UniqueNonces := nofun
  constructor
  · have hall : Run.Meets Occurrence.next (fun _ _ => True) .initial run :=
      Run.meets_of fun _ _ _ => trivial
    refine (hall.emitted_nodup (I := UniqueNonces) (S := SpentNonce)
      (fun _ => Occurrence.advances _ |>.unique) (fun _ _ => (Occurrence.advances _).spentNonce)
      (fun {s o nonce} _ hunique hinvokes hspent => ?_)
      (fun _ _ hinvokes => (Occurrence.invokes_ok hinvokes).2) hinitial).1
    obtain ⟨⟨c, x, hx, hnonce, hdurable⟩, -⟩ := Occurrence.invokes_ok hinvokes
    obtain ⟨c', x', hx', hnonce', hstate⟩ := hspent
    obtain rfl := hunique c c' x x' hx hx' (hnonce.trans hnonce'.symm)
    obtain rfl := Option.mem_unique hx hx'
    exact hstate hdurable
  · intro hwhole
    exact (hwhole.emitted_nodup (I := fun _ => True) (S := Resumed) (fun _ _ => trivial)
      (fun _ _ => (Occurrence.advances _).resumed)
      (fun _ _ hcreates => (Occurrence.creates_ok hcreates).1)
      (fun hwhole _ hcreates => (Occurrence.creates_ok hcreates).2 hwhole) trivial).1

/-- A task is checkpointed, and the runtime restarts. -/
def recoveredRun : List Occurrence :=
  (checkpointedFor {} none []).map (fun e => .command e.1 e.2) ++
    [.command (.tick 6 "6") (.beginRuntimeSession "boot-2" none)]

/-- A resume of the checkpoint, and a second one after another restart. -/
def resumedRun : List Occurrence :=
  recoveredRun ++
    [.command (.tick 7 "7") (.resumeAttempt (resumesFor {} 2)),
      .command (.tick 8 "8") (.beginRuntimeSession "boot-3" none),
      .command (.tick 9 "9") (.resumeAttempt (resumesFor {} 3))]

theorem recovery_is_one_shot_resumed :
    Run.emitted Occurrence.next Occurrence.creates .initial resumedRun = ["checkpoint-5"] ∧
      (Run.emitted Occurrence.next Occurrence.creates .initial resumedRun).Nodup := by
  have hwhole : ∀ o ∈ resumedRun, ∀ s, ¬o.Torn s := by
    intro o ho s
    obtain ⟨env, c, rfl⟩ : ∃ env c, o = .command env c := by
      simp only [resumedRun, recoveredRun, List.mem_append, List.mem_map, List.mem_cons] at ho
      grind
    rintro ⟨env, r, h, -⟩
    cases h
  exact ⟨by decide +kernel, (recovery_is_one_shot resumedRun).2 (Run.meets_of hwhole)⟩

/-- The process dies after the commit of the successor: the checkpoint gets a second one. -/
theorem two_successors_of_a_checkpoint :
    Run.emitted Occurrence.next Occurrence.creates .initial (recoveredRun ++
      [.crash (.tick 7 "7") (resumesFor {} 2) 3,
        .command (.tick 8 "8") (.beginRuntimeSession "boot-3" none),
        .command (.tick 9 "9") (.resumeAttempt (resumesFor {} 3))]) =
      ["checkpoint-5", "checkpoint-5"] := by
  decide +kernel

end WorkspaceRuntime
