import WorkspaceRuntime.Project.Text

/-!
# Retransmission of a text binding call

A caller that got no answer sends its call again under the same key. The call that created a binding
is answered from the ledger. A call that moved a binding is not: it names the head that the binding
had before it, and that head is compared with the present one before the ledger is asked.
-/

namespace WorkspaceRuntime.Project

open Fallible Timeline Project.State

variable {host : Host} {env env' : Env} {s s' s₁ s₂ : State} {answer : Answer}
  {binding b : BindingId} {row : TextBinding} {project : ProjectId} {shot : ShotId}
  {fields : Json.Fields} {data : List UInt8} {digest : Digest} {now : Time} {kind : Kind}
  {key : String} {request : Json}

/-! ## Calls -/

/-- A call on the text bindings of a project: its selector, body and key. -/
inductive TextCall where
  | set (project : String) (body : Json) (key : Option String)
  | rebind (project : String) (body : Json) (key : Option String)

namespace TextCall

/-- The body of a call. -/
def body : TextCall → Json
  | .set _ body _ | .rebind _ body _ => body

/-- The answer of a call, and the state after it. -/
def outcome (host : Host) (env : Env) (s : State) : TextCall → Except Err (State × Answer)
  | .set project body key => s.setProjectShotTextBinding host env project body key
  | .rebind project body key => s.rebindProjectShotTextBinding host env project body key

/-- The call expects that there is no binding yet. -/
def ExpectsNoBinding (call : TextCall) : Prop := call.body.get? "expected_head" = some (.int 0)

end TextCall

/-- A call that raises leaves the state. -/
def State.nextText (host : Host) (s : State) (call : Env × TextCall) : State :=
  match call.2.outcome host call.1 s with
  | .ok (s', _) => s'
  | .error _ => s

/-- The head of a binding; 0 when there is none. -/
def State.head (s : State) (binding : BindingId) : Nat :=
  (s.textBindings.lookup binding).elim 0 TextBinding.headSeq

theorem State.head_of_lookup (h : s.textBindings.lookup binding = some row) :
    s.head binding = row.headSeq := by
  rw [head, h]
  rfl

/-! ## What the calls keep -/

/-- The row of a binding at a later time. -/
structure TextBinding.Later (row row' : TextBinding) : Prop where
  projectId : row'.projectId = row.projectId
  shotId : row'.shotId = row.shotId
  kind : row'.kind = row.kind
  slot : row'.slot = row.slot
  headSeq : row.headSeq ≤ row'.headSeq

/-- Projects and shots are as they were, and no binding and no row of the ledger is lost. -/
structure State.Later (s s' : State) : Prop where
  projects : s'.projects = s.projects
  shots : s'.shots = s.shots
  ledger : ∀ k row, s.ledger.lookup k = some row → s'.ledger.lookup k = some row
  bindings : ∀ b row, s.textBindings.lookup b = some row →
    ∃ row', s'.textBindings.lookup b = some row' ∧ row.Later row'

theorem TextBinding.Later.refl (row : TextBinding) : row.Later row := ⟨rfl, rfl, rfl, rfl, le_rfl⟩

theorem TextBinding.Later.trans {x y z : TextBinding} (h : x.Later y) (h' : y.Later z) :
    x.Later z where
  projectId := h'.projectId.trans h.projectId
  shotId := h'.shotId.trans h.shotId
  kind := h'.kind.trans h.kind
  slot := h'.slot.trans h.slot
  headSeq := h.headSeq.trans h'.headSeq

theorem TextBinding.Later.fits {row' : TextBinding} (h : row.Later row')
    (hfits : row.Fits project shot fields) :
    row'.Fits project shot fields := by
  unfold TextBinding.Fits
  rw [h.projectId, h.shotId, h.kind, h.slot]
  exact hfits

theorem State.Later.refl (s : State) : s.Later s where
  projects := rfl
  shots := rfl
  ledger _ _ h := h
  bindings _ row h := ⟨row, h, .refl row⟩

theorem State.Later.trans (h : s.Later s₁) (h' : s₁.Later s₂) : s.Later s₂ where
  projects := h'.projects.trans h.projects
  shots := h'.shots.trans h.shots
  ledger k row hrow := h'.ledger k row (h.ledger k row hrow)
  bindings b row hrow := by
    obtain ⟨row₁, hrow₁, hlater⟩ := h.bindings b row hrow
    obtain ⟨row₂, hrow₂, hlater'⟩ := h'.bindings b row₁ hrow₁
    exact ⟨row₂, hrow₂, hlater.trans hlater'⟩

theorem State.Later.head_le (h : s.Later s') (b : BindingId) : s.head b ≤ s'.head b := by
  unfold head
  cases hrow : s.textBindings.lookup b with
  | none => exact Nat.zero_le _
  | some row =>
    obtain ⟨row', hrow', hlater⟩ := h.bindings b row hrow
    rw [hrow']
    exact hlater.headSeq

/-! ## What the parts of a call do -/

/-- Making an object of a text writes objects and files only. -/
theorem materializeTextObject_eq_ok (h : s.materializeTextObject project data digest = .ok s') :
    s.Later s' ∧ s'.textBindings = s.textBindings ∧ s'.ledger = s.ledger := by
  have hmanage : ∀ s₁ : State, s₁.projects = s.projects → s₁.shots = s.shots →
      s₁.ledger = s.ledger → s₁.textBindings = s.textBindings →
      s.Later (s₁.manage project digest) ∧
        (s₁.manage project digest).textBindings = s.textBindings ∧
        (s₁.manage project digest).ledger = s.ledger := by
    intro s₁ hprojects hshots hledger hbindings
    unfold manage
    split
    all_goals exact ⟨⟨hprojects, hshots, fun _ _ h => hledger ▸ h,
      fun b row h => ⟨row, hbindings ▸ h, .refl row⟩⟩, hbindings, hledger⟩
  unfold materializeTextObject at h
  split at h
  next =>
    simp only [bind_eq_ok, return_ok] at h
    obtain ⟨-, -, -, -, rfl⟩ := h
    exact hmanage s rfl rfl rfl rfl
  next =>
    simp only [bind_eq_ok, return_ok] at h
    obtain ⟨-, -, objects, -, rfl⟩ := h
    exact hmanage _ rfl rfl rfl rfl

/-- An event advances the head of its binding by one. -/
theorem recordTextBindingEvent_eq_ok {kind : String} {payload : Json} {media : Digest}
    (h : s.recordTextBindingEvent host binding row kind payload media now = .ok s')
    (hrow : s.textBindings.lookup binding = some row) :
    s.Later s' ∧ s'.head binding = row.headSeq + 1 ∧ s'.ledger = s.ledger := by
  simp only [recordTextBindingEvent, bind_eq_ok, return_ok] at h
  obtain ⟨-, -, events, -, rfl⟩ := h
  refine ⟨⟨rfl, rfl, fun _ _ h => h, ?_⟩, ?_, rfl⟩
  · intro b row' hrow'
    rw [Table.lookup_upsert]
    by_cases hb : b = binding
    · subst hb
      obtain rfl := Option.mem_unique hrow hrow'
      exact ⟨_, if_pos rfl, rfl, rfl, rfl, rfl, Nat.le_succ _⟩
    · exact ⟨row', by rw [if_neg hb, hrow'], .refl row'⟩
  · rw [head, Table.lookup_upsert, if_pos rfl]
    rfl

/-- The end of a call puts its answer in the ledger. -/
theorem finishTextBinding_eq_ok
    (h : s.finishTextBinding host kind binding (some key) request now = .ok (s', answer)) :
    s.Later s' ∧ s'.textBindings = s.textBindings ∧ answer.receipted = true ∧
      s'.ledger.lookup (kind, binding, key) =
        some { request, result := answer.data, createdAt := now } := by
  simp only [finishTextBinding, bind_eq_ok, return_ok, Prod.mk.injEq] at h
  obtain ⟨row, -, data, -, ledger, hledger, rfl, rfl⟩ := h
  refine ⟨⟨rfl, rfl, fun k row hrow => ?_, fun b row hrow => ⟨row, hrow, .refl row⟩⟩, rfl, rfl, ?_⟩
  · exact CommandLedger.lookup_of_lookup_of_record hledger hrow
  · exact CommandLedger.lookup_of_record hledger

/-- What a call on one binding has done: the heads are as they were, or the head of the binding has
advanced by one and the answer is in the ledger. -/
def Executes (s s' : State) (kind : Kind) (binding : BindingId) (key : String) (request : Json)
    (answer : Answer) (now : Time) : Prop :=
  s.Later s' ∧ ((∀ b, s'.head b = s.head b) ∨ s'.head binding = s.head binding + 1 ∧
    answer.receipted = true ∧ s'.ledger.lookup (kind, binding, key) =
      some { request, result := answer.data, createdAt := now })

theorem head_eq_of_textBindings (h : s'.textBindings = s.textBindings) (b : BindingId) :
    s'.head b = s.head b := by
  rw [head, head, h]

/-- A binding that moves, up to the end of the call. -/
theorem executes_finish (hlater : s.Later s₁) (hhead : s₁.head binding = s.head binding + 1)
    (h : s₁.finishTextBinding host kind binding (some key) request now = .ok (s', answer)) :
    Executes s s' kind binding key request answer now := by
  obtain ⟨hlater', hbindings, hreceipted, hledger⟩ := finishTextBinding_eq_ok h
  refine ⟨hlater.trans hlater', .inr ⟨?_, hreceipted, hledger⟩⟩
  rw [head_eq_of_textBindings hbindings, hhead]

theorem executes_self :
    Executes s s kind binding key request answer now :=
  ⟨.refl s, .inl fun _ => rfl⟩

theorem supplyTextObject_eq_ok (h : s.supplyTextObject host project data digest = .ok s') :
    s.Later s' ∧ s'.textBindings = s.textBindings := by
  unfold supplyTextObject at h
  split at h
  next =>
    obtain ⟨hlater, hbindings, -⟩ := materializeTextObject_eq_ok h
    exact ⟨hlater, hbindings⟩
  next =>
    obtain ⟨-, -, rfl⟩ := map_eq_ok.mp h
    exact ⟨.refl s, rfl⟩

/-- A binding that is created has head 1. -/
theorem createTextBinding_eq_ok {kind slot : Json}
    (h : s.createTextBinding host project shot kind slot binding data digest now = .ok s')
    (hnone : s.textBindings.lookup binding = none) :
    s.Later s' ∧ s'.head binding = s.head binding + 1 := by
  simp only [createTextBinding, bind_eq_ok, orThrow_eq_ok] at h
  obtain ⟨s₁, hobject, -, -, bindings, hbindings, h⟩ := h
  obtain ⟨hlater, hsame, -⟩ := materializeTextObject_eq_ok hobject
  have hinsert : s₁.Later { s₁ with textBindings := bindings } :=
    ⟨rfl, rfl, fun _ _ h => h, fun b row hrow =>
      ⟨row, Table.lookup_of_insertNew hbindings hrow, .refl row⟩⟩
  obtain ⟨hlater', hhead, -⟩ := recordTextBindingEvent_eq_ok h
    (by rw [Table.lookup_insertNew hbindings, if_pos rfl])
  refine ⟨(hlater.trans hinsert).trans hlater', ?_⟩
  rw [hhead, head, hnone]
  rfl

/-! ## Calls on one binding -/

theorem setNewTextBinding_eq_ok
    (h : s.setNewTextBinding host env project fields data digest (some key) = .ok (s', answer)) :
    ∃ shot binding, s.newTextBinding host project fields = .ok (shot, binding) ∧
      Executes s s' .textBindingSet binding key (setRequest project binding (streamOf binding) 0 digest)
        answer env.now := by
  simp only [setNewTextBinding, bind_eq_ok] at h
  obtain ⟨⟨shot, binding⟩, htarget, found, -, h⟩ := h
  refine ⟨shot, binding, htarget, ?_⟩
  cases found with
  | some data =>
    cases h
    exact executes_self
  | none =>
    simp only [bind_eq_ok] at h
    obtain ⟨_, hnone, s₁, hcreate, h⟩ := h
    obtain ⟨hlater, hhead⟩ := createTextBinding_eq_ok hcreate (require_eq_ok.mp hnone)
    exact executes_finish hlater hhead h

/-- A binding that moves to another object. -/
theorem moveTextBinding_eq_ok {previous : Digest} (hlater : s.Later s₁)
    (hsame : s₁.textBindings = s.textBindings) (hrow : s.textBindings.lookup binding = some row)
    (h : s₁.moveTextBinding host binding row previous digest now = .ok s') :
    s.Later s' ∧ s'.head binding = s.head binding + 1 := by
  obtain ⟨hlater', hhead, -⟩ := recordTextBindingEvent_eq_ok h (hsame ▸ hrow)
  exact ⟨hlater.trans hlater', by rw [hhead, head_of_lookup hrow]⟩

/-- The binding that a body selects. -/
theorem resolveTextBinding_eq_ok (h : s.resolveTextBinding host project fields = .ok (b, row)) :
    s.textBindings.lookup b = some row := by
  unfold resolveTextBinding at h
  split at h
  next =>
    simp only [bind_eq_ok, orThrow_eq_ok, return_ok, Prod.mk.injEq] at h
    obtain ⟨-, -, row, hrow, -, -, rfl, rfl⟩ := h
    exact hrow
  next =>
    simp only [bind_eq_ok] at h
    obtain ⟨-, -, shot, -, -, -, h⟩ := h
    split at h
    next => cases h
    next entry hentries =>
      cases h
      have hmem := hentries ▸ List.mem_singleton_self (b, row)
      exact Table.lookup_eq_some_iff.mpr (List.mem_filter.mp hmem).1
    next => cases h

/-- A body that still selects a binding selects the one it did: a friendly selector that fits a second
binding is ambiguous. -/
theorem resolveTextBinding_later {b' : BindingId} {row' : TextBinding} (hlater : s.Later s')
    (h : s.resolveTextBinding host project fields = .ok (b, row))
    (h' : s'.resolveTextBinding host project fields = .ok (b', row')) : b' = b := by
  obtain ⟨later, hrow, hlaterRow⟩ := hlater.bindings b row (resolveTextBinding_eq_ok h)
  unfold resolveTextBinding at h h'
  split at h
  next hid =>
    rw [if_pos hid] at h'
    simp only [bind_eq_ok, orThrow_eq_ok, return_ok, Prod.mk.injEq] at h h'
    obtain ⟨-, -, -, -, -, -, rfl, -⟩ := h
    obtain ⟨-, -, -, -, -, -, rfl, -⟩ := h'
    rfl
  next hid =>
    rw [if_neg hid] at h'
    simp only [bind_eq_ok] at h h'
    obtain ⟨-, -, shot, hshot, -, -, h⟩ := h
    obtain ⟨-, -, shot', hshot', -, -, h'⟩ := h'
    have hsame : shot' = shot := by
      simp only [shotOfProject, hlater.shots] at hshot hshot'
      exact Except.ok.inj (hshot'.symm.trans hshot)
    subst hsame
    split at h
    next => cases h
    next entry hentries =>
      cases h
      -- the later row of the binding fits the selector as its first row did
      have hmem := hentries ▸ List.mem_singleton_self (b, row)
      have hfits : row.Fits project shot' fields := of_decide_eq_true (List.mem_filter.mp hmem).2
      have hfilter : (b, later) ∈ s'.textBindings.entries.filter
          fun e => e.2.Fits project shot' fields :=
        List.mem_filter.mpr ⟨Table.lookup_eq_some_iff.mp hrow, decide_eq_true (hlaterRow.fits hfits)⟩
      split at h'
      next => cases h'
      next entry' hentries' =>
        cases h'
        rw [hentries', List.mem_singleton] at hfilter
        exact (congrArg Prod.fst hfilter).symm
      next => cases h'
    next => cases h

theorem setHeldTextBinding_eq_ok {expected : Nat}
    (h : s.setHeldTextBinding host env project fields expected data digest (some key) =
      .ok (s', answer)) :
    ∃ binding row, s.resolveTextBinding host project fields = .ok (binding, row) ∧
      row.headSeq = expected ∧
      Executes s s' .textBindingSet binding key
        (setRequest project binding row.eventStreamId expected digest) answer env.now := by
  simp only [setHeldTextBinding, bind_eq_ok] at h
  obtain ⟨⟨binding, row⟩, hresolve, _, hhead, found, -, h⟩ := h
  refine ⟨binding, row, hresolve, require_eq_ok.mp hhead, ?_⟩
  have hrow := resolveTextBinding_eq_ok hresolve
  cases found with
  | some data =>
    cases h
    exact executes_self
  | none =>
    simp only [bind_eq_ok] at h
    obtain ⟨-, -, s₁, hsupply, h⟩ := h
    obtain ⟨hlater, hsame⟩ := supplyTextObject_eq_ok hsupply
    split at h
    next =>
      simp only [bind_eq_ok, return_ok, Prod.mk.injEq] at h
      obtain ⟨-, -, rfl, -⟩ := h
      exact ⟨hlater, .inl (head_eq_of_textBindings hsame)⟩
    next =>
      simp only [bind_eq_ok] at h
      obtain ⟨s₂, hmove, h⟩ := h
      obtain ⟨hlater', hhead'⟩ := moveTextBinding_eq_ok hlater hsame hrow hmove
      exact executes_finish hlater' hhead' h

theorem requireIdempotencyKey_eq_ok {key : Option String} {k : String}
    (h : requireIdempotencyKey key = .ok k) : key = some k ∧ validateIdempotencyKey k = .ok () := by
  simp only [requireIdempotencyKey, bind_eq_ok, orThrow_eq_ok, return_ok] at h
  obtain ⟨_, hkey, _, hvalid, rfl⟩ := h
  exact ⟨hkey, hvalid⟩

theorem rebindProjectShotTextBinding_eq_ok {selector : String} {body : Json} {key : Option String}
    (h : s.rebindProjectShotTextBinding host env selector body key = .ok (s', answer)) :
    ∃ k fields project expected binding row request, objectBody body = .ok fields ∧
      s.getProject selector = .ok project ∧
      expectedHead fields 1 "rebind requires a positive expected_head" = .ok expected ∧
      s.resolveTextBinding host project fields = .ok (binding, row) ∧ row.headSeq = expected ∧
      Executes s s' .textBindingRebind binding k request answer env.now := by
  simp only [rebindProjectShotTextBinding, bind_eq_ok] at h
  obtain ⟨k, hkey, fields, hfields, project, hproject, expected, hexpected, ⟨binding, row⟩, hresolve,
    _, hhead, -, -, found, -, h⟩ := h
  obtain ⟨rfl, -⟩ := requireIdempotencyKey_eq_ok hkey
  refine ⟨k, fields, project, expected, binding, row, rebindRequest project binding
    row.eventStreamId expected (desiredDigest host fields), hfields, hproject, hexpected,
    hresolve, require_eq_ok.mp hhead, ?_⟩
  have hrow := resolveTextBinding_eq_ok hresolve
  cases found with
  | some data =>
    cases h
    exact executes_self
  | none =>
    simp only [bind_eq_ok] at h
    obtain ⟨data, -, -, -, h⟩ := h
    split at h
    next =>
      cases h
      exact executes_self
    next =>
      simp only [bind_eq_ok] at h
      obtain ⟨s₂, hmove, h⟩ := h
      obtain ⟨hlater', hhead'⟩ := moveTextBinding_eq_ok (.refl s) rfl hrow hmove
      exact executes_finish hlater' hhead' h

/-! ## Runs -/

theorem expectedHead_eq_ok {least : Int} {message : String} {n : Nat}
    (h : expectedHead fields least message = .ok n) (hleast : 0 ≤ least) :
    fields.get "expected_head" = some (.int n) ∧ least ≤ n := by
  unfold expectedHead field at h
  split at h
  next m hm =>
    simp only [bind_eq_ok, require_eq_ok, return_ok, exists_const] at h
    obtain ⟨hm', rfl⟩ := h
    rw [Int.toNat_of_nonneg (hleast.trans hm')]
    refine ⟨?_, hm'⟩
    cases hget : fields.get "expected_head" with
    | none => simp [hget] at hm
    | some v => rw [hget] at hm; exact congrArg some hm
  next => cases h

/-- A call that returns has a key. -/
theorem outcome_eq_ok {call : TextCall} (h : call.outcome host env s = .ok (s', answer)) :
    s.Later s' := by
  cases call with
  | set selector body key =>
    simp only [TextCall.outcome, setProjectShotTextBinding, bind_eq_ok] at h
    obtain ⟨k, hkey, fields, -, project, -, expected, -, data, -, h⟩ := h
    obtain ⟨rfl, -⟩ := requireIdempotencyKey_eq_ok hkey
    split at h
    next =>
      obtain ⟨-, -, -, hlater, -⟩ := setNewTextBinding_eq_ok h
      exact hlater
    next =>
      obtain ⟨-, -, -, -, hlater, -⟩ := setHeldTextBinding_eq_ok h
      exact hlater
  | rebind selector body key =>
    obtain ⟨-, -, -, -, -, -, -, -, -, -, -, -, hlater, -⟩ := rebindProjectShotTextBinding_eq_ok h
    exact hlater

theorem later_replay (run : List (Env × TextCall)) (s : State) :
    s.Later (Run.replay (nextText host) s run) := by
  induction run generalizing s with
  | nil => exact .refl s
  | cons call run ih =>
    refine .trans ?_ (ih (nextText host s call))
    unfold nextText
    split
    next h => exact outcome_eq_ok h
    next => exact .refl s

/-! ## The second call -/

/-- A call that advanced a binding did so by one, and its answer is in the ledger. -/
theorem Executes.advanced (h : Executes s s' kind binding key request answer now)
    (hadvanced : ∃ b, s.head b < s'.head b) :
    s'.head binding = s.head binding + 1 ∧ answer.receipted = true ∧
      s'.ledger.lookup (kind, binding, key) =
        some { request, result := answer.data, createdAt := now } := by
  obtain ⟨-, hsame | hmoved⟩ := h
  · obtain ⟨b, hb⟩ := hadvanced
    rw [hsame b] at hb
    exact absurd hb (lt_irrefl _)
  · exact hmoved

/-- The call that created a binding is answered from the ledger. -/
theorem setNewTextBinding_again (hkey : validateIdempotencyKey key = .ok ())
    (htarget : s.newTextBinding host project fields = .ok (shot, binding)) (hlater : s.Later s')
    (hrow : s'.ledger.lookup (.textBindingSet, binding, key) =
      some { request := setRequest project binding (streamOf binding) 0 digest
             result := answer.data, createdAt := env.now }) (hreceipted : answer.receipted = true)
    (hwindow : env'.now - resultWindow ≤ env.now) :
    s'.setNewTextBinding host env' project fields data digest (some key) = .ok (s', answer) := by
  have htarget' : s'.newTextBinding host project fields = .ok (shot, binding) := by
    rw [← htarget]
    simp only [newTextBinding, shotOfProject, hlater.shots]
  have hreplay := CommandLedger.replay_of_lookup hkey hrow hwindow
  simp only [setNewTextBinding, htarget', ok_bind, hreplay, pure_eq_ok]
  rw [← hreceipted]

/-- A call that names a head below the present one is refused. -/
theorem setHeldTextBinding_stale {expected : Nat} {result : State × Answer}
    (hresolve : s.resolveTextBinding host project fields = .ok (b, row)) (hlater : s.Later s')
    (hhead : expected < s'.head b) :
    s'.setHeldTextBinding host env project fields expected data digest (some key) ≠ .ok result := by
  intro h
  obtain ⟨b', row', hresolve', hexpected, -⟩ := setHeldTextBinding_eq_ok h
  obtain rfl := resolveTextBinding_later hlater hresolve hresolve'
  rw [head_of_lookup (resolveTextBinding_eq_ok hresolve'), hexpected] at hhead
  exact lt_irrefl _ hhead

theorem getProject_later {selector : String} (hlater : s.Later s') :
    s'.getProject selector = s.getProject selector := by
  rw [State.getProject, State.getProject, hlater.projects]

/-- A call that advanced a binding, sent again inside the window, is answered as it was and changes
nothing exactly when it created the binding, whatever was called in between. -/
theorem text_binding_retransmission {call : TextCall}
    (hfirst : call.outcome host env s = .ok (s₁, answer)) (hadvanced : ∃ b, s.head b < s₁.head b)
    (between : List (Env × TextCall)) (hwindow : env'.now - resultWindow ≤ env.now) :
    call.outcome host env' (Run.replay (nextText host) s₁ between) =
        .ok (Run.replay (nextText host) s₁ between, answer) ↔
      call.ExpectsNoBinding := by
  have hbetween : s₁.Later (Run.replay (nextText host) s₁ between) := later_replay between s₁
  have hlater : s.Later (Run.replay (nextText host) s₁ between) :=
    (outcome_eq_ok hfirst).trans hbetween
  generalize Run.replay (nextText host) s₁ between = s₂ at hbetween hlater ⊢
  cases call with
  | set selector body key =>
    simp only [TextCall.outcome, setProjectShotTextBinding, bind_eq_ok] at hfirst
    obtain ⟨k, hkey, fields, hbody, project, hproject, expected, hexpected, ⟨data, digest⟩, hfreeze,
      hfirst⟩ := hfirst
    obtain ⟨rfl, hvalid⟩ := requireIdempotencyKey_eq_ok hkey
    obtain ⟨hget, -⟩ := expectedHead_eq_ok hexpected le_rfl
    have hcondition : (TextCall.set selector body (some k)).ExpectsNoBinding ↔ expected = 0 := by
      rw [TextCall.ExpectsNoBinding, TextCall.body, objectBody_eq_ok hbody, Json.get?_obj, hget]
      simp
    -- up to the branch on the expected head, the second call does what the first one did
    rw [hcondition, TextCall.outcome, setProjectShotTextBinding, hkey, hbody,
      getProject_later hlater, hproject, ok_bind, ok_bind, ok_bind, hexpected, ok_bind, hfreeze, ok_bind]
    dsimp only
    by_cases hzero : expected = 0
    · rw [if_pos hzero] at hfirst ⊢
      obtain ⟨shot, binding, htarget, hexecutes⟩ := setNewTextBinding_eq_ok hfirst
      obtain ⟨-, hreceipted, hrow⟩ := hexecutes.advanced hadvanced
      simp only [hzero, iff_true]
      exact setNewTextBinding_again hvalid htarget hlater (hbetween.ledger _ _ hrow) hreceipted
        hwindow
    · rw [if_neg hzero] at hfirst ⊢
      obtain ⟨b, row, hresolve, hhead, hexecutes⟩ := setHeldTextBinding_eq_ok hfirst
      obtain ⟨hmoved, -⟩ := hexecutes.advanced hadvanced
      have hpast : expected < s₂.head b := by
        have hle := hbetween.head_le b
        rw [hmoved, head_of_lookup (resolveTextBinding_eq_ok hresolve), hhead] at hle
        omega
      simp only [hzero, iff_false]
      exact setHeldTextBinding_stale hresolve hlater hpast
  | rebind selector body key =>
    obtain ⟨k, fields, project, expected, b, row, request, hbody, hproject, hexpected, hresolve, hhead,
      hexecutes⟩ := rebindProjectShotTextBinding_eq_ok hfirst
    obtain ⟨hget, hpositive⟩ := expectedHead_eq_ok hexpected Int.one_nonneg
    obtain ⟨hmoved, -⟩ := hexecutes.advanced hadvanced
    constructor
    · intro hagain
      obtain ⟨-, fields', project', expected', b', row', -, hbody', hproject', hexpected', hresolve',
        hhead', -⟩ := rebindProjectShotTextBinding_eq_ok hagain
      obtain rfl := Except.ok.inj (hbody.symm.trans hbody')
      obtain rfl := Except.ok.inj (hexpected.symm.trans hexpected')
      rw [getProject_later hlater, hproject] at hproject'
      cases hproject'
      obtain rfl := resolveTextBinding_later hlater hresolve hresolve'
      have hle := hbetween.head_le b'
      rw [hmoved, head_of_lookup (resolveTextBinding_eq_ok hresolve), hhead,
        head_of_lookup (resolveTextBinding_eq_ok hresolve'), hhead'] at hle
      omega
    · intro hnone
      rw [TextCall.ExpectsNoBinding, TextCall.body, objectBody_eq_ok hbody, Json.get?_obj, hget] at hnone
      simp only [Option.some.injEq, Json.int.injEq] at hnone
      omega

/-- A host on which texts of different lengths have different digests. -/
def lengthHost : Host where
  canonical _ := "binding"
  sha256 data := String.ofList (List.replicate 64 (if data.length = 3 then 'a' else 'b'))
  decode _ := some ""
  uuid name := name
  stamp _ := ""
  seamReport _ _ _ _ := .ok .null

/-- A project with one shot. -/
def shotProject : State :=
  { projects := (Table.empty.insertNew "project" "slug").getD .empty
    shots := (Table.empty.insertNew "shot" ⟨"project", "shot", .obj [], 1, 0, 0, none, []⟩).getD .empty }

/-- Sets the prompt of the shot. -/
def setsPrompt (expected : Int) (text key : String) : TextCall :=
  .set "project"
    (.obj [("expected_head", .int expected), ("kind", .str "prompt"), ("shot_id", .str "shot"),
      ("text", .str text)]) (some key)

theorem text_binding_retransmission_created : ∃ s₁ answer,
    (setsPrompt 0 "one" "key-1").outcome lengthHost { now := 0 } shotProject = .ok (s₁, answer) ∧
      (setsPrompt 0 "one" "key-1").outcome lengthHost { now := 1 }
          (Run.replay (nextText lengthHost) s₁
            [({ now := 1 }, setsPrompt 1 "three" "key-2")]) =
        .ok (Run.replay (nextText lengthHost) s₁
          [({ now := 1 }, setsPrompt 1 "three" "key-2")], answer) := by
  obtain ⟨⟨s₁, answer⟩, h⟩ : ∃ result, ((setsPrompt 0 "one" "key-1").outcome lengthHost
      { now := 0 } shotProject).toOption = some result :=
    Option.isSome_iff_exists.mp (by decide +kernel)
  have hhead : ((setsPrompt 0 "one" "key-1").outcome lengthHost { now := 0 }
      shotProject).toOption.map (fun r => r.1.head "binding") = some 1 := by decide +kernel
  have hstart : shotProject.head "binding" = 0 := by decide +kernel
  have hadvanced : shotProject.head "binding" < s₁.head "binding" := by
    rw [h, Option.map_some, Option.some.injEq] at hhead
    rw [hstart, hhead]
    exact Nat.one_pos
  have hfirst : (setsPrompt 0 "one" "key-1").outcome lengthHost { now := 0 } shotProject =
      .ok (s₁, answer) := by
    cases houtcome : (setsPrompt 0 "one" "key-1").outcome lengthHost { now := 0 } shotProject with
    | error e => rw [houtcome] at h; cases h
    | ok r => rw [houtcome] at h; exact congrArg _ (Option.some.inj h)
  exact ⟨s₁, answer, hfirst, (text_binding_retransmission hfirst ⟨"binding", hadvanced⟩ _
    (by decide)).mpr rfl⟩

/-- A call that moved the binding from head 1 to head 2 is refused when it is sent again. -/
theorem moved_binding_is_not_retransmitted :
    (Run.replay (nextText lengthHost) shotProject
        [({ now := 0 }, setsPrompt 0 "one" "key-1")]).head "binding" = 1 ∧
      (Run.replay (nextText lengthHost) shotProject
        [({ now := 0 }, setsPrompt 0 "one" "key-1"),
          ({ now := 0 }, setsPrompt 1 "three" "key-2")]).head "binding" = 2 ∧
      ((setsPrompt 1 "three" "key-2").outcome lengthHost { now := 0 }
        (Run.replay (nextText lengthHost) shotProject
          [({ now := 0 }, setsPrompt 0 "one" "key-1"),
            ({ now := 0 }, setsPrompt 1 "three" "key-2")])).toOption = none := by
  decide +kernel

end WorkspaceRuntime.Project
