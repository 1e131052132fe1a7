import Mathlib.Logic.Basic

/-!
# Procedures under a plan of faults

A procedure `Proc ℓ σ α` works on a state `σ` in steps that have labels in `ℓ`. A `Plan` says of every
label what happens when its step is reached: the step takes effect, it raises, or the process crashes
before it. An exception can be caught (`Proc.handle`, `Proc.quietly`), a crash cannot. What all runs of
a procedure do is stated as `Proc.Ensures`, with one postcondition for each way to end, and derived by
the rules for the constructions.
-/

/-- What happens at a step. -/
inductive Outcome where
  | ok | raises | crashes
  deriving DecidableEq, Repr

/-- What happens at the step of each label. -/
abbrev Plan (ℓ : Type) := ℓ → Outcome

/-- The first outcome of steps in a row that is not `ok`. -/
def Plan.first {ℓ : Type} (plan : Plan ℓ) : List ℓ → Outcome
  | [] => .ok
  | l :: ls =>
    match plan l with
    | .ok => plan.first ls
    | .raises => .raises
    | .crashes => .crashes

theorem Plan.first_append {ℓ : Type} (plan : Plan ℓ) (ls ls' : List ℓ) :
    plan.first (ls ++ ls') = match plan.first ls with
      | .ok => plan.first ls'
      | .raises => .raises
      | .crashes => .crashes := by
  induction ls with
  | nil => rfl
  | cons l ls ih =>
    simp only [List.cons_append, Plan.first]
    cases plan l with
    | ok => exact ih
    | raises | crashes => rfl

/-- Steps in a row take effect when each of them does. -/
theorem Plan.first_eq_ok {ℓ : Type} {plan : Plan ℓ} {ls : List ℓ} :
    plan.first ls = .ok ↔ ∀ l ∈ ls, plan l = .ok := by
  induction ls with
  | nil => simp [Plan.first]
  | cons l ls ih =>
    rw [List.forall_mem_cons, ← ih, Plan.first]
    cases plan l <;> simp

/-- How a procedure ends. -/
inductive Ending (α : Type) where
  | returned (a : α)
  | raised
  | crashed
  deriving DecidableEq, Repr

/-- A procedure with labelled steps. -/
def Proc (ℓ σ α : Type) := Plan ℓ → σ → Ending α × σ

namespace Proc

variable {ℓ σ α β : Type} {P R C I : σ → Prop} {Q : α → σ → Prop} {S : β → σ → Prop}

/-- Return a value. -/
protected def pure (a : α) : Proc ℓ σ α := fun _ s => (.returned a, s)

/-- Sequential composition. -/
protected def bind (p : Proc ℓ σ α) (k : α → Proc ℓ σ β) : Proc ℓ σ β := fun plan s =>
  match p plan s with
  | (.returned a, s') => k a plan s'
  | (.raised, s') => (.raised, s')
  | (.crashed, s') => (.crashed, s')

instance : Monad (Proc ℓ σ) where
  pure := Proc.pure
  bind := Proc.bind

/-- The state. -/
def get : Proc ℓ σ σ := fun _ s => (.returned s, s)

/-- Change the state; nothing can go wrong. -/
def update (f : σ → σ) : Proc ℓ σ Unit := fun _ s => (.returned (), f s)

/-- Raise an exception. -/
def raise : Proc ℓ σ α := fun _ s => (.raised, s)

/-- One step. -/
def step (l : ℓ) (f : σ → σ) : Proc ℓ σ Unit := fun plan s =>
  match plan l with
  | .ok => (.returned (), f s)
  | .raises => (.raised, s)
  | .crashes => (.crashed, s)

/-- A step that only may raise. -/
def check (l : ℓ) : Proc ℓ σ Unit := step l id

/-- Raise unless `c` holds. -/
def require (c : Prop) [Decidable c] : Proc ℓ σ Unit := if c then pure () else raise

/-- Run `handler` when `p` raises, and raise again after it. -/
def handle (p : Proc ℓ σ α) (handler : Proc ℓ σ Unit) : Proc ℓ σ α := fun plan s =>
  match p plan s with
  | (.raised, s') =>
    match handler plan s' with
    | (.crashed, s'') => (.crashed, s'')
    | (_, s'') => (.raised, s'')
  | result => result

/-- Continue with `other` when `p` raises. -/
def orElse (p : Proc ℓ σ α) (other : Proc ℓ σ α) : Proc ℓ σ α := fun plan s =>
  match p plan s with
  | (.raised, s') => other plan s'
  | result => result

/-- Run `p` and go on whether or not it raises. -/
def quietly (p : Proc ℓ σ Unit) : Proc ℓ σ Unit := p.orElse (pure ())

/-! ## Rules -/

/-- Every run from a state with `P` ends with `Q` when it returns, with `R` when it raises, and with
`C` when it crashes. -/
def Ensures (plan : Plan ℓ) (P : σ → Prop) (p : Proc ℓ σ α) (Q : α → σ → Prop) (R C : σ → Prop) :
    Prop :=
  ∀ s, P s →
    match p plan s with
    | (.returned a, s') => Q a s'
    | (.raised, s') => R s'
    | (.crashed, s') => C s'

/-- What holds before a procedure holds after it, however it ends. -/
def Keeps (I : σ → Prop) (p : Proc ℓ σ α) : Prop :=
  ∀ plan, p.Ensures plan I (fun _ => I) I I

variable {plan : Plan ℓ} {p : Proc ℓ σ α} {k : α → Proc ℓ σ β} {handler : Proc ℓ σ Unit} {l : ℓ}
  {ls : List ℓ} {f : σ → σ} {A D E : σ → Prop}

theorem bind_apply (s : σ) : (p >>= k) plan s =
    match p plan s with
    | (.returned a, s') => k a plan s'
    | (.raised, s') => (.raised, s')
    | (.crashed, s') => (.crashed, s') := rfl

theorem Ensures.weaken {B : α → σ → Prop} (h : p.Ensures plan P Q R C)
    (hP : ∀ s, A s → P s) (hQ : ∀ a s, Q a s → B a s) (hR : ∀ s, R s → D s) (hC : ∀ s, C s → E s) :
    p.Ensures plan A B D E := by
  intro s hs
  have hrun := h s (hP s hs)
  rcases hp : p plan s with ⟨a | _ | _, s'⟩ <;> simp only [hp] at hrun ⊢
  · exact hQ a s' hrun
  · exact hR s' hrun
  · exact hC s' hrun

theorem Ensures.pre (h : p.Ensures plan P Q R C) (hP : ∀ s, A s → P s) : p.Ensures plan A Q R C :=
  fun s hs => h s (hP s hs)

theorem Ensures.fails (h : p.Ensures plan P Q R C) (hR : ∀ s, R s → D s)
    (hC : ∀ s, C s → E s) : p.Ensures plan P Q D E :=
  h.weaken (fun _ => id) (fun _ _ => id) hR hC

/-- All endings have the same condition. -/
theorem Ensures.ends (h : p.Ensures plan P (fun _ => R) R R) (hR : ∀ s, R s → D s) :
    p.Ensures plan P (fun _ => D) D D :=
  h.weaken (fun _ => id) (fun _ => hR) hR hR

/-- A fact that does not depend on the state. -/
theorem Ensures.given {c : Prop} (h : c → p.Ensures plan P Q R C) :
    p.Ensures plan (fun s => P s ∧ c) Q R C :=
  fun s hs => h hs.2 s hs.1

theorem ensures_pure (a : α) (h : ∀ s, P s → Q a s) :
    (pure a : Proc ℓ σ α).Ensures plan P Q R C := h

theorem ensures_raise (h : ∀ s, P s → R s) : (raise : Proc ℓ σ α).Ensures plan P Q R C := h

theorem ensures_update {Q : Unit → σ → Prop} (h : ∀ s, P s → Q () (f s)) :
    (update f : Proc ℓ σ Unit).Ensures plan P Q R C := h

theorem Ensures.bind (h : p.Ensures plan P Q R C) (hk : ∀ a, (k a).Ensures plan (Q a) S R C) :
    (p >>= k).Ensures plan P S R C := by
  intro s hs
  have hrun := h s hs
  rw [bind_apply]
  rcases hp : p plan s with ⟨a | _ | _, s'⟩ <;> simp only [hp] at hrun ⊢
  · exact hk a s' hrun
  · exact hrun
  · exact hrun

/-- What is read is the state that the rest starts in. -/
theorem ensures_get {k : σ → Proc ℓ σ β}
    (h : ∀ s, P s → (k s).Ensures plan (fun s' => s' = s) S R C) :
    (get >>= k).Ensures plan P S R C :=
  fun s hs => h s hs s rfl

theorem ensures_require {c : Prop} [Decidable c] {k : Unit → Proc ℓ σ β}
    (hpos : c → (k ()).Ensures plan P S R C) (hneg : ¬c → ∀ s, P s → R s) :
    (require c >>= k).Ensures plan P S R C := by
  unfold require
  split
  next hc => exact hpos hc
  next hc => exact hneg hc

theorem ensures_step {Q : Unit → σ → Prop}
    (hok : plan l = .ok → ∀ s, P s → Q () (f s)) (hraises : plan l = .raises → ∀ s, P s → R s)
    (hcrashes : plan l = .crashes → ∀ s, P s → C s) :
    (step l f).Ensures plan P Q R C := by
  intro s hs
  unfold step
  cases hl : plan l with
  | ok => exact hok hl s hs
  | raises => exact hraises hl s hs
  | crashes => exact hcrashes hl s hs

theorem ensures_check (hraises : ∀ s, P s → R s) (hcrashes : ∀ s, P s → C s) :
    (check l).Ensures plan P (fun _ => P) R C :=
  ensures_step (fun _ _ => id) (fun _ => hraises) fun _ => hcrashes

theorem Ensures.handle {T : σ → Prop} (h : p.Ensures plan P Q T C)
    (hhandler : handler.Ensures plan T (fun _ => R) R C) :
    (p.handle handler).Ensures plan P Q R C := by
  intro s hs
  have hrun := h s hs
  unfold Proc.handle
  rcases hp : p plan s with ⟨a | _ | _, s'⟩ <;> simp only [hp] at hrun ⊢
  · exact hrun
  · have hrun' := hhandler s' hrun
    rcases hh : handler plan s' with ⟨a | _ | _, s''⟩ <;> simp only [hh] at hrun' ⊢ <;> exact hrun'
  · exact hrun

/-- What never raises needs no handler. -/
theorem Ensures.handle_of_ne (h : p.Ensures plan P Q (fun _ => False) C) :
    (p.handle handler).Ensures plan P Q R C :=
  Ensures.handle h fun _ => False.elim

theorem Ensures.orElse {other : Proc ℓ σ α} {T : σ → Prop} (h : p.Ensures plan P Q T C)
    (hother : other.Ensures plan T Q R C) : (p.orElse other).Ensures plan P Q R C := by
  intro s hs
  have hrun := h s hs
  unfold Proc.orElse
  rcases hp : p plan s with ⟨a | _ | _, s'⟩ <;> simp only [hp] at hrun ⊢
  · exact hrun
  · exact hother s' hrun
  · exact hrun

/-! ### Rows of steps -/

/-- A procedure ends as the row of its labels does. -/
def Follows (plan : Plan ℓ) (ls : List ℓ) (P : σ → Prop) (p : Proc ℓ σ α) (Q : α → σ → Prop)
    (R C : σ → Prop) : Prop :=
  p.Ensures plan P (fun a s => plan.first ls = .ok ∧ Q a s) (fun s => plan.first ls = .raises ∧ R s)
    fun s => plan.first ls = .crashes ∧ C s

theorem follows_pure (a : α) (h : ∀ s, P s → Q a s) :
    (pure a : Proc ℓ σ α).Follows plan [] P Q R C :=
  fun s hs => ⟨rfl, h s hs⟩

theorem follows_step {Q : Unit → σ → Prop} (hok : ∀ s, P s → Q () (f s))
    (hraises : ∀ s, P s → R s) (hcrashes : ∀ s, P s → C s) :
    (step l f).Follows plan [l] P Q R C :=
  ensures_step (fun hl s hs => ⟨by simp [Plan.first, hl], hok s hs⟩)
    (fun hl s hs => ⟨by simp [Plan.first, hl], hraises s hs⟩)
    fun hl s hs => ⟨by simp [Plan.first, hl], hcrashes s hs⟩

theorem Follows.bind {ls' : List ℓ} (h : p.Follows plan ls P Q R C)
    (hk : ∀ a, (k a).Follows plan ls' (Q a) S R C) : (p >>= k).Follows plan (ls ++ ls') P S R C := by
  intro s hs
  have hrun := h s hs
  rw [bind_apply]
  rcases hp : p plan s with ⟨a | _ | _, s'⟩ <;> simp only [hp] at hrun ⊢
  · have hrun' := hk a s' hrun.2
    simp only [Plan.first_append, hrun.1]
    exact hrun'
  all_goals exact ⟨by simp only [Plan.first_append, hrun.1], hrun.2⟩

theorem Follows.of_ok (h : p.Follows plan ls P Q R C)
    (hls : plan.first ls = .ok) : p.Ensures plan P Q D E :=
  h.weaken (fun _ => id) (fun _ _ h => h.2) (fun _ h => by simp [hls] at h)
    fun _ h => by simp [hls] at h

/-! ### Invariants -/

theorem keeps_pure (a : α) : Keeps I (pure a : Proc ℓ σ α) := fun _ => ensures_pure a fun _ => id

theorem keeps_raise : Keeps I (raise : Proc ℓ σ α) := fun _ => ensures_raise fun _ => id

theorem keeps_update (h : ∀ s, I s → I (f s)) : Keeps I (update f : Proc ℓ σ Unit) :=
  fun _ => ensures_update h

theorem keeps_step (h : ∀ s, I s → I (f s)) : Keeps I (step l f) :=
  fun _ => ensures_step (fun _ => h) (fun _ _ => id) fun _ _ => id

theorem keeps_check : Keeps I (check l) := keeps_step fun _ => id

theorem keeps_require {c : Prop} [Decidable c] : Keeps I (require c : Proc ℓ σ Unit) := by
  unfold require
  split
  · exact keeps_pure ()
  · exact keeps_raise

theorem Keeps.bind (h : Keeps I p) (hk : ∀ a, Keeps I (k a)) : Keeps I (p >>= k) :=
  fun plan => (h plan).bind fun a => hk a plan

theorem keeps_get {k : σ → Proc ℓ σ β} (h : ∀ s, Keeps I (k s)) : Keeps I (get >>= k) :=
  fun plan s hs => h s plan s hs

theorem Keeps.handle (h : Keeps I p) (hhandler : Keeps I handler) : Keeps I (p.handle handler) :=
  fun plan => (h plan).handle (hhandler plan)

theorem Keeps.orElse {other : Proc ℓ σ α} (h : Keeps I p) (hother : Keeps I other) :
    Keeps I (p.orElse other) :=
  fun plan => (h plan).orElse (hother plan)

theorem Keeps.quietly {p : Proc ℓ σ Unit} (h : Keeps I p) : Keeps I p.quietly :=
  h.orElse (keeps_pure ())

/-- The state at the end of a procedure, when all endings have the same condition. -/
theorem Ensures.final (h : p.Ensures plan P (fun _ => I) I I) {s : σ} (hs : P s) :
    I (p plan s).2 := by
  have hrun := h s hs
  rcases hp : p plan s with ⟨a | _ | _, s'⟩ <;> simpa only [hp] using hrun

theorem Keeps.final (h : Keeps I p) {s : σ} (hs : I s) : I (p plan s).2 := Ensures.final (h plan) hs

end Proc
