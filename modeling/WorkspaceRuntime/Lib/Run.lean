import Mathlib.Data.List.Basic

/-!
# Runs of a deterministic system

A system is a function `next` from a state and an event to the state after it, and a run is a list of
events. `Run.Meets` says that every event of a run meets a condition in the state it happens in.
`Run.Meets.preserves` is the invariant rule for such runs, and `Run.meets_append` splits one.
`Run.Meets.emitted_nodup` is the rule for outputs that no two events of a run may share.
-/

namespace Run

variable {σ ε : Type} (next : σ → ε → σ)

/-- The state after the events of a run. -/
def replay (s : σ) (run : List ε) : σ := run.foldl next s

/-- Every event of a run meets `ok` in the state it happens in. -/
def Meets (ok : σ → ε → Prop) : σ → List ε → Prop
  | _, [] => True
  | s, e :: run => ok s e ∧ Meets ok (next s e) run

variable {next} {ok : σ → ε → Prop} {s : σ}

@[simp] theorem replay_nil : replay next s [] = s := rfl

@[simp] theorem replay_cons (e : ε) (run : List ε) :
    replay next s (e :: run) = replay next (next s e) run := rfl

@[simp] theorem replay_append (before after : List ε) :
    replay next s (before ++ after) = replay next (replay next s before) after :=
  List.foldl_append

/-- A run meets a condition when both its parts do. -/
theorem meets_append (before after : List ε) :
    Meets next ok s (before ++ after) ↔
      Meets next ok s before ∧ Meets next ok (replay next s before) after := by
  induction before generalizing s with
  | nil => simp [Meets]
  | cons e before ih => simp [Meets, ih, and_assoc]

variable {run : List ε}

/-- A condition that the events of a run meet in every state. -/
theorem meets_of (h : ∀ e ∈ run, ∀ s, ok s e) : Meets next ok s run := by
  induction run generalizing s with
  | nil => trivial
  | cons e run ih =>
    exact ⟨h e List.mem_cons_self s, ih fun e he => h e (.tail _ he)⟩

/-- A run meets every condition that follows from one it meets. -/
theorem Meets.mono {ok' : σ → ε → Prop} (h : Meets next ok s run) (himp : ∀ s e, ok s e → ok' s e) :
    Meets next ok' s run := by
  induction run generalizing s with
  | nil => trivial
  | cons e run ih => exact ⟨himp s e h.1, ih h.2⟩

/-- What every event keeps holds at the end of a run. -/
theorem Meets.preserves (h : Meets next ok s run) {I : σ → Prop}
    (hnext : ∀ {s e}, ok s e → I s → I (next s e)) (hs : I s) : I (replay next s run) := by
  induction run generalizing s with
  | nil => exact hs
  | cons e run ih => exact ih h.2 (hnext h.1 hs)

section Outputs

variable {ω : Type} (next) (out : σ → ε → Option ω)

/-- What the events of a run put out, in their order. -/
def emitted : σ → List ε → List ω
  | _, [] => []
  | s, e :: run => (out s e).toList ++ emitted (next s e) run

variable {next} {out}

/-- No two events put out the same, if what is put out is spent from then on. -/
theorem Meets.emitted_nodup (h : Meets next ok s run) {I : σ → Prop} {S : σ → ω → Prop}
    (hnext : ∀ {s e}, ok s e → I s → I (next s e))
    (hkeep : ∀ {s e w}, ok s e → I s → S s w → S (next s e) w)
    (hfresh : ∀ {s e w}, ok s e → I s → out s e = some w → ¬S s w)
    (hspend : ∀ {s e w}, ok s e → I s → out s e = some w → S (next s e) w) (hs : I s) :
    (emitted next out s run).Nodup ∧ ∀ w ∈ emitted next out s run, ¬S s w := by
  induction run generalizing s with
  | nil => exact ⟨List.nodup_nil, by simp [emitted]⟩
  | cons e run ih =>
    obtain ⟨hnodup, hunspent⟩ := ih h.2 (hnext h.1 hs)
    have hrest : ∀ w ∈ emitted next out (next s e) run, ¬S s w := fun w hw hspent =>
      hunspent w hw (hkeep h.1 hs hspent)
    cases hout : out s e with
    | none => simpa [emitted, hout] using ⟨hnodup, hrest⟩
    | some w =>
      have hw : w ∉ emitted next out (next s e) run := fun hmem =>
        hunspent w hmem (hspend h.1 hs hout)
      simpa [emitted, hout] using ⟨⟨hw, hnodup⟩, hfresh h.1 hs hout, hrest⟩

end Outputs

instance Meets.decidable [∀ s e, Decidable (ok s e)] (s : σ) :
    ∀ run, Decidable (Meets next ok s run)
  | [] => .isTrue trivial
  | e :: run => @instDecidableAnd _ _ _ (Meets.decidable (next s e) run)

end Run
