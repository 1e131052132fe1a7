import Mathlib.Logic.Relation

/-!
# Traces of a labelled transition system

`Trace step allowed` relates the two ends of a finite sequence of labelled steps whose labels are all
allowed. What one step does is lifted to whole traces by `Trace.preserves` for an invariant,
`Trace.reflects` for one read backwards, and `Trace.relates` for a reflexive and transitive relation
between the ends.
-/

universe u v

variable {ℓ : Type u} {α : Type v}

/-- A finite sequence of steps with allowed labels. -/
def Trace (step : ℓ → α → α → Prop) (allowed : ℓ → Prop) : α → α → Prop :=
  Relation.ReflTransGen fun a b => ∃ l, allowed l ∧ step l a b

namespace Trace

variable {step : ℓ → α → α → Prop} {allowed allowed' : ℓ → Prop} {a b c : α}

@[refl] theorem refl (a : α) : Trace step allowed a a := Relation.ReflTransGen.refl

theorem of_eq (h : a = b) : Trace step allowed a b := h ▸ refl a

theorem single {l : ℓ} (hl : allowed l) (h : step l a b) : Trace step allowed a b :=
  Relation.ReflTransGen.single ⟨l, hl, h⟩

@[trans] theorem trans (h : Trace step allowed a b) (h' : Trace step allowed b c) :
    Trace step allowed a c :=
  Relation.ReflTransGen.trans h h'

/-- A trace with fewer labels is a trace with more. -/
theorem mono (h : Trace step allowed a b) (hsub : ∀ l, allowed l → allowed' l) :
    Trace step allowed' a b := by
  induction h with
  | refl => exact refl _
  | tail _ hs ih =>
    obtain ⟨l, hl, hs⟩ := hs
    exact ih.trans (single (hsub l hl) hs)

/-- An invariant of every allowed step holds at the end of a path if it holds at its start. -/
theorem preserves (h : Trace step allowed a b) {I : α → Prop}
    (hstep : ∀ {l a b}, allowed l → step l a b → I a → I b) (ha : I a) : I b := by
  induction h with
  | refl => exact ha
  | tail _ hs ih =>
    obtain ⟨l, hl, hs⟩ := hs
    exact hstep hl hs ih

/-- A path without labels goes nowhere. -/
theorem eq_of_none (h : Trace step allowed a b) (hnone : ∀ l, ¬allowed l) : b = a :=
  h.preserves (I := (· = a)) (fun hl => absurd hl (hnone _)) rfl

/-- A reflexive and transitive relation that holds across every allowed step holds between the ends
of a path. -/
theorem relates (h : Trace step allowed a b) {R : α → α → Prop} (hrefl : ∀ a, R a a)
    (htrans : ∀ {a b c}, R a b → R b c → R a c)
    (hstep : ∀ {l a b}, allowed l → step l a b → R a b) : R a b := by
  induction h with
  | refl => exact hrefl a
  | tail _ hs ih =>
    obtain ⟨l, hl, hs⟩ := hs
    exact htrans ih (hstep hl hs)

/-- What no allowed step brings about held before a path if it holds after it. -/
theorem reflects (h : Trace step allowed a b) {P : α → Prop}
    (hstep : ∀ {l a b}, allowed l → step l a b → P b → P a) : P b → P a :=
  h.relates (R := fun a b => P b → P a) (fun _ => id) (fun h h' => h ∘ h') hstep

/-- A field that every allowed step keeps or clears is kept or cleared by a path. -/
theorem keeps_or_clears {β : Type*} {f : α → Option β} (h : Trace step allowed a b)
    (hstep : ∀ {l a b}, allowed l → step l a b → f b = f a ∨ f b = none) : f b = f a ∨ f b = none :=
  h.relates (R := fun a b => f b = f a ∨ f b = none) (fun _ => .inl rfl)
    (fun h h' => h'.elim (fun e => e ▸ h) .inr) hstep

/-- A map that commutes with the allowed steps carries paths to paths. -/
theorem map (h : Trace step allowed a b) {f : α → α}
    (hstep : ∀ {l a b}, allowed l → step l a b → step l (f a) (f b)) :
    Trace step allowed (f a) (f b) := by
  induction h with
  | refl => exact refl _
  | tail _ hs ih =>
    obtain ⟨l, hl, hs⟩ := hs
    exact ih.trans (single hl (hstep hl hs))

end Trace
