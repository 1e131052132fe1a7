import Mathlib.Data.List.Sort
import WorkspaceRuntime.Lib.Fallible

/-!
# Loops whose order does not matter

A loop `List.foldlM` over the members of a set takes them in some order. It does not matter which one
when two rounds that follow each other may be exchanged. `foldlM_perm` lifts that from two rounds to
the whole loop. What the rounds may rely on is an invariant of the state and the rounds still to come,
and the states of the two loops are compared by a relation `R`, so that they need not be equal.
-/

namespace Fallible

variable {ε σ α : Type} {step : σ → α → Except ε σ} {R : σ → σ → Prop} {I : σ → List α → Prop}
  {l l' : List α}

/-- What the rounds of a loop have to do with each other for their order not to matter. -/
structure Reorderable (step : σ → α → Except ε σ) (R : σ → σ → Prop) (I : σ → List α → Prop) :
    Prop where
  trans : ∀ {s t u}, R s t → R t u → R s u
  /-- A round does the same on related states. -/
  congr : ∀ {s t s' a}, R s t → step s a = .ok s' → ∃ t', step t a = .ok t' ∧ R s' t'
  /-- The rounds to come may rely on what this one relied on. -/
  next : ∀ {s s' a l}, I s (a :: l) → step s a = .ok s' → I s' l
  /-- The invariant does not depend on the order. -/
  perm : ∀ {s l l'}, l.Perm l' → I s l → I s l'
  /-- Two rounds may be exchanged. -/
  swap : ∀ {s s₁ s₂ a b l}, I s (a :: b :: l) → step s a = .ok s₁ → step s₁ b = .ok s₂ →
    ∃ t₁ t₂, step s b = .ok t₁ ∧ step t₁ a = .ok t₂ ∧ R s₂ t₂

/-- A loop does the same on related states. -/
theorem foldlM_congr (congr : ∀ {s t s' a}, R s t → step s a = .ok s' →
      ∃ t', step t a = .ok t' ∧ R s' t') :
    ∀ {l : List α} {s t s' : σ}, R s t → l.foldlM step s = .ok s' →
      ∃ t', l.foldlM step t = .ok t' ∧ R s' t'
  | [], s, t, s', hR, h => ⟨t, rfl, Except.ok.inj h ▸ hR⟩
  | a :: l, s, t, s', hR, h => by
    rw [List.foldlM_cons] at h
    obtain ⟨s₁, h₁, h₂⟩ := bind_eq_ok.mp h
    obtain ⟨t₁, ht₁, hR₁⟩ := congr hR h₁
    obtain ⟨t', ht', hR'⟩ := foldlM_congr congr hR₁ h₂
    exact ⟨t', by rw [List.foldlM_cons, ht₁, ok_bind, ht'], hR'⟩

/-- The order of the rounds does not matter. -/
theorem foldlM_perm (h : Reorderable step R I) (hrefl : ∀ s, R s s) (hperm : l.Perm l') :
    ∀ {s s' : σ}, I s l → l.foldlM step s = .ok s' → ∃ t', l'.foldlM step s = .ok t' ∧ R s' t' := by
  induction hperm with
  | nil => exact fun _ hl => ⟨_, hl, hrefl _⟩
  | cons a _ ih =>
    intro s s' hI hl
    rw [List.foldlM_cons] at hl
    obtain ⟨s₁, h₁, h₂⟩ := bind_eq_ok.mp hl
    obtain ⟨t', ht', hR⟩ := ih (h.next hI h₁) h₂
    exact ⟨t', by rw [List.foldlM_cons, h₁, ok_bind, ht'], hR⟩
  | swap a b l =>
    intro s s' hI hl
    rw [List.foldlM_cons] at hl
    obtain ⟨s₁, h₁, hl⟩ := bind_eq_ok.mp hl
    rw [List.foldlM_cons] at hl
    obtain ⟨s₂, h₂, hl⟩ := bind_eq_ok.mp hl
    -- the two rounds are exchanged, and the rest of the loop runs on a related state
    obtain ⟨t₁, t₂, ht₁, ht₂, hR⟩ := h.swap hI h₁ h₂
    obtain ⟨t', ht', hR'⟩ := foldlM_congr h.congr hR hl
    exact ⟨t', by rw [List.foldlM_cons, ht₁, ok_bind, List.foldlM_cons, ht₂, ok_bind, ht'], hR'⟩
  | trans hperm₁ _ ih₁ ih₂ =>
    intro s s' hI hl
    obtain ⟨t₁, ht₁, hR₁⟩ := ih₁ hI hl
    obtain ⟨t₂, ht₂, hR₂⟩ := ih₂ (h.perm hperm₁ hI) ht₁
    exact ⟨t₂, ht₂, h.trans hR₁ hR₂⟩

/-- A loop in another order on a related state. -/
theorem Reorderable.foldlM (h : Reorderable step R I) (hrefl : ∀ s, R s s)
    (hperm : l.Perm l') {s t s' : σ} (hR : R s t) (hI : I s l) (hl : l.foldlM step s = .ok s') :
    ∃ t', l'.foldlM step t = .ok t' ∧ R s' t' := by
  obtain ⟨u, hu, hR'⟩ := foldlM_perm h hrefl hperm hI hl
  obtain ⟨t', ht', hR''⟩ := foldlM_congr h.congr hR hu
  exact ⟨t', ht', h.trans hR' hR''⟩

/-- The rounds of a loop that only collects do not depend on each other. -/
theorem mapM_perm {β : Type} {f : α → Except ε β} (hperm : l.Perm l') :
    ∀ {r : List β}, l.mapM f = .ok r → ∃ r', l'.mapM f = .ok r' ∧ r.Perm r' := by
  induction hperm with
  | nil => exact fun h => ⟨_, h, .refl _⟩
  | cons a _ ih =>
    intro r h
    simp only [List.mapM_cons, bind_eq_ok, return_ok] at h
    obtain ⟨b, hb, bs, hbs, rfl⟩ := h
    obtain ⟨bs', hbs', hperm⟩ := ih hbs
    exact ⟨b :: bs', by simp [List.mapM_cons, hb, hbs'], hperm.cons b⟩
  | swap a a' l =>
    intro r h
    simp only [List.mapM_cons, bind_eq_ok, return_ok] at h
    obtain ⟨b', hb', _, ⟨b, hb, bs, hbs, rfl⟩, rfl⟩ := h
    exact ⟨b :: b' :: bs, by simp [List.mapM_cons, hb, hb', hbs], .swap b b' bs⟩
  | trans _ _ ih₁ ih₂ =>
    intro r h
    obtain ⟨r₁, h₁, hperm₁⟩ := ih₁ h
    obtain ⟨r₂, h₂, hperm₂⟩ := ih₂ h₁
    exact ⟨r₂, h₂, hperm₁.trans hperm₂⟩

end Fallible

/-! ## Reading a list in another order -/

namespace List

variable {α : Type} {l l' : List α}

/-- A search that only one member can answer does not depend on the order. -/
theorem Perm.find?_eq {p : α → Bool} (hperm : l.Perm l')
    (hone : ∀ a ∈ l, ∀ b ∈ l, p a = true → p b = true → a = b) : l.find? p = l'.find? p := by
  cases h : l.find? p with
  | none =>
    rw [find?_eq_none] at h
    exact (find?_eq_none.mpr fun a ha => h a (hperm.mem_iff.mpr ha)).symm
  | some a =>
    have ha := mem_of_find?_eq_some h
    have hpa := find?_some h
    cases h' : l'.find? p with
    | none => exact absurd hpa (find?_eq_none.mp h' a (hperm.mem_iff.mp ha))
    | some b =>
      have hb := hperm.mem_iff.mpr (mem_of_find?_eq_some h')
      rw [hone a ha b hb hpa (find?_some h')]

/-- Members that an order tells apart are sorted into one list. -/
theorem Perm.insertionSort_eq {r : α → α → Prop} [DecidableRel r] [Std.Total r] [IsTrans α r]
    (hperm : l.Perm l') (hanti : ∀ a ∈ l, ∀ b ∈ l, r a b → r b a → a = b) :
    l.insertionSort r = l'.insertionSort r := by
  refine Perm.eq_of_pairwise ?_ (pairwise_insertionSort r l) (pairwise_insertionSort r l')
    (((perm_insertionSort r l).trans hperm).trans (perm_insertionSort r l').symm)
  intro a b ha hb
  exact hanti a ((mem_insertionSort r).mp ha) b
    (hperm.mem_iff.mpr ((mem_insertionSort r).mp hb))

theorem nodup_eraseDups [BEq α] [LawfulBEq α] (l : List α) : l.eraseDups.Nodup := by
  match l with
  | [] => simp
  | a :: l =>
    rw [eraseDups_cons, nodup_cons]
    exact ⟨by simp [mem_eraseDups], nodup_eraseDups _⟩
termination_by l.length
decreasing_by exact Nat.lt_succ_of_le (length_filter_le _ _)

end List
