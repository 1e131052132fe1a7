import Mathlib.Logic.Basic

/-!
# Fallible computations

Commands that may raise are functions into `Except ε`. This module has the two guards such code is
written with (`require`, `orThrow`), the inversion rule for `>>=`, and the rule that lifts what one
round of a loop does to what the whole loop does.
-/

namespace Fallible

universe u v

variable {ε : Type v} {α β σ : Type u}

/-- Raise `e` unless `c` holds. -/
def require (c : Prop) [Decidable c] (e : ε) : Except ε Unit :=
  if c then .ok () else .error e

/-- The value of `o`, or the error `e` when there is none. -/
def orThrow (o : Option α) (e : ε) : Except ε α :=
  match o with
  | some a => .ok a
  | none => .error e

variable {c : Prop} [Decidable c] {e e' : ε} {o : Option α} {x y : Except ε α} {f : α → Except ε β}
  {a : α} {b : β}

@[simp] theorem require_eq_ok {u : Unit} : require c e = .ok u ↔ c := by
  unfold require
  split <;> simp_all

@[simp] theorem require_eq_error : require c e = .error e' ↔ ¬c ∧ e = e' := by
  unfold require
  split <;> simp_all

theorem require_of (e : ε) (h : c) : require c e = .ok () :=
  require_eq_ok.mpr h

theorem require_of_not (e : ε) (h : ¬c) : require c e = .error e :=
  require_eq_error.mpr ⟨h, rfl⟩

@[simp] theorem orThrow_eq_ok : orThrow o e = .ok a ↔ o = some a := by
  cases o <;> simp [orThrow]

@[simp] theorem orThrow_eq_error : orThrow o e = .error e' ↔ o = none ∧ e = e' := by
  cases o <;> simp [orThrow]

@[simp] theorem orThrow_some (a : α) (e : ε) : orThrow (some a) e = .ok a := rfl

/-- A sequence succeeds exactly when its first part does and the rest succeeds on its value. -/
theorem bind_eq_ok : (x >>= f) = .ok b ↔ ∃ a, x = .ok a ∧ f a = .ok b := by
  cases x with
  | error e =>
    simp only [reduceCtorEq, false_and, exists_false, iff_false]
    exact fun h => by cases h
  | ok a => exact ⟨fun h => ⟨a, rfl, h⟩, fun ⟨_, rfl, h⟩ => h⟩

/-- A sequence fails when its first part fails, or when the rest fails on its value. -/
theorem bind_eq_error : (x >>= f) = .error e ↔ x = .error e ∨ ∃ a, x = .ok a ∧ f a = .error e := by
  cases x with
  | error e' =>
    refine ⟨fun h => .inl (by cases h; rfl), ?_⟩
    rintro (h | ⟨_, h, _⟩) <;> cases h
    rfl
  | ok a =>
    refine ⟨fun h => .inr ⟨a, rfl, h⟩, ?_⟩
    rintro (h | ⟨_, h, h'⟩)
    · cases h
    · cases h; exact h'

/-- A mapped value comes from a value. -/
theorem map_eq_ok {f : α → β} : (f <$> x) = .ok b ↔ ∃ a, x = .ok a ∧ f a = b := by
  cases x with
  | error e =>
    simp only [reduceCtorEq, false_and, exists_false, iff_false]
    exact fun h => by cases h
  | ok a =>
    refine ⟨fun h => ⟨a, rfl, Except.ok.inj h⟩, ?_⟩
    rintro ⟨_, ⟨⟩, rfl⟩
    rfl

@[simp] theorem ok_bind (a : α) (f : α → Except ε β) : (Except.ok a >>= f) = f a := rfl

@[simp] theorem error_bind (e : ε) (f : α → Except ε β) : (Except.error e >>= f) = .error e := rfl

@[simp] theorem pure_eq_ok (a : α) : (pure a : Except ε α) = .ok a := rfl

/-- What is returned is the value. -/
theorem return_ok {b : α} : (pure a : Except ε α) = .ok b ↔ a = b := by
  rw [pure_eq_ok, Except.ok.injEq]

/-! ## Errors that are not raised -/

/-- The computation does not raise `e`. -/
def Avoids (e : ε) (x : Except ε α) : Prop := x ≠ .error e

@[simp] theorem avoids_ok : Avoids e (.ok a : Except ε α) := nofun

@[simp] theorem avoids_error : Avoids e (.error e' : Except ε α) ↔ e' ≠ e := by
  simp [Avoids]

@[simp] theorem avoids_require : Avoids e (require c e') ↔ (¬c → e' ≠ e) := by
  simp [Avoids]

@[simp] theorem avoids_orThrow : Avoids e (orThrow o e') ↔ (o = none → e' ≠ e) := by
  simp [Avoids]

@[simp] theorem avoids_bind :
    Avoids e (x >>= f) ↔ Avoids e x ∧ ∀ a, x = .ok a → Avoids e (f a) := by
  simp [Avoids, bind_eq_error]

@[simp] theorem avoids_map {f : α → β} : Avoids e (f <$> x) ↔ Avoids e x := by
  cases x <;> simp [Avoids, Functor.map, Except.map]

@[simp] theorem avoids_ite :
    Avoids e (if c then x else y) ↔ (c → Avoids e x) ∧ (¬c → Avoids e y) := by
  split <;> simp_all

/-- A loop avoids what each of its rounds avoids. -/
theorem avoids_mapM (hf : ∀ a, Avoids e (f a)) : ∀ l : List α, Avoids e (l.mapM f)
  | [] => by simp
  | a :: l => by
    have hl := avoids_mapM hf l
    simp [List.mapM_cons, hf a, hl]

/-! ## What a computation returns -/

/-- Every value that the computation returns has `Q`. -/
def Returns (Q : α → Prop) (x : Except ε α) : Prop := ∀ a, x = .ok a → Q a

section Returns

variable {P Q : α → Prop} {R : β → Prop}

theorem returns_ok (h : Q a) : Returns Q (.ok a : Except ε α) := by
  rintro _ ⟨⟩
  exact h

theorem returns_error (e : ε) : Returns Q (.error e : Except ε α) := by
  rintro _ ⟨⟩

theorem Returns.mono (hx : Returns P x) (h : ∀ a, P a → Q a) : Returns Q x :=
  fun a ha => h a (hx a ha)

theorem Returns.bind (hx : Returns P x) (hf : ∀ a, P a → Returns R (f a)) :
    Returns R (x >>= f) := by
  intro b hb
  obtain ⟨a, ha, hb⟩ := bind_eq_ok.mp hb
  exact hf a (hx a ha) b hb

/-- A part of which nothing is known. -/
theorem returns_after (hf : ∀ a, Returns R (f a)) : Returns R (x >>= f) :=
  Returns.bind (P := fun _ => True) (fun _ _ => trivial) fun a _ => hf a

theorem returns_ite (hx : Returns Q x) (hy : Returns Q y) : Returns Q (if c then x else y) := by
  split
  · exact hx
  · exact hy

end Returns

/-! ## Gates

A chain of gates answers with the reason of the first closed one, or with none. -/

/-- A chain of refusals accepts what its first check and the rest of it accept. -/
theorem refusal_eq_true {x : Except ε Bool} :
    (if c then .ok false else x) = .ok true ↔ ¬c ∧ x = .ok true := by
  by_cases h : c <;> simp [h]

/-- A chain lets through what its first gate and the rest of it let through. -/
theorem gate_eq_none {r : α} {x : Except ε (Option α)} :
    (if c then .ok (some r) else x) = .ok none ↔ ¬c ∧ x = .ok none := by
  by_cases h : c <;> simp [h]

/-- A chain answers with the reason of its first gate, or with one of the rest. -/
theorem gate_eq_some {r r' : α} {x : Except ε (Option α)} :
    (if c then .ok (some r) else x) = .ok (some r') ↔ c ∧ r = r' ∨ ¬c ∧ x = .ok (some r') := by
  by_cases h : c <;> simp [h]

/-! ## Loops -/

/-- A loop relates its first to its last state by any reflexive, transitive relation that each of
its rounds respects. -/
theorem foldlM_rel {R : σ → σ → Prop} (hrefl : ∀ s, R s s)
    (htrans : ∀ {s₁ s₂ s₃}, R s₁ s₂ → R s₂ s₃ → R s₁ s₃) {step : σ → α → Except ε σ} :
    ∀ {l : List α} {s s' : σ}, (∀ a ∈ l, ∀ {s₁ s₂}, step s₁ a = .ok s₂ → R s₁ s₂) →
      l.foldlM step s = .ok s' → R s s'
  | [], s, s', _, h => by
    simp only [List.foldlM_nil, return_ok] at h
    exact h ▸ hrefl s
  | a :: l, s, s', hstep, h => by
    rw [List.foldlM_cons] at h
    obtain ⟨s₁, h₁, h₂⟩ := bind_eq_ok.mp h
    exact htrans (hstep a List.mem_cons_self h₁)
      (foldlM_rel hrefl htrans (fun b hb => hstep b (.tail _ hb)) h₂)

/-- An invariant of a state and the rounds still to come holds when none are left. -/
theorem foldlM_rest {step : σ → α → Except ε σ} (I : List α → σ → Prop)
    (hstep : ∀ {a l s s'}, I (a :: l) s → step s a = .ok s' → I l s') :
    ∀ {l : List α} {s s' : σ}, I l s → l.foldlM step s = .ok s' → I [] s'
  | [], s, s', hs, h => by
    simp only [List.foldlM_nil, return_ok] at h
    exact h ▸ hs
  | a :: l, s, s', hs, h => by
    rw [List.foldlM_cons] at h
    obtain ⟨s₁, h₁, h₂⟩ := bind_eq_ok.mp h
    exact foldlM_rest I hstep (hstep hs h₁) h₂

/-- A loop succeeds if its invariant lets every round succeed. -/
theorem foldlM_succeeds {step : σ → α → Except ε σ} (I : List α → σ → Prop)
    (hstep : ∀ {a l s}, I (a :: l) s → ∃ s', step s a = .ok s' ∧ I l s') :
    ∀ {l : List α} {s : σ}, I l s → ∃ s', l.foldlM step s = .ok s'
  | [], s, _ => ⟨s, rfl⟩
  | a :: l, s, hs => by
    obtain ⟨s₁, h₁, hs₁⟩ := hstep hs
    rw [List.foldlM_cons, h₁, ok_bind]
    exact foldlM_succeeds I hstep hs₁

/-- A loop whose rounds cannot fail. -/
theorem foldlM_ok (f : σ → α → σ) : ∀ (l : List α) (s : σ),
    l.foldlM (fun s a => (.ok (f s a) : Except ε σ)) s = .ok (l.foldl f s)
  | [], _ => rfl
  | a :: l, s => by
    rw [List.foldlM_cons, ok_bind, foldlM_ok f l]
    rfl

/-- A loop that collects one value per round collects as many as there are rounds. -/
theorem length_mapM : ∀ {l : List α} {l' : List β}, l.mapM f = .ok l' →
    l'.length = l.length
  | [], l', h => by
    simp only [List.mapM_nil, return_ok] at h
    rw [← h]
    rfl
  | a :: l, l', h => by
    simp only [List.mapM_cons, bind_eq_ok, return_ok] at h
    obtain ⟨b, -, bs, hbs, rfl⟩ := h
    simp [length_mapM hbs]

theorem mapM_succeeds : ∀ {l : List α}, (∀ a ∈ l, ∃ b, f a = .ok b) →
    ∃ l', l.mapM f = .ok l'
  | [], _ => ⟨[], rfl⟩
  | a :: l, h => by
    obtain ⟨b, hb⟩ := h a List.mem_cons_self
    obtain ⟨bs, hbs⟩ := mapM_succeeds fun x hx => h x (.tail _ hx)
    exact ⟨b :: bs, by rw [List.mapM_cons, hb, ok_bind, hbs]; rfl⟩

/-- Every round of such a loop succeeded, and its value was collected. -/
theorem mem_of_mapM : ∀ {l : List α} {l' : List β},
    l.mapM f = .ok l' → a ∈ l → ∃ b, f a = .ok b ∧ b ∈ l'
  | [], _, _, ha => by simp at ha
  | x :: l, l', h, ha => by
    simp only [List.mapM_cons, bind_eq_ok, return_ok] at h
    obtain ⟨y, hy, ys, hys, rfl⟩ := h
    rcases List.mem_cons.mp ha with rfl | ha
    · exact ⟨y, hy, List.mem_cons_self⟩
    · obtain ⟨b, hb, hmem⟩ := mem_of_mapM hys ha
      exact ⟨b, hb, List.mem_cons_of_mem y hmem⟩

/-- Every value that such a loop collected is the value of a round. -/
theorem exists_of_mem_mapM : ∀ {l : List α} {l' : List β},
    l.mapM f = .ok l' → b ∈ l' → ∃ a ∈ l, f a = .ok b
  | [], l', h, hb => by
    obtain rfl := Except.ok.inj h
    simp at hb
  | x :: l, l', h, hb => by
    simp only [List.mapM_cons, bind_eq_ok, return_ok] at h
    obtain ⟨y, hy, ys, hys, rfl⟩ := h
    rcases List.mem_cons.mp hb with rfl | hb
    · exact ⟨x, List.mem_cons_self, hy⟩
    · obtain ⟨a, ha, hf⟩ := exists_of_mem_mapM hys hb
      exact ⟨a, List.mem_cons_of_mem x ha, hf⟩

/-- What the rounds keep is kept in the order of the rounds. -/
theorem map_of_mapM {γ : Type u} {g : β → γ} {k : α → γ}
    (hf : ∀ {a b}, f a = .ok b → g b = k a) : ∀ {l : List α} {l' : List β},
    l.mapM f = .ok l' → l'.map g = l.map k
  | [], l', h => by
    obtain rfl := Except.ok.inj h
    rfl
  | x :: l, l', h => by
    simp only [List.mapM_cons, bind_eq_ok, return_ok] at h
    obtain ⟨y, hy, ys, hys, rfl⟩ := h
    rw [List.map_cons, List.map_cons, hf hy, map_of_mapM hf hys]

end Fallible
