import Mathlib.Logic.Basic

/-!
# Processes that crash

A process works on a durable part `δ` (files, a database) and on a memory `μ` that a crash loses. A
program of it is a tree of atomic operations: it reads both parts, writes to the durable one or
changes the memory. `Prog.run` executes it to its end, and `Prog.cut n` stops it after at most `n`
durable writes and keeps only what they left behind; a program that is not stopped is one that is cut
late enough (`Prog.cut_of_writes_le`). A `Machine` has one program for each command it serves; its
events are a command that runs to its end, one that a crash interrupts, and a restart.
-/

/-- A program of atomic operations that returns an `α`. -/
inductive Prog (δ μ α : Type) where
  | pure (a : α)
  | read (k : δ → μ → Prog δ μ α)
  | write (f : δ → δ) (p : Prog δ μ α)
  | note (f : μ → μ) (p : Prog δ μ α)

namespace Prog

variable {δ μ α β : Type}

/-- Sequential composition. -/
protected def bind : Prog δ μ α → (α → Prog δ μ β) → Prog δ μ β
  | .pure a, k => k a
  | .read r, k => .read fun d m => (r d m).bind k
  | .write f p, k => .write f (p.bind k)
  | .note f p, k => .note f (p.bind k)

instance : Monad (Prog δ μ) where
  pure := .pure
  bind := .bind

/-- Read the durable part. -/
def disk : Prog δ μ δ := .read fun d _ => .pure d

/-- One durable write. -/
def store (f : δ → δ) : Prog δ μ Unit := .write f (.pure ())

/-- One change of the memory. -/
def remember (f : μ → μ) : Prog δ μ Unit := .note f (.pure ())

/-- Both parts after the whole program, and its answer. -/
def run : Prog δ μ α → δ → μ → (δ × μ) × α
  | .pure a, d, m => ((d, m), a)
  | .read k, d, m => (k d m).run d m
  | .write f p, d, m => p.run (f d) m
  | .note f p, d, m => p.run d (f m)

/-- The durable part that a crash leaves when it lets through at most `n` writes. -/
def cut : Prog δ μ α → Nat → δ → μ → δ
  | .pure _, _, d, _ => d
  | .read k, n, d, m => (k d m).cut n d m
  | .write _ _, 0, d, _ => d
  | .write f p, n + 1, d, m => p.cut n (f d) m
  | .note f p, n, d, m => p.cut n d (f m)

/-- The number of writes of the whole program. -/
def writes : Prog δ μ α → δ → μ → Nat
  | .pure _, _, _ => 0
  | .read k, d, m => (k d m).writes d m
  | .write f p, d, m => p.writes (f d) m + 1
  | .note f p, d, m => p.writes d (f m)

/-! ## Composition -/

@[simp] theorem pure_eq (a : α) : (Pure.pure a : Prog δ μ α) = .pure a := rfl

@[simp] theorem pure_bind' (a : α) (k : α → Prog δ μ β) : (Prog.pure a >>= k) = k a := rfl

@[simp] theorem disk_bind (k : δ → Prog δ μ β) : (disk >>= k) = .read fun d _ => k d := rfl

@[simp] theorem store_bind (f : δ → δ) (k : Unit → Prog δ μ β) :
    (store f >>= k) = .write f (k ()) := rfl

@[simp] theorem remember_bind (f : μ → μ) (k : Unit → Prog δ μ β) :
    (remember f >>= k) = .note f (k ()) := rfl

@[simp] theorem write_bind (f : δ → δ) (p : Prog δ μ α) (k : α → Prog δ μ β) :
    (Prog.write f p >>= k) = .write f (p >>= k) := rfl

/-! ## Crashes -/

/-- A crash that lets every write through leaves what the whole program leaves. -/
theorem cut_of_writes_le (p : Prog δ μ α) {n : Nat} {d : δ} {m : μ} (h : p.writes d m ≤ n) :
    p.cut n d m = (p.run d m).1.1 := by
  induction p generalizing n d m with
  | pure a => rfl
  | read k ih => exact ih d m h
  | write f p ih =>
    cases n with
    | zero => exact absurd h (Nat.not_succ_le_zero _)
    | succ n => exact ih (Nat.le_of_succ_le_succ h)
  | note f p ih => exact ih h

end Prog

/-- A process: the memory it starts with and the program of each command `ι`. -/
structure Machine (δ μ ι α : Type) where
  boot : μ
  prog : ι → Prog δ μ α

/-- What can happen to a process that serves one command at a time. -/
inductive Machine.Event (ι : Type) where
  /-- A command runs to its end. -/
  | call (c : ι)
  /-- A crash lets through at most `writes` writes of a command, and the process starts again. -/
  | crash (c : ι) (writes : Nat)
  /-- The process stops between two commands and starts again. -/
  | restart
  deriving DecidableEq, Repr

namespace Machine

variable {δ μ ι α : Type} (M : Machine δ μ ι α)

/-- Both parts after an event. -/
def next (s : δ × μ) : Event ι → δ × μ
  | .call c => ((M.prog c).run s.1 s.2).1
  | .crash c n => ((M.prog c).cut n s.1 s.2, M.boot)
  | .restart => (s.1, M.boot)

/-- The command that an event executes, wholly or in part. -/
def Event.command : Event ι → Option ι
  | .call c | .crash c _ => some c
  | .restart => none

/-- The number of writes that an event lets through, of a command with at most `most`. -/
def Event.writes (most : Nat) : Event ι → Nat
  | .call _ => most
  | .crash _ n => n
  | .restart => 0

/-- The durable part after an event is what its command leaves when it is cut there. -/
theorem next_eq_cut {s : δ × μ} {e : Event ι} {c : ι} {most : Nat} (hc : e.command = some c)
    (hmost : (M.prog c).writes s.1 s.2 ≤ most) :
    (M.next s e).1 = (M.prog c).cut (e.writes most) s.1 s.2 := by
  cases e with
  | call c' =>
    obtain rfl : c' = c := by simpa [Event.command] using hc
    exact ((M.prog c').cut_of_writes_le hmost).symm
  | crash c' n =>
    obtain rfl : c' = c := by simpa [Event.command] using hc
    rfl
  | restart => simp [Event.command] at hc

end Machine
