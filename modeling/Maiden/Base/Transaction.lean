import Mathlib.Logic.Basic
import Mathlib.Tactic.Common

/-!
# Transactions that do not nest

A database session in which `transaction` *always* opens a transaction of its own, on the
store as it is committed, also when another one is open. The writes of a transaction are
pending until it ends; they are committed when it returns and forgotten when it throws.

A computation is a state passer over a `Session`: the committed store, the pending writes
of the innermost open transaction, and how many writes were tried so far, so that a fault
can be injected at any of them.

- `read`, `write`, `transaction`: what a computation can do;
- `Direct`: a computation that commits nothing itself. A transaction around it is
  all-or-nothing (`transaction_error`);
- `Autonomous`: a computation that leaves nothing pending, such as a transaction or a
  sequence of them. A transaction around it adds *nothing* (`Autonomous.bind`), so that it
  is no longer all-or-nothing;
- `Keeps`: a computation that leaves a part of the store alone;
- `fetch`, `commit`: a single query or write in a transaction of its own (`bind_fetch`,
  `commit_eq`).
-/

namespace Maiden

universe u v w

/-- The state of a database session. -/
structure Session (S : Type u) where
  committed : S
  /-- The pending writes of the open transaction, as what they will do to the store. -/
  pending : S → S
  /-- How many writes were tried. -/
  writes : Nat

/-- A computation with a store `S` that may throw. -/
abbrev Tx (S : Type u) (ε : Type v) (α : Type w) : Type (max u v w) :=
  Session S → Session S × Except ε α

namespace Tx

variable {S : Type u} {ε : Type v} {α β : Type w}

/-- Returns without touching the store. -/
def pure (a : α) : Tx S ε α := fun s => (s, .ok a)

/-- Throws without touching the store. -/
def throw (e : ε) : Tx S ε α := fun s => (s, .error e)

/-- One computation after the other; an exception skips the rest. -/
def bind (m : Tx S ε α) (f : α → Tx S ε β) : Tx S ε β := fun s =>
  match m s with
  | (s', .ok a) => f a s'
  | (s', .error e) => (s', .error e)

/-- A query sees the committed store and the writes of its own transaction. -/
def read (q : S → α) : Tx S ε α := fun s => (s, .ok (q (s.pending s.committed)))

/-- A write, which the database may refuse, and which throws `fault` when its number is
among the faulty ones. -/
def write (faulty : Nat → Bool) (fault : ε) (f : S → Except ε (S × α)) : Tx S ε α := fun s =>
  if faulty s.writes then ({ s with writes := s.writes + 1 }, .error fault)
  else
    match f (s.pending s.committed) with
    | .error e => ({ s with writes := s.writes + 1 }, .error e)
    | .ok (_, a) =>
      ({ s with
          pending := fun c => match f (s.pending c) with
            | .ok (c', _) => c'
            | .error _ => s.pending c
          writes := s.writes + 1 }, .ok a)

/-- A transaction of its own around a computation. -/
def transaction (m : Tx S ε α) : Tx S ε α := fun s =>
  match m { s with pending := id } with
  | (s', .ok a) => ({ s' with committed := s'.pending s'.committed, pending := s.pending }, .ok a)
  | (s', .error e) => ({ s' with pending := s.pending }, .error e)

/-- A call from outside, on a store. -/
def run (m : Tx S ε α) (c : S) : Session S × Except ε α := m ⟨c, id, 0⟩

/-- The store that a call leaves, and its result. -/
def outcome (m : Tx S ε α) (c : S) : S × Except ε α := ((run m c).1.committed, (run m c).2)

/-- What is done with a result does not touch the store. -/
theorem bind_pure (m : Tx S ε α) (g : α → β) (s : Session S) :
    bind m (fun a => pure (g a)) s = ((m s).1, (m s).2.map g) := by
  unfold bind
  cases m s with
  | mk s' r => cases r <;> rfl

/-- An exception is not caught by what is done with a result. -/
theorem error_of_map {r : Except ε α} {g : α → β} {e : ε} (h : r.map g = .error e) :
    r = .error e := by
  cases r with
  | ok a => cases h
  | error e' =>
    cases h
    rfl

/-! ## Transactions of direct writes -/

/-- The computation commits nothing. -/
def Direct (m : Tx S ε α) : Prop := ∀ s, (m s).1.committed = s.committed

theorem direct_write (faulty : Nat → Bool) (fault : ε) (f : S → Except ε (S × α)) :
    Direct (write faulty fault f) := by
  intro s
  unfold write
  split
  · rfl
  · split <;> rfl

/-- **All or nothing**: when a transaction of direct writes throws, the store is as before. -/
theorem transaction_error {m : Tx S ε α} (hm : Direct m) {s : Session S} {e : ε}
    (h : (transaction m s).2 = .error e) : (transaction m s).1.committed = s.committed := by
  have hdirect := hm { s with pending := id }
  unfold transaction at h ⊢
  split at h
  · cases h
  · next hms =>
    rw [hms] at hdirect
    exact hdirect

/-! ## Transactions of transactions -/

/-- The computation neither looks at what is pending nor changes it. -/
def Autonomous (m : Tx S ε α) : Prop :=
  ∀ (s : Session S) (p : S → S),
    m { s with pending := p } = ({ (m s).1 with pending := p }, (m s).2)

theorem autonomous_pure (a : α) : Autonomous (pure a : Tx S ε α) := fun _ _ => rfl

theorem autonomous_transaction (m : Tx S ε α) : Autonomous (transaction m) := by
  intro s p
  unfold transaction
  dsimp only
  cases m { s with pending := id } with
  | mk s' r => cases r <;> rfl

theorem Autonomous.pending {m : Tx S ε α} (hm : Autonomous m) (s : Session S) :
    (m s).1.pending = s.pending :=
  congrArg (fun r => r.1.pending) (hm s s.pending)

theorem Autonomous.bind {m : Tx S ε α} {f : α → Tx S ε β} (hm : Autonomous m)
    (hf : ∀ a, Autonomous (f a)) : Autonomous (Tx.bind m f) := by
  intro s p
  unfold Tx.bind
  rw [hm s p]
  cases m s with
  | mk s' r =>
    cases r with
    | ok a => exact hf a s' p
    | error e => rfl

/-- **A transaction around transactions adds nothing.** Each of them commits at its own end, so
when the outer one throws there is nothing left to roll back. -/
theorem Autonomous.transaction_eq {m : Tx S ε α} (hm : Autonomous m) : transaction m = m := by
  funext s
  have hpending := hm.pending s
  unfold transaction
  rw [hm s id]
  cases hms : m s with
  | mk s' r =>
    rw [hms] at hpending
    cases r with
    | ok a =>
      show (({ s' with committed := s'.committed, pending := s.pending } : Session S), _) = _
      rw [← hpending]
    | error e =>
      show (({ s' with pending := s.pending } : Session S), _) = _
      rw [← hpending]

/-! ## Frames -/

/-- The computation leaves a part of the store as it is. -/
def Keeps {γ : Type u} (part : S → γ) (m : Tx S ε α) : Prop :=
  ∀ s, part (m s).1.committed = part s.committed

theorem keeps_pure {γ : Type u} (part : S → γ) (a : α) : Keeps part (pure a : Tx S ε α) :=
  fun _ => rfl

theorem Keeps.bind {γ : Type u} {part : S → γ} {m : Tx S ε α} {f : α → Tx S ε β}
    (hm : Keeps part m) (hf : ∀ a, Keeps part (f a)) : Keeps part (Tx.bind m f) := by
  intro s
  have hfirst := hm s
  unfold Tx.bind
  split
  · next s' a hs' =>
    rw [hs'] at hfirst
    exact (hf a s').trans hfirst
  · next hs' =>
    rw [hs'] at hfirst
    exact hfirst

/-! ## A transaction for each write -/

/-- A query in a transaction of its own. -/
def fetch (q : S → α) : Tx S ε α := transaction (read q)

/-- A write in a transaction of its own. -/
def commit (faulty : Nat → Bool) (fault : ε) (f : S → Except ε (S × α)) : Tx S ε α :=
  transaction (write faulty fault f)

theorem autonomous_fetch (q : S → α) : Autonomous (fetch q : Tx S ε α) := autonomous_transaction _

theorem autonomous_commit (faulty : Nat → Bool) (fault : ε) (f : S → Except ε (S × α)) :
    Autonomous (commit faulty fault f) :=
  autonomous_transaction _

/-- A query goes on with what is committed. -/
theorem bind_fetch (q : S → α) (f : α → Tx S ε β) (s : Session S) :
    bind (fetch q) f s = f (q s.committed) s := rfl

/-- A write of its own that throws leaves the store as it was. -/
theorem commit_error {faulty : Nat → Bool} {fault e : ε} {f : S → Except ε (S × α)}
    {s : Session S} (h : (commit faulty fault f s).2 = .error e) :
    (commit faulty fault f s).1.committed = s.committed :=
  transaction_error (direct_write faulty fault f) h

/-- What a write of its own does: it is committed at once. -/
theorem commit_eq (faulty : Nat → Bool) (fault : ε) (f : S → Except ε (S × α)) (s : Session S) :
    commit faulty fault f s =
      if faulty s.writes then ({ s with writes := s.writes + 1 }, .error fault)
      else
        match f s.committed with
        | .error e => ({ s with writes := s.writes + 1 }, .error e)
        | .ok (c, a) => ({ s with committed := c, writes := s.writes + 1 }, .ok a) := by
  unfold commit transaction write
  by_cases hfault : faulty s.writes = true
  · simp only [hfault, if_true]
  · simp only [hfault]
    cases hf : f s.committed with
    | error e => simp [hf]
    | ok r => simp [hf]

end Tx

end Maiden
