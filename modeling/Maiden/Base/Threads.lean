import Maiden.Base.Run

/-!
# Threads that share a store

A thread is a computation that is cut where others may come in between: a tree of atomic steps,
each of which changes the store and goes on with what it saw there. What a thread has read stays
with it, in the rest of the tree, and may be out of date when it is used.

A `Pool` is a store with the threads that are under way. Its runs start threads and let one of
them take a turn, in any order. There are two rules about all of its runs.

- `exec_keeps`: an assertion that every thread keeps (`Keeps`) holds throughout. `Keeps` looks at
  one thread alone, with the store replaced by any other that meets the assertion at each step,
  and goes through a program as a Hoare triple does (`keeps_bind`, `keeps_fetch`, `keeps_commit`).
- `throughout_decided`: for a family of assertions `P i`, all of which hold at the start. All
  threads keep each of them, but for a single one, which may once do something that is right for
  only one `i` (`Decides`). Then one of the assertions holds throughout the run. This is how a
  name that is given out once stays with whoever got it.
-/

namespace Maiden.Threads

universe u v

/-- A computation with a store `S` that may throw, cut at its atomic steps. -/
inductive Thread (S ε α : Type u) where
  | ret (a : α)
  | throw (e : ε)
  /-- An atomic step: what it does to the store, and how it goes on from what the store was. -/
  | act (write : S → S) (next : S → Thread S ε α)

namespace Thread

variable {S ε α β γ : Type u}

/-- One thread after the other; an exception skips the rest. -/
def bind : Thread S ε α → (α → Thread S ε β) → Thread S ε β
  | .ret a, f => f a
  | .throw e, _ => .throw e
  | .act write next, f => .act write fun s => bind (next s) f

instance : Monad (Thread S ε) where
  pure := .ret
  bind := bind

/-- Code may be bracketed either way, which is the one monad law that proofs about threads need. -/
theorem bind_bind (t : Thread S ε α) (f : α → Thread S ε β) (g : β → Thread S ε γ) :
    t >>= f >>= g = t >>= fun a => f a >>= g := by
  show (t.bind f).bind g = t.bind fun a => (f a).bind g
  induction t with
  | ret a => rfl
  | throw e => rfl
  | act write next ih => exact congrArg (Thread.act write) (funext ih)

/-- A query. -/
def fetch (q : S → α) : Thread S ε α := .act id fun s => .ret (q s)

/-- What a computation without a store returns or throws. -/
def lift : Except ε α → Thread S ε α
  | .ok a => .ret a
  | .error e => .throw e

/-- The store after a write, which may be refused. -/
def written (f : S → Except ε (S × α)) (s : S) : S :=
  match f s with
  | .ok r => r.1
  | .error _ => s

/-- A transaction that goes through leaves its new store. -/
theorem written_ok {f : S → Except ε (S × α)} {s : S} {r : S × α} (h : f s = .ok r) :
    written f s = r.1 := by
  rw [written, h]

/-- A transaction that fails is rolled back. -/
theorem written_error {f : S → Except ε (S × α)} {s : S} {e : ε} (h : f s = .error e) :
    written f s = s := by
  rw [written, h]

/-- A write, which throws if it is refused. -/
def commit (f : S → Except ε (S × α)) : Thread S ε α :=
  .act (written f) fun s => lift ((f s).map Prod.snd)

/-- The whole thread without interruption. -/
def run : Thread S ε α → S → S × Except ε α
  | .ret a, s => (s, .ok a)
  | .throw e, s => (s, .error e)
  | .act write next, s => (next s).run (write s)

/-- It has returned, or thrown. -/
def ended : Thread S ε α → Bool
  | .act _ _ => false
  | _ => true

/-- What comes after a part that has returned runs on the store that the part has left. -/
theorem run_bind_ok {t : Thread S ε α} {f : α → Thread S ε β} {s s' : S} {a : α}
    (h : t.run s = (s', .ok a)) : (t >>= f).run s = (f a).run s' := by
  show (t.bind f).run s = _
  induction t generalizing s with
  | ret b =>
    cases h
    rfl
  | throw e => cases h
  | act write next ih => exact ih s h

/-- A part that throws ends the thread, and what it has written before stays written. -/
theorem run_bind_error {t : Thread S ε α} {f : α → Thread S ε β} {s s' : S} {e : ε}
    (h : t.run s = (s', .error e)) : (t >>= f).run s = (s', .error e) := by
  show (t.bind f).run s = _
  induction t generalizing s with
  | ret b => cases h
  | throw e' =>
    cases h
    rfl
  | act write next ih => exact ih s h

theorem run_fetch_bind (q : S → α) (f : α → Thread S ε β) (s : S) :
    (fetch q >>= f).run s = (f (q s)).run s := rfl

/-- A map of the result changes nothing about the steps. -/
theorem run_map (g : α → β) (t : Thread S ε α) (s : S) :
    (g <$> t).run s = ((t.run s).1, (t.run s).2.map g) := by
  show (t >>= fun a => pure (g a)).run s = _
  rcases h : t.run s with ⟨s', e | a⟩
  · rw [run_bind_error h]
    rfl
  · rw [run_bind_ok h]
    rfl

theorem run_commit_ok {f : S → Except ε (S × α)} {s s' : S} {a : α} (h : f s = .ok (s', a)) :
    (commit f).run s = (s', .ok a) := by
  show (lift ((f s).map Prod.snd)).run (written f s) = _
  rw [written_ok h, h]
  rfl

theorem run_commit_error {f : S → Except ε (S × α)} {s : S} {e : ε} (h : f s = .error e) :
    (commit f).run s = (s, .error e) := by
  show (lift ((f s).map Prod.snd)).run (written f s) = _
  rw [written_error h, h]
  rfl

/-- Where a thread is after `n` steps without interruption, if it has as many. -/
def steps : Nat → Thread S ε α → S → Option (S × Thread S ε α)
  | 0, t, s => some (s, t)
  | n + 1, .act write next, s => (next s).steps n (write s)
  | _ + 1, _, _ => none

theorem steps_fetch_bind (n : Nat) (q : S → α) (f : α → Thread S ε β) (s : S) :
    (fetch q >>= f).steps (n + 1) s = (f (q s)).steps n s := rfl

/-- A thread that goes on behind something that may throw, has not thrown. -/
theorem of_steps_lift_bind {r : Except ε α} {f : α → Thread S ε β} {n : Nat} {s : S}
    {q : S × Thread S ε β} (h : (lift r >>= f).steps (n + 1) s = some q) :
    ∃ a, r = .ok a ∧ (f a).steps (n + 1) s = some q := by
  cases r with
  | error e => cases h
  | ok a => exact ⟨a, rfl, h⟩

/-- A thread that has got past a transaction: the transaction went through, on the store that the
thread met at that point. -/
theorem of_steps_commit_bind {g : S → Except ε (S × α)} {f : α → Thread S ε β} {n : Nat} {s : S}
    {q : S × Thread S ε β} (h : (commit g >>= f).steps (n + 2) s = some q) :
    ∃ s' a, g s = .ok (s', a) ∧ (f a).steps (n + 1) s' = some q := by
  have h : (lift ((g s).map Prod.snd) >>= f).steps (n + 1) (written g s) = some q := h
  cases hg : g s with
  | error e =>
    rw [hg] at h
    cases h
  | ok r =>
    rw [hg, written_ok hg] at h
    exact ⟨r.1, r.2, rfl, h⟩

/-- A map of the result does not change where a thread stands after some steps. -/
theorem steps_map (g : α → β) (n : Nat) (t : Thread S ε α) (s : S) :
    (g <$> t).steps n s = (t.steps n s).map fun q => (q.1, g <$> q.2) := by
  induction n generalizing t s with
  | zero => rfl
  | succ n ih =>
    cases t with
    | ret a => rfl
    | throw e => rfl
    | act write next => exact ih (next s) (write s)

/-- A thread comes to its end. -/
theorem exists_steps_run (t : Thread S ε α) (s : S) :
    ∃ n, t.steps n s = some ((t.run s).1, lift (t.run s).2) := by
  induction t generalizing s with
  | ret a => exact ⟨0, rfl⟩
  | throw e => exact ⟨0, rfl⟩
  | act write next ih =>
    obtain ⟨n, hn⟩ := ih s (write s)
    exact ⟨n + 1, hn⟩

/-! ## What a thread keeps -/

/-- The thread keeps `I` with each of its steps, if the others do in between, and returns what
meets `Q`. -/
def Keeps (I : S → Prop) (Q : α → Prop) : Thread S ε α → Prop
  | .ret a => Q a
  | .throw _ => True
  | .act write next => ∀ s, I s → I (write s) ∧ Keeps I Q (next s)

section

variable {I : S → Prop} {Q : α → Prop}

/-- A thread that has ended writes nothing. -/
theorem keeps_of_ended {t : Thread S ε α} (h : t.ended = true) : t.Keeps I fun _ => True := by
  cases t with
  | ret a => trivial
  | throw e => trivial
  | act write next => cases h

/-- The rule of sequence: the second part may use what the first returns. -/
theorem keeps_bind {Q' : β → Prop} {t : Thread S ε α} {f : α → Thread S ε β}
    (ht : t.Keeps I Q) (hf : ∀ a, Q a → (f a).Keeps I Q') : (t >>= f).Keeps I Q' := by
  show (t.bind f).Keeps I Q'
  induction t with
  | ret a => exact hf a ht
  | throw e => trivial
  | act write next ih => exact fun s hs => ⟨(ht s hs).1, ih s (ht s hs).2⟩

/-- The rule for a map of the result. -/
theorem keeps_map {Q' : β → Prop} {t : Thread S ε α} {g : α → β} (ht : t.Keeps I Q)
    (hg : ∀ a, Q a → Q' (g a)) : (g <$> t).Keeps I Q' := by
  show (t >>= fun a => pure (g a)).Keeps I Q'
  exact keeps_bind ht hg

/-- What a query has seen was there while the assertion held. -/
theorem keeps_fetch {Q' : β → Prop} {q : S → α} {f : α → Thread S ε β}
    (h : ∀ s, I s → (f (q s)).Keeps I Q') : (fetch q >>= f).Keeps I Q' :=
  fun s hs => ⟨hs, h s hs⟩

/-- The rule for a check: it writes nothing, and what comes after it may use that it passed. -/
theorem keeps_lift {Q' : β → Prop} {r : Except ε α} {f : α → Thread S ε β}
    (h : ∀ a, r = .ok a → (f a).Keeps I Q') : (lift r >>= f).Keeps I Q' := by
  cases r with
  | ok a => exact h a rfl
  | error e => trivial

/-- The rule for a transaction. It need only be considered on stores where the assertion holds,
which is what other threads see to in the meantime. -/
theorem keeps_commit {f : S → Except ε (S × α)}
    (h : ∀ s s' a, I s → f s = .ok (s', a) → I s' ∧ Q a) : (commit f).Keeps I Q := by
  intro s hs
  dsimp only
  cases hf : f s with
  | error e =>
    rw [written_error hf]
    exact ⟨hs, trivial⟩
  | ok r =>
    rw [written_ok hf]
    exact h s r.1 r.2 hs hf

end

/-! ## What a thread decides -/

variable {ι : Type v}

/-- The thread leaves all of the assertions as they are, until it may do a step that keeps one
of them; from then on it keeps that one. -/
def Decides (P : ι → S → Prop) : Thread S ε α → Prop
  | .ret _ => True
  | .throw _ => True
  | .act write next => ∀ s, (∀ i, P i s) →
      ((∀ i, P i (write s)) ∧ Decides P (next s)) ∨
        ∃ i, P i (write s) ∧ (next s).Keeps (P i) fun _ => True

section

variable {P : ι → S → Prop}

/-- Deciding does not depend on the result. -/
theorem decides_map {t : Thread S ε α} {g : α → β} (ht : t.Decides P) : (g <$> t).Decides P := by
  show (t.bind fun a => .ret (g a)).Decides P
  induction t with
  | ret a => trivial
  | throw e => trivial
  | act write next ih =>
    intro s hs
    rcases ht s hs with ⟨hstore, hnext⟩ | ⟨i, hstore, hnext⟩
    · exact .inl ⟨hstore, ih s hnext⟩
    · exact .inr ⟨i, hstore, keeps_map hnext fun _ h => h⟩

/-- What keeps all of the assertions may come before the decision. -/
theorem decides_bind {t : Thread S ε α} {f : α → Thread S ε β}
    (ht : ∀ i, t.Keeps (P i) fun _ => True) (hf : ∀ a, (f a).Decides P) : (t >>= f).Decides P := by
  show (t.bind f).Decides P
  induction t with
  | ret a => exact hf a
  | throw e => trivial
  | act write next ih =>
    exact fun s hs => .inl ⟨fun i => (ht i s (hs i)).1, ih s fun i => (ht i s (hs i)).2⟩

/-- A query changes nothing. -/
theorem decides_fetch {q : S → α} {f : α → Thread S ε β}
    (h : ∀ s, (∀ i, P i s) → (f (q s)).Decides P) : (fetch q >>= f).Decides P :=
  fun s hs => .inl ⟨hs, h s hs⟩

/-- A check writes nothing, and one that fails ends the thread before it has decided. -/
theorem decides_lift {r : Except ε α} {f : α → Thread S ε β}
    (h : ∀ a, r = .ok a → (f a).Decides P) : (lift r >>= f).Decides P := by
  cases r with
  | ok a => exact h a rfl
  | error e => trivial

/-- The write that decides. -/
theorem decides_commit {g : S → Except ε (S × α)} {f : α → Thread S ε β}
    (h : ∀ s s' a, (∀ i, P i s) → g s = .ok (s', a) →
      ∃ i, P i s' ∧ (f a).Keeps (P i) fun _ => True) : (commit g >>= f).Decides P := by
  intro s hs
  dsimp only
  cases hg : g s with
  | error e =>
    rw [written_error hg]
    exact .inl ⟨hs, trivial⟩
  | ok r =>
    rw [written_ok hg]
    exact .inr (h s r.1 r.2 hs hg)

end

end Thread

/-! ## Many threads -/

open Thread

/-- A store and the threads that are under way. -/
structure Pool (S ε α : Type u) where
  store : S
  threads : List (Thread S ε α) := []

/-- What happens next: a request is taken up, or the thread with a number takes a turn. -/
inductive Move (R : Type v) where
  | start (r : R)
  | turn (i : Nat)

variable {S ε α : Type u} {R : Type v}

/-- The request that is taken up. -/
def Move.started : Move R → Option R
  | .start r => some r
  | .turn _ => none

/-- A turn of a thread that has ended is none. -/
def Pool.step (code : R → Thread S ε α) (p : Pool S ε α) : Move R → Option (Pool S ε α)
  | .start r => some { p with threads := p.threads ++ [code r] }
  | .turn i =>
    match p.threads[i]? with
    | some (.act write next) => some ⟨write p.store, p.threads.set i (next p.store)⟩
    | _ => none

variable {code : R → Thread S ε α} {p p' : Pool S ε α}

/-- A turn can only be taken by a thread that has something to do, and it takes that step on the
store that all threads share. -/
theorem Pool.step_turn {i : Nat} (h : p.step code (.turn i) = some p') :
    ∃ write next, p.threads[i]? = some (.act write next) ∧
      p' = ⟨write p.store, p.threads.set i (next p.store)⟩ := by
  cases hi : p.threads[i]? with
  | none =>
    rw [Pool.step, hi] at h
    cases h
  | some t =>
    rw [Pool.step, hi] at h
    cases t with
    | ret a => cases h
    | throw e => cases h
    | act write next => exact ⟨write, next, rfl, (Option.some.inj h).symm⟩

/-- The assertion holds, and what is under way keeps it. -/
structure Pool.Keeps (I : S → Prop) (p : Pool S ε α) : Prop where
  store : I p.store
  threads : ∀ t ∈ p.threads, t.Keeps I fun _ => True

/-- An assertion that every thread keeps, whatever it finds, is kept by each turn of any of
them. -/
theorem Pool.Keeps.step {I : S → Prop} {l : Move R} (hp : p.Keeps I)
    (hcode : ∀ r, l = .start r → (code r).Keeps I fun _ => True)
    (h : p.step code l = some p') : p'.Keeps I := by
  cases l with
  | start r =>
    cases h
    refine ⟨hp.store, fun t ht => ?_⟩
    rcases List.mem_append.mp ht with ht | ht
    · exact hp.threads t ht
    · -- the new thread is at its start, where its code is known to keep the assertion
      rw [List.mem_singleton.mp ht]
      exact hcode r rfl
  | turn i =>
    obtain ⟨write, next, hi, rfl⟩ := Pool.step_turn h
    have hturn := hp.threads _ (List.mem_of_getElem? hi) p.store hp.store
    refine ⟨hturn.1, fun t ht => ?_⟩
    rcases List.mem_or_eq_of_mem_set ht with ht | rfl
    · exact hp.threads t ht
    · exact hturn.2

/-- Nothing is under way. -/
def Pool.Idle (p : Pool S ε α) : Prop := ∀ t ∈ p.threads, t.ended = true

instance (p : Pool S ε α) : Decidable p.Idle :=
  inferInstanceAs (Decidable (∀ t ∈ p.threads, t.ended = true))

/-- Where nothing runs, an assertion about the store is all there is to keep. -/
theorem Pool.Idle.keeps {I : S → Prop} (h : p.Idle) (hp : I p.store) : p.Keeps I :=
  ⟨hp, fun t ht => keeps_of_ended (h t ht)⟩

/-- **Invariant rule.** What all threads keep that are running or will be started holds throughout
the run. It is enough to look at the code of each request by itself. -/
theorem exec_keeps {I : S → Prop} {run : List (Move R)} (hp : p.Keeps I)
    (hcode : ∀ r, .start r ∈ run → (code r).Keeps I fun _ => True) :
    Run.Throughout (Pool.step code) (fun s => I s.store) p run := by
  have hmeets : Run.Meets (Pool.step code)
      (fun _ l => ∀ r, l = .start r → (code r).Keeps I fun _ => True) p run := by
    refine Run.meets_of_forall (fun l hl _ r hr => ?_) p
    subst hr
    exact hcode r hl
  exact Run.throughout_of_meets (fun _ _ _ hstep hl hs => hs.step hl hstep) (fun s hs => hs.store)
    hp hmeets

/-! ## One thread among others -/

/-- Conversely, a thread with a step to take can take it at any time. -/
theorem Pool.step_turn_act {i : Nat} {write : S → S} {next : S → Thread S ε α}
    (h : p.threads[i]? = some (.act write next)) :
    p.step code (.turn i) = some ⟨write p.store, p.threads.set i (next p.store)⟩ := by
  rw [Pool.step, h]

/-- What the others do does not touch a thread. -/
theorem Pool.getElem?_step {k : Nat} {l : Move R} {t : Thread S ε α} (hl : l ≠ .turn k)
    (ht : p.threads[k]? = some t) (h : p.step code l = some p') : p'.threads[k]? = some t := by
  cases l with
  | start r =>
    cases h
    rw [List.getElem?_append_left (List.getElem?_eq_some_iff.mp ht).1]
    exact ht
  | turn i =>
    obtain ⟨write, next, -, rfl⟩ := Pool.step_turn h
    rw [List.getElem?_set_ne fun hik => hl (congrArg Move.turn hik)]
    exact ht

/-- A thread that gets no turn stays where it is. -/
theorem getElem?_exec {k : Nat} {run : List (Move R)} {t : Thread S ε α} (hrun : .turn k ∉ run)
    (ht : p.threads[k]? = some t) (h : Run.exec (Pool.step code) p run = some p') :
    p'.threads[k]? = some t := by
  have hmeets : Run.Meets (Pool.step code) (fun _ l => l ≠ .turn k) p run := by
    refine Run.meets_of_forall (fun l hl _ hlk => ?_) p
    subst hlk
    exact hrun hl
  exact Run.invariant_of_meets (fun _ _ _ hstep hl hs => Pool.getElem?_step hl hs hstep) ht hmeets h

theorem set_of_getElem? {l : List (Thread S ε α)} {k : Nat} {t : Thread S ε α}
    (h : l[k]? = some t) : l.set k t = l := by
  obtain ⟨hlt, rfl⟩ := List.getElem?_eq_some_iff.mp h
  exact List.set_getElem_self hlt

/-- A thread that gets all the turns takes its steps as if it were alone. This is how a run of the
pool is put together from runs of single threads. -/
theorem exec_replicate {k : Nat} (n : Nat) {t : Thread S ε α} :
    ∀ {p : Pool S ε α}, p.threads[k]? = some t →
      (Run.exec (Pool.step code) p (List.replicate n (.turn k)) = some p' ↔
        ∃ s t', t.steps n p.store = some (s, t') ∧ p' = ⟨s, p.threads.set k t'⟩) := by
  induction n generalizing t with
  | zero =>
    intro p ht
    constructor
    · intro h
      cases h
      exact ⟨p'.store, t, rfl, by rw [set_of_getElem? ht]⟩
    · rintro ⟨s, t', hsteps, rfl⟩
      cases hsteps
      rw [set_of_getElem? ht]
      rfl
  | succ n ih =>
    intro p ht
    rw [List.replicate_succ, Run.exec_cons]
    constructor
    · rintro ⟨m, hturn, h⟩
      obtain ⟨write, next, ht', rfl⟩ := Pool.step_turn hturn
      obtain rfl := Option.some.inj (ht.symm.trans ht')
      have hlt := (List.getElem?_eq_some_iff.mp ht).1
      obtain ⟨s, t', hsteps, rfl⟩ := (ih (List.getElem?_set_self hlt)).mp h
      exact ⟨s, t', hsteps, by rw [List.set_set]⟩
    · rintro ⟨s, t', hsteps, rfl⟩
      cases t with
      | ret a => cases hsteps
      | throw e => cases hsteps
      | act write next =>
        have hlt := (List.getElem?_eq_some_iff.mp ht).1
        refine ⟨_, Pool.step_turn_act ht, (ih (List.getElem?_set_self hlt)).mpr ?_⟩
        exact ⟨s, t', hsteps, by rw [List.set_set]⟩

/-- A request that is served without interruption does what its thread does alone. -/
theorem exists_exec_served (code : R → Thread S ε α) (r : R) (p : Pool S ε α) :
    ∃ n, Run.exec (Pool.step code) p (.start r :: List.replicate n (.turn p.threads.length)) =
      some ⟨((code r).run p.store).1, p.threads ++ [lift ((code r).run p.store).2]⟩ := by
  obtain ⟨n, hsteps⟩ := exists_steps_run (code r) p.store
  refine ⟨n, Run.exec_cons.mpr ⟨_, rfl, ?_⟩⟩
  refine (exec_replicate n List.getElem?_concat_length).mpr ⟨_, _, hsteps, ?_⟩
  rw [List.set_append_right _ _ (Nat.le_refl _), Nat.sub_self]
  rfl

/-! ## A single decision -/

variable {ι : Type*} {P : ι → S → Prop}

/-- Nothing is decided, and only the thread with the number `k` may decide it. -/
structure Pool.Open (P : ι → S → Prop) (k : Nat) (p : Pool S ε α) : Prop where
  store : ∀ i, P i p.store
  others : ∀ j t, j ≠ k → p.threads[j]? = some t → ∀ i, t.Keeps (P i) fun _ => True
  exists_decider : ∃ t, p.threads[k]? = some t ∧ t.Decides P

/-- A thread of the pool after a turn is the one that had it, or one of the others. -/
theorem getElem?_set_cases {l : List (Thread S ε α)} {i j : Nat} {t t' : Thread S ε α}
    (h : (l.set i t)[j]? = some t') : (j = i ∧ t' = t) ∨ (j ≠ i ∧ l[j]? = some t') := by
  by_cases hij : j = i
  · subst hij
    obtain ⟨hlt, -⟩ := List.getElem?_eq_some_iff.mp h
    rw [List.length_set] at hlt
    rw [List.getElem?_set_self hlt] at h
    exact .inl ⟨rfl, (Option.some.inj h).symm⟩
  · rw [List.getElem?_set_ne (Ne.symm hij)] at h
    exact .inr ⟨hij, h⟩

/-- A thread that keeps all of the assertions may start at any time. -/
theorem Pool.Open.start {k : Nat} {r : R} (hp : p.Open P k)
    (hcode : ∀ i, (code r).Keeps (P i) fun _ => True) :
    Pool.Open P k { p with threads := p.threads ++ [code r] } := by
  obtain ⟨d, hd, hdecides⟩ := hp.exists_decider
  refine ⟨hp.store, fun j t hj ht => ?_, d, ?_, hdecides⟩
  · rcases Nat.lt_or_ge j p.threads.length with hlt | hge
    · rw [List.getElem?_append_left hlt] at ht
      exact hp.others j t hj ht
    · rw [List.getElem?_append_right hge] at ht
      rw [List.mem_singleton.mp (List.mem_of_getElem? ht)]
      exact hcode
  · rw [List.getElem?_append_left (List.getElem?_eq_some_iff.mp hd).1]
    exact hd

/-- A turn leaves the pool open, or one of the assertions is kept from now on. It is the decider's
turn that can decide; a turn of another thread keeps all of the assertions, as it did before. -/
theorem Pool.Open.turn {k i : Nat} (hp : p.Open P k) (h : p.step code (.turn i) = some p') :
    p'.Open P k ∨ ∃ i, p'.Keeps (P i) := by
  obtain ⟨write, next, hi, rfl⟩ := Pool.step_turn h
  obtain ⟨d, hd, hdecides⟩ := hp.exists_decider
  by_cases hik : i = k
  · subst hik
    obtain rfl := Option.some.inj (hi.symm.trans hd)
    have hlt := (List.getElem?_eq_some_iff.mp hi).1
    rcases hdecides p.store hp.store with ⟨hstore, hnext⟩ | ⟨a, hstore, hnext⟩
    · refine .inl ⟨hstore, fun j t hj ht => ?_, next p.store, List.getElem?_set_self hlt, hnext⟩
      obtain ⟨hji, -⟩ | ⟨-, ht⟩ := getElem?_set_cases ht
      · exact absurd hji hj
      · exact hp.others j t hj ht
    · -- the others keep whatever has been decided
      refine .inr ⟨a, hstore, fun t ht => ?_⟩
      obtain ⟨j, hj⟩ := List.mem_iff_getElem?.mp ht
      obtain ⟨-, rfl⟩ | ⟨hji, hj⟩ := getElem?_set_cases hj
      · exact hnext
      · exact hp.others j t hji hj a
  · have hturn : ∀ a, P a (write p.store) ∧ (next p.store).Keeps (P a) fun _ => True := fun a =>
      hp.others i _ hik hi a p.store (hp.store a)
    refine .inl ⟨fun a => (hturn a).1, fun j t hj ht => ?_, d, ?_, hdecides⟩
    · obtain ⟨-, rfl⟩ | ⟨-, ht⟩ := getElem?_set_cases ht
      · exact fun a => (hturn a).2
      · exact hp.others j t hj ht
    · rw [List.getElem?_set_ne hik]
      exact hd

/-- The request starts a thread that `special` marks. -/
def Move.starts (special : R → Bool) : Move R → Bool
  | .start r => special r
  | .turn _ => false

section

variable [Nonempty ι] {special : R → Bool}
  (hneutral : ∀ r, special r = false → ∀ i, (code r).Keeps (P i) fun _ => True)

include hneutral

/-- The single decider is under way. Until it has decided all assertions hold, so that the one it
decides for has held all the time. -/
theorem Pool.Open.throughout {run : List (Move R)}
    (hrun : ∀ l ∈ run, l.starts special = false) {k : Nat} :
    ∀ {p : Pool S ε α}, p.Open P k →
      ∃ i, Run.Throughout (Pool.step code) (fun s => P i s.store) p run := by
  induction run with
  | nil => exact fun hp => ⟨Classical.arbitrary ι, hp.store _⟩
  | cons l run ih =>
    intro p hp
    have hrest : ∀ l' ∈ run, l'.starts special = false := fun l' hl' =>
      hrun l' (List.mem_cons_of_mem l hl')
    cases hstep : p.step code l with
    | none => exact ⟨Classical.arbitrary ι, (Run.throughout_cons_of_none hstep).mpr (hp.store _)⟩
    | some p' =>
      have hnext : ∃ i, Run.Throughout (Pool.step code) (fun s => P i s.store) p' run := by
        cases l with
        | start r =>
          cases hstep
          exact ih hrest (hp.start (hneutral r (hrun _ List.mem_cons_self)))
        | turn j =>
          rcases hp.turn hstep with hopen | ⟨i, hkeeps⟩
          · exact ih hrest hopen
          · -- decided: from here on it is an invariant like any other
            exact ⟨i, exec_keeps hkeeps fun r hr => hneutral r (hrest _ hr) i⟩
      obtain ⟨i, hi⟩ := hnext
      exact ⟨i, (Run.throughout_cons hstep).mpr ⟨hp.store i, hi⟩⟩

/-- **Decision rule.** Where all threads keep all of the assertions, and at most one that is
started may decide between them, one of the assertions holds throughout. -/
theorem throughout_decided (hspecial : ∀ r, special r = true → (code r).Decides P)
    {run : List (Move R)} (hrun : run.countP (Move.starts special) ≤ 1) :
    ∀ {p : Pool S ε α}, (∀ i, p.Keeps (P i)) →
      ∃ i, Run.Throughout (Pool.step code) (fun s => P i s.store) p run := by
  induction run with
  | nil => exact fun hp => ⟨Classical.arbitrary ι, (hp _).store⟩
  | cons l run ih =>
    intro p hp
    cases hstep : p.step code l with
    | none =>
      exact ⟨Classical.arbitrary ι, (Run.throughout_cons_of_none hstep).mpr (hp _).store⟩
    | some p' =>
      have hnext : ∃ i, Run.Throughout (Pool.step code) (fun s => P i s.store) p' run := by
        cases hl : l.starts special with
        | false =>
          rw [List.countP_cons_of_neg (by rw [hl]; exact Bool.false_ne_true)] at hrun
          refine ih hrun fun i => (hp i).step (fun r hr => ?_) hstep
          subst hr
          exact hneutral r hl i
        | true =>
          rw [List.countP_cons_of_pos hl] at hrun
          -- it is the last one of its kind
          have hrest : ∀ l' ∈ run, l'.starts special = false := by
            have hzero : run.countP (Move.starts special) = 0 := by omega
            intro l' hl'
            exact Bool.eq_false_iff.mpr (List.countP_eq_zero.mp hzero l' hl')
          cases l with
          | turn j => cases hl
          | start r =>
            cases hstep
            refine Pool.Open.throughout hneutral hrest (k := p.threads.length)
              ⟨fun i => (hp i).store, fun j t hj ht => ?_, code r, List.getElem?_concat_length,
                hspecial r hl⟩
            have hlt : j < p.threads.length := by
              have hle := (List.getElem?_eq_some_iff.mp ht).1
              rw [List.length_append, List.length_singleton] at hle
              omega
            rw [List.getElem?_append_left hlt] at ht
            exact fun i => (hp i).threads t (List.mem_of_getElem? ht)
      obtain ⟨i, hi⟩ := hnext
      exact ⟨i, (Run.throughout_cons hstep).mpr ⟨(hp i).store, hi⟩⟩

end

end Maiden.Threads
