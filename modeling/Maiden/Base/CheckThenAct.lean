import Maiden.Base.Run
import Maiden.Base.Table
import Mathlib.Data.List.Nodup

/-!
# Check, then act

A request wants one row for each value of some columns, the *key* here. It looks in one
transaction whether there is such a row, and writes in a second one: an insert if it found
none, an update of the row that it found otherwise. Requests run at the same time, so between
the two transactions of one there may be any number of others.

`Protocol` says what a kind of request reads and writes, `Protocol.step` runs its transactions
in any order. One after the other they keep one row per key, as far as a request looks for the
key under which it inserts (`nodup_calls`). An update never changes a key (`Tracked`), so that
with other transactions in between, a table has one row per key throughout a run exactly when
every insert finds its key still absent (`oneRow_iff`).
-/

namespace Maiden.CheckThenAct

universe u v w

open Keyed

/-- What a request will write. The row is completed when it is written. -/
inductive Write (α : Type u) where
  | insert (row : Int → α)
  | update (row : Int → α)

/-- A kind of request. -/
structure Protocol (Req : Type u) (α : Type v) (K : Type w) [Keyed α] where
  /-- The key of a row. -/
  column : α → K
  /-- The database accepts the row. -/
  fits : α → Bool
  /-- The read transaction: what it makes the request write. -/
  check : Req → Table α → Option (Write α)
  column_withKey : ∀ a k, column (withKey a k) = column a
  /-- A row that was found is written back under its id and key. -/
  check_update : ∀ req tb row, check req tb = some (.update row) →
    ∃ old ∈ tb.rows, ∀ now, key (row now) = key old ∧ column (row now) = column old

/-- The table, and the writes that requests are about to make. -/
structure State (α : Type u) [Keyed α] where
  table : Table α
  pending : List (Write α)

/-- A transaction: the read of a new request, or the write of a pending one. -/
inductive Access (Req : Type u) where
  | read (req : Req)
  | commit (task : Nat) (now : Int)

variable {Req : Type u} {α : Type v} {K : Type w} [Keyed α] (P : Protocol Req α K)

/-- The write transaction; a refused row changes nothing. -/
def Protocol.commit (tb : Table α) (now : Int) : Write α → Table α
  | .insert row => if P.fits (row now) then tb.insert (row now) else tb
  | .update row => if P.fits (row now) then tb.update (row now) else tb

/-- One transaction. -/
def Protocol.step (s : State α) : Access Req → Option (State α)
  | .read req => some { s with pending := s.pending ++ (P.check req s.table).toList }
  | .commit task now =>
    match s.pending[task]? with
    | none => none
    | some w => some ⟨P.commit s.table now w, s.pending.eraseIdx task⟩

/-- A request whose two transactions follow each other. -/
def Protocol.call (tb : Table α) (now : Int) (req : Req) : Table α :=
  match P.check req tb with
  | none => tb
  | some w => P.commit tb now w

/-- No two rows have the same key. -/
def Protocol.OneRow (s : State α) : Prop := (s.table.rows.map P.column).Nodup

/-- An insert that is not refused finds its key absent. -/
def Protocol.StillAbsent (s : State α) : Access Req → Prop
  | .read _ => True
  | .commit task now =>
    match s.pending[task]? with
    | some (.insert row) =>
      P.fits (row now) = true → P.column (row now) ∉ s.table.rows.map P.column
    | _ => True

instance decidableStillAbsent [DecidableEq K] (s : State α) :
    ∀ l, Decidable (P.StillAbsent s l)
  | .read _ => .isTrue trivial
  | .commit task now =>
    match h : s.pending[task]? with
    | some (.insert row) => decidable_of_iff
        (P.fits (row now) = true → P.column (row now) ∉ s.table.rows.map P.column)
        (by simp only [Protocol.StillAbsent, h])
    | some (.update _) => .isTrue (by simp only [Protocol.StillAbsent, h])
    | none => .isTrue (by simp only [Protocol.StillAbsent, h])

/-- The row that an update is about to replace is in the table, with the update's key. -/
def Protocol.Tracked (tb : Table α) : Write α → Prop
  | .insert _ => True
  | .update row =>
    ∃ old ∈ tb.rows, ∀ now, key (row now) = key old ∧ P.column (row now) = P.column old

section

variable {P} {s s' : State α} {tb : Table α} {now : Int} {w : Write α}

theorem tracked_of_check {req : Req} (h : P.check req tb = some w) : P.Tracked tb w := by
  cases w with
  | insert row => trivial
  | update row => exact P.check_update req tb row h

/-- A call is a run of its transactions. -/
theorem exec_call (req : Req) : Run.exec P.step ⟨tb, []⟩
    (.read req :: (P.check req tb).toList.map fun _ => .commit 0 now) =
      some ⟨P.call tb now req, []⟩ := by
  unfold Protocol.call
  rw [Run.exec, Protocol.step]
  cases hcheck : P.check req tb with
  | none => rfl
  | some w => rfl

/-- The keys after an insert. -/
theorem map_column_insert (a : α) :
    (tb.insert a).rows.map P.column = tb.rows.map P.column ++ [P.column a] := by
  show (tb.rows ++ [withKey a tb.nextKey]).map P.column = _
  rw [List.map_append, List.map_singleton, P.column_withKey]

/-- An update changes no key. -/
theorem map_column_update {row : Int → α} (h : P.Tracked tb (.update row)) :
    (tb.update (row now)).rows.map P.column = tb.rows.map P.column := by
  obtain ⟨old, hold, hrow⟩ := h
  refine Table.map_replaceRow P.column fun r hr hkey => ?_
  rw [Table.eq_of_key_eq hr hold (hkey.trans (hrow now).1), (hrow now).2]

/-- A write keeps one row per key exactly when it inserts no key that is there. An update cannot do
harm: the row it was read from still has the key. -/
theorem nodup_commit (h : P.Tracked tb w) (hone : (tb.rows.map P.column).Nodup) :
    ((P.commit tb now w).rows.map P.column).Nodup ↔
      ∀ row, w = .insert row → P.fits (row now) = true →
        P.column (row now) ∉ tb.rows.map P.column := by
  cases w with
  | insert row =>
    rw [Protocol.commit]
    by_cases hfits : P.fits (row now) = true
    · rw [if_pos hfits, map_column_insert, ← List.concat_eq_append, List.nodup_concat,
        and_iff_left hone]
      constructor
      · rintro hno _ heq -
        cases heq
        exact hno
      · exact fun hno => hno row rfl hfits
    · -- a refused row is not inserted, whatever its key
      rw [if_neg hfits]
      refine iff_of_true hone ?_
      rintro _ heq hyes
      cases heq
      exact absurd hyes hfits
  | update row =>
    refine iff_of_true ?_ fun _ heq => nomatch heq
    rw [Protocol.commit]
    split
    · rw [map_column_update h]
      exact hone
    · exact hone

/-- The request inserts a row only if it has seen none with the row's key. -/
def Protocol.Looks (P : Protocol Req α K) (req : Req) : Prop :=
  ∀ tb row, P.check req tb = some (.insert row) → ∀ now, P.column (row now) ∉ tb.rows.map P.column

/-- **Without anything in between**, a request keeps one row per key, provided its check looks for
the key that it then inserts. -/
theorem nodup_call (hone : (tb.rows.map P.column).Nodup) {req : Req} (hlooks : P.Looks req) :
    ((P.call tb now req).rows.map P.column).Nodup := by
  unfold Protocol.call
  cases hcheck : P.check req tb with
  | none => exact hone
  | some w =>
    refine (nodup_commit (tracked_of_check hcheck) hone).mpr ?_
    rintro row rfl -
    exact hlooks tb row hcheck now

/-- Requests one after the other keep one row per key. -/
theorem nodup_calls {calls : List (Req × Int)} (hlooks : ∀ c ∈ calls, P.Looks c.1) :
    ∀ {tb : Table α}, (tb.rows.map P.column).Nodup →
      ((calls.foldl (fun tb c => P.call tb c.2 c.1) tb).rows.map P.column).Nodup := by
  induction calls with
  | nil => exact fun h => h
  | cons c calls ih =>
    intro tb h
    exact ih (fun c' hc' => hlooks c' (List.mem_cons_of_mem c hc'))
      (nodup_call h (hlooks c List.mem_cons_self))

/-- A write keeps every row's id and key. An update that comes late writes other columns of the row
that it was read from, which is why it cannot make two rows of one key. -/
theorem exists_row_commit (h : P.Tracked tb w) {r : α} (hr : r ∈ tb.rows) :
    ∃ r' ∈ (P.commit tb now w).rows, key r' = key r ∧ P.column r' = P.column r := by
  cases w with
  | insert row =>
    rw [Protocol.commit]
    split
    · exact ⟨r, Table.mem_insert.mpr (Or.inl hr), rfl, rfl⟩
    · exact ⟨r, hr, rfl, rfl⟩
  | update row =>
    obtain ⟨old, hold, hrow⟩ := h
    rw [Protocol.commit]
    split
    · by_cases hkey : key r = key (row now)
      · refine ⟨row now, Table.mem_update.mpr (Or.inl ⟨rfl, r, hr, hkey⟩), hkey.symm, ?_⟩
        rw [Table.eq_of_key_eq hr hold (hkey.trans (hrow now).1), (hrow now).2]
      · exact ⟨r, Table.mem_update.mpr (Or.inr ⟨hr, hkey⟩), rfl, rfl⟩
    · exact ⟨r, hr, rfl, rfl⟩

/-- A write that is tracked stays so when another one is made. -/
theorem Tracked.commit {w' : Write α} (h : P.Tracked tb w) (h' : P.Tracked tb w') :
    P.Tracked (P.commit tb now w) w' := by
  cases w' with
  | insert row => trivial
  | update row =>
    obtain ⟨old, hold, hrow⟩ := h'
    obtain ⟨r', hr', hkey, hcolumn⟩ := exists_row_commit h hold
    exact ⟨r', hr', fun now => ⟨(hrow now).1.trans hkey.symm, (hrow now).2.trans hcolumn.symm⟩⟩

/-- One transaction keeps all writes tracked: the row that an update is for was there when it was
read, and nothing deletes rows. -/
theorem tracked_step {l : Access Req} (hstep : P.step s l = some s')
    (h : ∀ w ∈ s.pending, P.Tracked s.table w) : ∀ w ∈ s'.pending, P.Tracked s'.table w := by
  cases l with
  | read req =>
    cases hstep
    intro w hw
    rcases List.mem_append.mp hw with hw | hw
    · exact h w hw
    · exact tracked_of_check (Option.mem_toList.mp hw)
  | commit task now =>
    unfold Protocol.step at hstep
    dsimp only at hstep
    split at hstep
    · cases hstep
    · next w hw =>
      cases hstep
      intro w' hw'
      have hmem : w' ∈ s.pending := List.mem_of_mem_eraseIdx hw'
      exact Tracked.commit (h w (List.mem_of_getElem? hw)) (h w' hmem)

/-- **One transaction** keeps one row per key exactly when its insert finds the key absent. The
check came in an earlier transaction, and others may have been committed since. -/
theorem oneRow_step {l : Access Req} (hstep : P.step s l = some s')
    (htracked : ∀ w ∈ s.pending, P.Tracked s.table w) (h : P.OneRow s) :
    P.OneRow s' ↔ P.StillAbsent s l := by
  cases l with
  | read req =>
    cases hstep
    exact iff_of_true h trivial
  | commit task now =>
    unfold Protocol.step at hstep
    dsimp only at hstep
    split at hstep
    · cases hstep
    · next w hw =>
      cases hstep
      refine (nodup_commit (htracked w (List.mem_of_getElem? hw)) h).trans ?_
      dsimp only [Protocol.StillAbsent]
      rw [hw]
      cases w with
      | insert row =>
        constructor
        · exact fun hno => hno row rfl
        · rintro hno _ heq
          cases heq
          exact hno
      | update row => exact iff_of_true (fun _ heq => nomatch heq) trivial

/-- **When a table has one row per key throughout**: in every interleaving of reads and writes,
from every table that has, exactly when every insert finds its key absent. -/
theorem oneRow_iff (P : Protocol Req α K) {tb : Table α} (h : (tb.rows.map P.column).Nodup)
    (run : List (Access Req)) :
    Run.Throughout P.step P.OneRow ⟨tb, []⟩ run ↔ Run.Meets P.step P.StillAbsent ⟨tb, []⟩ run := by
  refine Run.throughout_iff_meets (I := fun s => ∀ w ∈ s.pending, P.Tracked s.table w)
    (D := fun _ _ => True) ?_ ?_ (fun w hw => nomatch hw) h
    (Run.meets_of_forall (fun _ _ _ => trivial) _)
  · exact fun s l s' hstep _ htracked => tracked_step hstep htracked
  · exact fun s l s' hstep _ htracked hone => oneRow_step hstep htracked hone

end

end Maiden.CheckThenAct
