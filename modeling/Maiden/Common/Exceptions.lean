import Mathlib.Data.List.Forall2
import Mathlib.Tactic.Common

/-!
# Exceptions (`common/Exceptions.scala`)

How a request or a dispatch worker can end other than normally. The first group
are the API's own exceptions, which carry a text for the client; the second are
the `.get`, `.head` and map accesses of the models that throw when what they look
for is not there, named by what was missing.
-/

namespace Maiden

/-- Why a computation threw. -/
inductive Failure where
  -- the API's exceptions
  | unauthorized
  | noTrip
  | invalidRideState
  | alreadyHaveTrip
  | noUser
  | userAlreadyExists
  | invalidPassword
  | invalidEmail
  | invalidUserName
  | invalidPasswordResetCode
  -- lookups that found nothing
  | stop
  | vehicle
  | gps
  | osrm
  | geometry
  | schedule
  /-- The map published for a trip could not be built. -/
  | publish
  /-- A null reference was dereferenced. -/
  | nullPointer
  /-- The database refused the row (a unique column or a column's length). -/
  | rejected
  /-- Dropped because another element of the parallel loop threw. -/
  | aborted
deriving DecidableEq, Repr

namespace Failure

/-- The text the API sends (`Exceptions.scala:21–173`, `User.scala:334–371`). -/
def message : Failure → Option String
  | .unauthorized => some "UNAUTHORIZED"
  | .noTrip => some "The trip does not exist"
  | .invalidRideState => some "Invalid Ride State"
  | .alreadyHaveTrip => some "Already have ride"
  | .noUser => some "The user cannot be found"
  | .userAlreadyExists => some "The user already exists"
  | .invalidPassword => some "Invalid password"
  | .invalidEmail => some "Invalid email"
  | .invalidUserName => some "Invalid user name"
  | .invalidPasswordResetCode => some "The Password Reset Code Was Invalid"
  | _ => none

/-- The API's own exceptions. -/
def ofApi : List Failure :=
  [.unauthorized, .noTrip, .invalidRideState, .alreadyHaveTrip, .noUser, .userAlreadyExists,
   .invalidPassword, .invalidEmail, .invalidUserName, .invalidPasswordResetCode]

/-- The client can tell the API's exceptions apart by their texts. -/
theorem message_injective {e e' : Failure} (h : e.message = e'.message)
    (htext : e.message.isSome = true) : e = e' := by
  have hmem : ∀ f : Failure, f.message.isSome = true → f ∈ ofApi := by
    intro f hf
    cases f <;> first | decide | exact absurd hf (by decide)
  have htexts : ∀ f ∈ ofApi, ∀ f' ∈ ofApi, f.message = f'.message → f = f' := by decide
  exact htexts e (hmem e htext) e' (hmem e' (h ▸ htext)) h

end Failure

/-- `o.get`, throwing `f` on `None`. -/
def getOr {α : Type} (o : Option α) (f : Failure) : Except Failure α :=
  match o with
  | none => .error f
  | some a => .ok a

theorem getOr_eq_ok {α : Type} {o : Option α} {f : Failure} {a : α} :
    getOr o f = .ok a ↔ o = some a := by
  cases o with
  | none => simp [getOr]
  | some b => simp [getOr]

/-- A sequence of throwing computations returns when each of them does. -/
theorem bind_eq_ok {α β : Type} {x : Except Failure α} {f : α → Except Failure β} {b : β} :
    (x >>= f) = .ok b ↔ ∃ a, x = .ok a ∧ f a = .ok b := by
  show Except.bind x f = .ok b ↔ _
  rcases x with e | a
  · simp [Except.bind]
  · simp [Except.bind]

theorem map_eq_ok {α β : Type} {x : Except Failure α} {f : α → β} {b : β} :
    x.map f = .ok b ↔ ∃ a, x = .ok a ∧ f a = b := by
  rcases x with e | a
  · simp [Except.map]
  · simp [Except.map]

/-- `xs.map(f)` with a throwing `f`. -/
def mapE {α β : Type} (f : α → Except Failure β) : List α → Except Failure (List β)
  | [] => .ok []
  | x :: xs =>
    match f x with
    | .error e => .error e
    | .ok y =>
      match mapE f xs with
      | .error e => .error e
      | .ok ys => .ok (y :: ys)

/-- A throwing map returns when every element's computation does, and then with their results in
order. -/
theorem mapE_eq_ok {α β : Type} {f : α → Except Failure β} {xs : List α} {ys : List β} :
    mapE f xs = .ok ys ↔ List.Forall₂ (fun x y => f x = .ok y) xs ys := by
  induction xs generalizing ys with
  | nil => simp [mapE, eq_comm]
  | cons x xs ih =>
    unfold mapE
    cases hx : f x with
    | error e => cases ys <;> simp [hx]
    | ok y =>
      cases hxs : mapE f xs with
      | error e =>
        constructor
        · intro h
          cases h
        · rintro (_ | ⟨-, hrest⟩)
          rw [ih.mpr hrest] at hxs
          cases hxs
      | ok ys' =>
        constructor
        · intro h
          cases h
          exact .cons hx (ih.mp hxs)
        · rintro (_ | ⟨hy, hrest⟩)
          rw [ih.mpr hrest] at hxs
          rw [hx] at hy
          cases hxs
          cases hy
          rfl

theorem exists_mem_of_forall₂ {α β : Type} {R : α → β → Prop} {xs : List α} {ys : List β}
    (h : List.Forall₂ R xs ys) {x : α} (hx : x ∈ xs) : ∃ y ∈ ys, R x y := by
  induction h with
  | nil => exact nomatch hx
  | cons hxy _ ih =>
    rcases List.mem_cons.mp hx with rfl | hx
    · exact ⟨_, List.mem_cons_self, hxy⟩
    · obtain ⟨y, hy, hrel⟩ := ih hx
      exact ⟨y, List.mem_cons_of_mem _ hy, hrel⟩

/-- Each input of a throwing map has its output, and each output its input. -/
theorem exists_output {α β : Type} {f : α → Except Failure β} {xs : List α} {ys : List β}
    (h : mapE f xs = .ok ys) {x : α} (hx : x ∈ xs) : ∃ y ∈ ys, f x = .ok y :=
  exists_mem_of_forall₂ (mapE_eq_ok.mp h) hx

/-- Every result comes from an input. -/
theorem exists_input {α β : Type} {f : α → Except Failure β} {xs : List α} {ys : List β}
    (h : mapE f xs = .ok ys) {y : β} (hy : y ∈ ys) : ∃ x ∈ xs, f x = .ok y := by
  have hall : List.Forall₂ (fun y x => f x = .ok y) ys xs := (mapE_eq_ok.mp h).flip
  exact exists_mem_of_forall₂ hall hy

/-! ## What a computation can throw -/

/-- The computation throws nothing outside `E`. -/
def Throws (E : List Failure) {α : Type} (x : Except Failure α) : Prop :=
  ∀ e, x = .error e → e ∈ E

/-- What returns throws nothing. -/
theorem throws_ok (E : List Failure) {α : Type} (a : α) : Throws E (.ok a) :=
  fun _ h => nomatch h

/-- A lookup throws the failure it was given. -/
theorem throws_getOr {E : List Failure} {α : Type} (o : Option α) {f : Failure} (h : f ∈ E) :
    Throws E (getOr o f) := by
  intro e he
  cases o with
  | none =>
    cases he
    exact h
  | some a => cases he

/-- The second part need only be looked at for what the first one returns. -/
theorem Throws.bind {E : List Failure} {α β : Type} {x : Except Failure α}
    {f : α → Except Failure β} (hx : Throws E x) (hf : ∀ a, x = .ok a → Throws E (f a)) :
    Throws E (x >>= f) := by
  intro e he
  cases hxa : x with
  | error e' =>
    rw [hxa] at he
    cases he
    exact hx e hxa
  | ok a =>
    rw [hxa] at he
    exact hf a hxa e he

theorem Throws.map {E : List Failure} {α β : Type} {x : Except Failure α} (hx : Throws E x)
    (f : α → β) : Throws E (x.map f) := by
  intro e he
  cases hxa : x with
  | error e' =>
    rw [hxa] at he
    cases he
    exact hx e hxa
  | ok a =>
    rw [hxa] at he
    cases he

/-- A loop throws what one of its bodies throws. -/
theorem throws_mapE {E : List Failure} {α β : Type} {f : α → Except Failure β} {xs : List α}
    (h : ∀ x ∈ xs, Throws E (f x)) : Throws E (mapE f xs) := by
  induction xs with
  | nil => exact throws_ok E []
  | cons x xs ih =>
    intro e he
    unfold mapE at he
    cases hx : f x with
    | error e' =>
      rw [hx] at he
      cases he
      exact h x List.mem_cons_self e hx
    | ok y =>
      rw [hx] at he
      cases hxs : mapE f xs with
      | error e' =>
        rw [hxs] at he
        cases he
        exact ih (fun x' hx' => h x' (List.mem_cons_of_mem x hx')) e hxs
      | ok ys =>
        rw [hxs] at he
        cases he

/-- The same for a loop with an accumulator, whatever that has become. -/
theorem throws_foldlM {E : List Failure} {α β : Type} {f : β → α → Except Failure β}
    {xs : List α} (h : ∀ x ∈ xs, ∀ b, Throws E (f b x)) : ∀ b, Throws E (xs.foldlM f b) := by
  induction xs with
  | nil => exact throws_ok E
  | cons x xs ih =>
    intro b
    rw [List.foldlM_cons]
    exact (h x List.mem_cons_self b).bind fun b' _ =>
      ih (fun x' hx' => h x' (List.mem_cons_of_mem x hx')) b'

end Maiden
