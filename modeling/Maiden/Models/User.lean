import Maiden.Common.Exceptions
import Maiden.Models.FriendlyId

/-!
# Users (`data/models/User.scala`)

The Users table and the lookups on it. `UserHelper` (`User.scala:19–49`) is how the API
finds a user from what stands in a URL, which may be an id or a friendly id: it tries
to read a number first and falls back to the FriendlyIds table on *any* exception, so
also when the number is the id of a deactivated user.
-/

namespace Maiden

/-- A row of the Users table (`User.scala:59–73`); `user_name` and `email` are not null. -/
structure User where
  id : Int := 0
  userName : JString := []
  password : JString := []
  email : JString := []
  accessToken : JString := []
  secretKey : JString := []
  admin : Bool := false
  isPrivate : Bool := false
  contactable : Bool := true
  deactivated : Bool := false
  lastLogin : Option Int := none
  resetCode : Option JString := none
  createdAt : Option Int
  updatedAt : Option Int
deriving DecidableEq

instance : Stamped User where
  key u := u.id
  withKey u k := { u with id := k }
  key_withKey _ _ := rfl
  createdAt u := u.createdAt
  stamp u c m := { u with createdAt := some c, updatedAt := some m }
  key_stamp _ _ _ := rfl

namespace User

/-- `User.scala:328–332`. -/
def get (users : Table User) (id : Int) : Option User :=
  users.fetchOne fun u => u.id == id && u.deactivated == false

/-- `User.scala:213–216`. -/
def getByEmail (users : Table User) (email : JString) : Option User :=
  users.fetchOne fun u => u.email == email

/-- A stored user is found by its id unless it is deactivated. -/
theorem get_of_mem {users : Table User} {u : User} (hu : u ∈ users.rows) :
    get users u.id = if u.deactivated then none else some u := by
  cases hdead : u.deactivated with
  | false =>
    refine Table.fetchOne_of_unique hu (by simp [hdead]) fun u' hu' h => ?_
    rw [Bool.and_eq_true, beq_iff_eq] at h
    exact Table.eq_of_key_eq hu' hu h.1
  | true =>
    refine Table.fetchOne_eq_none.mpr fun u' hu' => ?_
    by_cases hid : u'.id = u.id
    · rw [Table.eq_of_key_eq hu' hu hid, hdead]
      simp
    · simp [hid]

end User

namespace UserHelper

/-- `User.scala:34–49`. -/
def get (U : Unicode) (users : Table User) (friendlyIds : Table FriendlyId) (id : JString) :
    Except Failure User :=
  match (id.toLong U).bind (User.get users) with
  | some u => .ok u
  | none =>
    -- no number, or no active user with it: either way the exception is caught
    match FriendlyId.get friendlyIds users FriendlyId.userModel id with
    | some u => if u.deactivated = false then .ok u else .error .noUser
    | none => .error .noUser

end UserHelper

end Maiden
