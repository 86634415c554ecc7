import Maiden.Models.Reset

/-!
# Profile updates (`api/action/User.scala:376–474`)

`UpdateUserProfile` changes what the caller gives: the texts of the profile, three flags, and
the email, the user name and the password. The last three go through their validators
first. A validator returns a string, and the parameter that is not given is `None`; Scala's
type for both is `java.io.Serializable`, and the `match` behind it asks for `Some(x)`, which
neither of the two is (`Serializable.asSome`). The branches that it guards are translated all
the same; among other things they exchange the roles that `createIdentity` gives to the two
columns of the account, and hash the user name for the password.
-/

namespace Maiden

open JString

/-- What a validator and the `match` around it leave. -/
inductive Serializable where
  | string (s : JString)
  | none
deriving DecidableEq

namespace Serializable

/-- The pattern `Some(x)`: a string is not a `Some`, whatever it holds. -/
def asSome : Serializable → Option JString
  | .string _ => Option.none
  | .none => Option.none

/-- `toString`. -/
def toText : Serializable → JString
  | .string s => s
  | .none => js ['N', 'o', 'n', 'e']

theorem asSome_eq_none (x : Serializable) : x.asSome = Option.none := by
  cases x <;> rfl

end Serializable

/-- The parameters of UpdateUserProfile, with the time of the call. -/
structure UpdateUserProfile where
  email : Option JString := none
  username : Option JString := none
  password : Option JString := none
  firstName : Option JString := none
  lastName : Option JString := none
  tagline : Option JString := none
  bio : Option JString := none
  profilePicture : Option JString := none
  location : Option JString := none
  deactivate : Option JString := none
  isPrivate : Option JString := none
  contactable : Option JString := none
  now : Int

namespace UpdateUserProfile

/-- A parameter that is validated if it is given. -/
def validated (validate : JString → Except Failure JString) :
    Option JString → Except Failure Serializable
  | some s => (validate s).map .string
  | none => .ok .none

/-- A flag: `t` sets it, `f` clears it, and anything else leaves it. -/
def flag (param : Option JString) (current : Bool) : Bool :=
  if param = some (js ['t']) then true
  else if param = some (js ['f']) then false
  else current

/-- The arguments of `Profile.createOrUpdate`. -/
def profile (r : UpdateUserProfile) (u : User) : Profile where
  userId := u.id
  firstName := r.firstName.getD []
  lastName := r.lastName.getD []
  tagline := r.tagline.getD []
  bio := r.bio.getD []
  profilePicture := r.profilePicture.getD []
  location := r.location.getD []
  createdAt := some r.now
  updatedAt := some r.now

/-- The caller's row and identity account with the changes (`api/action/User.scala:416–457`). -/
def changed (site : Site) (r : UpdateUserProfile) (email username password : Serializable)
    (u : User) (sa : Option SocialAccount) : User × Option SocialAccount :=
  let (u, sa) :=
    match email.asSome with
    | some email =>
      ({ u with email }, sa.map fun sa : SocialAccount => { sa with uid := email })
    | none => (u, sa)
  let (u, sa) :=
    match username.asSome with
    | some userName =>
      ({ u with userName }, sa.map fun sa : SocialAccount => { sa with accessToken := userName })
    | none => (u, sa)
  let (u, sa) :=
    match password.asSome with
    | some _ =>
      let hashedPass := site.hashPassword username.toText
      ({ u with password := hashedPass },
        sa.map fun sa => SocialAccount.withSecretKey sa hashedPass)
    | none => (u, sa)
  ({ u with
      deactivated := flag r.deactivate u.deactivated
      isPrivate := flag r.isPrivate u.isPrivate
      contactable := flag r.contactable u.contactable }, sa)

/-- The writes at the end (`api/action/User.scala:459–466`), and the reply, for which
`friendlyId` generates the friendly id once more. -/
def writeBack (site : Site) (db : Accounts) (u : User) (sa : Option SocialAccount) (now : Int) :
    Accounts × Except Failure User :=
  match db.users.save u now with
  | .error e => (db, .error e)
  | .ok (users, u) =>
    let generate := fun friendlyIds : Table FriendlyId =>
      (FriendlyId.generate site.unicode friendlyIds FriendlyId.userModel u.id u.userName now).1
    match sa with
    | none => ({ db with users, friendlyIds := generate (generate db.friendlyIds) }, .ok u)
    | some sa =>
      match SocialAccount.save db.socialAccounts sa now with
      | .error e => ({ db with users, friendlyIds := generate db.friendlyIds }, .error e)
      | .ok (socialAccounts, _) =>
        ({ db with users, socialAccounts, friendlyIds := generate (generate db.friendlyIds) },
          .ok u)

/-- The request of a caller that the access token identifies, if it does. -/
def execute (site : Site) (db : Accounts) (user : Option User) (r : UpdateUserProfile) :
    Accounts × Except Failure User :=
  match user with
  | none => (db, .error .unauthorized)
  | some u =>
    match validated User.validateEmail r.email, validated User.validateUserName r.username,
        validated User.validatePassword r.password with
    | .ok email, .ok username, .ok password =>
      match Profile.createOrUpdate db.profiles (r.profile u) r.now with
      | .error e => (db, .error e)
      | .ok (profiles, _) =>
        let identity := SocialAccount.getByUserIdAndProvider db.socialAccounts u.id .identity
        let (u, sa) := r.changed site email username password u identity
        writeBack site { db with profiles } u sa r.now
    -- the first validator that throws ends the request
    | .error e, _, _ => (db, .error e)
    | .ok _, .error e, _ => (db, .error e)
    | .ok _, .ok _, .error e => (db, .error e)

/-- The branches for email, user name and password are never taken. -/
theorem changed_eq (site : Site) (r : UpdateUserProfile) (email username password : Serializable)
    (u : User) (sa : Option SocialAccount) :
    r.changed site email username password u sa =
      ({ u with
          deactivated := flag r.deactivate u.deactivated
          isPrivate := flag r.isPrivate u.isPrivate
          contactable := flag r.contactable u.contactable }, sa) := by
  unfold changed
  rw [Serializable.asSome_eq_none, Serializable.asSome_eq_none, Serializable.asSome_eq_none]

end UpdateUserProfile

end Maiden
