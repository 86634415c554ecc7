import Maiden.Models.Accounts

/-!
# Facebook accounts (`data/models/SocialAccount.scala`)

`SocialAccount.create("facebook", token)` (`SocialAccount.scala:203–226`) asks Facebook
who the token belongs to and makes a user of the answer
(`createUserFromFacebook`, `SocialAccount.scala:72–191`), then links the account. The
user is the one the account is linked to already; failing that, the one with the
profile's email; failing that, a new one. A missing email should become
`<id>@facebook.com`, but the map with the new entry is built and dropped
(`SocialAccount.scala:79–82`), so that it is the empty string everywhere below.

The user, the profile and the account are written in transactions of their own, so an
exception leaves what was written before it. The list of friends is always empty
(`Facebook.scala:45–52`).
-/

namespace Maiden

open JString

/-- A login: the token, the user data that Facebook returns for it
(`Facebook.scala:22–43`; what is only stored as text is in `json`), and what chance
and the clock add. -/
structure FacebookLogin where
  token : JString
  id : JString
  firstName : Option JString
  lastName : Option JString
  email : Option JString
  bio : Option JString
  about : Option JString
  location : Option JString
  json : JString
  accessToken : JString
  secretKey : JString
  now : Int

namespace FacebookLogin

/-- `userData("email") match { case x: String => x; case _ => "" }`. -/
def mail (l : FacebookLogin) : JString := l.email.getD []

/-- The user the login is for, if there is one (`SocialAccount.scala:83–90`). -/
def existingUser (db : Accounts) (l : FacebookLogin) : Option User :=
  match SocialAccount.getByUid db.socialAccounts .facebook l.id with
  | some a => db.users.table.get a.userId
  | none => User.getByEmail db.users.table l.mail

/-- The row that is written for the user (`SocialAccount.scala:92–112`). The columns that
are not copied fall back to their defaults, also for a user who was there before. -/
def userRow (l : FacebookLogin) (username : JString) : Option User → User
  | none =>
    { userName := username, accessToken := l.accessToken, secretKey := l.secretKey
      email := l.mail, createdAt := some l.now, updatedAt := some l.now }
  | some x =>
    { id := x.id, userName := x.userName, accessToken := l.accessToken, secretKey := l.secretKey
      email := x.email, createdAt := x.createdAt, updatedAt := x.updatedAt
      lastLogin := some l.now, contactable := x.contactable, isPrivate := x.isPrivate }

/-- A column of the profile, unless it is empty or there is no profile. -/
def stored (prof : Option Profile) (column : Profile → JString) : Option JString :=
  (prof.map column).filter (· ≠ [])

/-- The picture that Facebook serves. -/
def picture (l : FacebookLogin) : JString :=
  js "https://graph.facebook.com/".toList ++ l.id ++ js "/picture?width=200&height=200".toList

/-- The tagline: given `about`, the *bio* is taken, which may be null
(`SocialAccount.scala:141–147`). -/
def tagline (l : FacebookLogin) (prof : Option Profile) : Except Failure JString :=
  match stored prof Profile.tagline with
  | some x => .ok x
  | none =>
    match l.about with
    | none => .ok []
    | some _ => getOr l.bio .nullPointer

/-- The profile that is passed on (`SocialAccount.scala:127–170`). -/
def profile (l : FacebookLogin) (firstName lastName : JString) (prof : Option Profile)
    (userId : Int) : Except Failure Profile := do
  let tagline ← l.tagline prof
  .ok { userId
        firstName := (stored prof Profile.firstName).getD firstName
        lastName := (stored prof Profile.lastName).getD lastName
        bio := (stored prof Profile.bio).getD (l.bio.getD [])
        tagline
        location := (stored prof Profile.location).getD (l.location.getD [])
        profilePicture := (stored prof Profile.profilePicture).getD l.picture
        createdAt := some l.now
        updatedAt := some l.now }

/-- The profile is written, then once more under the id it has got
(`SocialAccount.scala:163–184`). -/
def saveProfile (l : FacebookLogin) (firstName lastName : JString) (db : Table Profile)
    (userId : Int) : Table Profile × Except Failure Unit :=
  match l.profile firstName lastName (Profile.getForUser db userId) userId with
  | .error e => (db, .error e)
  | .ok given =>
    match Profile.createOrUpdate db given l.now with
    | .error e => (db, .error e)
    | .ok (db', p) =>
      let id := ((Profile.getForUser db' userId).map Profile.id).getD 0
      match Profile.save db' { p with id } l.now with
      | .error e => (db', .error e)
      | .ok (db'', _) => (db'', .ok ())

/-- `createUserFromFacebook`. -/
def createUser (site : Site) (db : Accounts) (l : FacebookLogin) :
    Accounts × Except Failure User :=
  match l.firstName, l.lastName with
  | some firstName, some lastName =>
    let username := site.unicode.toLowerCase (firstName ++ jc '.' :: lastName)
    match db.users.save (l.userRow username (l.existingUser db)) l.now with
    | .error e => (db, .error e)
    | .ok (users, u) =>
      -- the user is committed, whatever becomes of the profile and the account
      match l.saveProfile firstName lastName db.profiles u.id with
      | (profiles, .error e) => ({ db with users, profiles }, .error e)
      | (profiles, .ok _) => ({ db with users, profiles }, .ok u)
  | _, _ => (db, .error .nullPointer)

/-- `SocialAccount.create("facebook", token)`. -/
def create (site : Site) (db : Accounts) (l : FacebookLogin) :
    Accounts × Except Failure SocialAccount :=
  match l.createUser site db with
  | (db', .error e) => (db', .error e)
  | (db', .ok u) =>
    match SocialAccount.create db'.socialAccounts .facebook u.id l.id l.token [] l.json l.now with
    | .error e => (db', .error e)
    | .ok (socialAccounts, sa) => ({ db' with socialAccounts }, .ok sa)

end FacebookLogin

end Maiden
