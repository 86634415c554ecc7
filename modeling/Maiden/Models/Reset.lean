import Maiden.Models.Identity

/-!
# Forgotten passwords (`User.scala:219–278`)

`generateResetCode` locks a user out with a password nobody knows and stores a reset code,
which goes to the user by mail. `resetPassword` takes the code and sets a new password. Both
end in the same two writes: the user's row, and the `secretKey` of the user's identity
account, where the login looks for the password.

The codes, tokens and the unknown password are random; they are part of the calls here.
-/

namespace Maiden

/-- A call of `generateResetCode`, with what chance and the clock add. -/
structure GenerateResetCode where
  userId : Int
  resetCode : JString
  /-- The password nobody knows. -/
  password : JString
  accessToken : JString
  secretKey : JString
  now : Int

/-- A call of `resetPassword`, with what chance and the clock add. -/
structure ResetPassword where
  resetCode : JString
  newPassword : JString
  accessToken : JString
  secretKey : JString
  now : Int

/-- `SocialAccount.scala:61–65`. -/
def SocialAccount.getByUserIdAndProvider (db : Table SocialAccount) (userId : Int)
    (provider : Provider) : Option SocialAccount :=
  db.fetchOne fun sa => sa.userId == userId && sa.provider == provider

/-- The account with another password. -/
def SocialAccount.withSecretKey (sa : SocialAccount) (secretKey : JString) : SocialAccount :=
  { sa with secretKey }

namespace User

/-- The user with new credentials. -/
def withCredentials (u : User) (password : JString) (resetCode : Option JString)
    (accessToken secretKey : JString) : User :=
  { u with password, resetCode, accessToken, secretKey }

/-- The row `generateResetCode` writes. -/
def locked (site : Site) (r : GenerateResetCode) (u : User) : User :=
  u.withCredentials (site.hashPassword r.password) (some r.resetCode) r.accessToken r.secretKey

/-- The row `resetPassword` writes. -/
def unlocked (site : Site) (r : ResetPassword) (u : User) : User :=
  u.withCredentials (site.hashPassword r.newPassword) none r.accessToken r.secretKey

/-- The user that waits for the code. -/
def getByResetCode (users : Table User) (resetCode : JString) : Option User :=
  users.fetchOne fun u => u.resetCode == some resetCode

/-- The two writes of both calls: the user, and the password of its identity account. -/
def saveCredentials (db : Accounts) (u : User) (now : Int) : Accounts × Except Failure User :=
  match db.users.save u now with
  | .error e => (db, .error e)
  | .ok (users, u) =>
    match SocialAccount.getByUserIdAndProvider db.socialAccounts u.id .identity with
    | none => ({ db with users }, .ok u)
    | some sa =>
      match SocialAccount.save db.socialAccounts (sa.withSecretKey u.password) now with
      | .error e => ({ db with users }, .error e)
      | .ok (socialAccounts, _) => ({ db with users, socialAccounts }, .ok u)

/-- `User.scala:219–245`. -/
def generateResetCode (site : Site) (db : Accounts) (r : GenerateResetCode) :
    Accounts × Except Failure JString :=
  match User.get db.users.table r.userId with
  | none => (db, .error .noUser)
  | some u =>
    match saveCredentials db (u.locked site r) r.now with
    | (db', .error e) => (db', .error e)
    | (db', .ok _) => (db', .ok r.resetCode)

/-- `User.scala:247–278`. A deactivated user is found as well. -/
def resetPassword (site : Site) (db : Accounts) (r : ResetPassword) :
    Accounts × Except Failure User :=
  match getByResetCode db.users.table r.resetCode with
  | none => (db, .error .invalidPasswordResetCode)
  | some u =>
    match validatePassword r.newPassword with
    | .error e => (db, .error e)
    | .ok _ => saveCredentials db (u.unlocked site r) r.now

end User

end Maiden
