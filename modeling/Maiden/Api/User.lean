import Maiden.Models.Facebook
import Maiden.Models.ProfileUpdate

/-!
# The user actions (`api/action/User.scala`)

The requests that make, use and end accounts, each run without interruption: the store
afterwards, and the reply or the exception. Who is calling is decided by an access token
(`BaseAction.scala:89–105`), which stands in the parameter `at` or else in the header
`X-MAIDEN-AT` and is looked up in the Users table without asking whether the user is
deactivated.

The replies to a login carry the token (`User.asLoginMap`). They also carry the friendly id,
and `friendlyId` *generates* it, so that building the reply writes to the store once more.

The last two functions of this file are not reached from an action: `generateOauthInfo` and
`remove` are the model's own means of changing a user's tokens and of deleting a user.
-/

namespace Maiden

open JString

/-- Why an action did not answer: what the models throw, and the exceptions of the actions
themselves. -/
inductive ActionFailure where
  | thrown (e : Failure)
  | missingSocialAccessToken
  | invalidSocialCredentials
  | facebookFailure
  | userAccountMissingIdentity
  /-- `.get` of a `None`. -/
  | noSuchElement
deriving DecidableEq, Repr

/-- The text the API sends (`Exceptions.scala:43–69`, `Exceptions.scala:117–121`). -/
def ActionFailure.message : ActionFailure → Option String
  | .thrown e => e.message
  | .missingSocialAccessToken => some "Missing Social Access Token"
  | .invalidSocialCredentials => some "Invalid Social Credentials"
  | .facebookFailure => some "Unable to retrieve data from Facebook"
  | .userAccountMissingIdentity => some "The user does not have an identity account"
  | .noSuchElement => none

/-! ## Who is calling -/

/-- What a request says about its caller: the parameter `at` and the header. -/
structure Presented where
  parameter : Option JString := none
  header : Option JString := none

/-- The parameter wins over the header. -/
def Presented.token (c : Presented) : Option JString :=
  match c.parameter with
  | some a => some a
  | none => c.header

/-- `User.get(accessToken)` (`User.scala:303–309`). -/
def User.getByAccessToken (users : Table User) (accessToken : JString) : Option User :=
  users.fetchOne fun u => u.accessToken == accessToken

/-- `BaseAction.user`. -/
def caller (db : Accounts) (c : Presented) : Option User :=
  match c.token with
  | some token => User.getByAccessToken db.users.table token
  | none => none

/-- Who calls has a row. -/
theorem caller_mem {db : Accounts} {who : Presented} {u : User} (h : caller db who = some u) :
    u ∈ db.users.table.rows := by
  unfold caller at h
  cases htoken : who.token with
  | none =>
    rw [htoken] at h
    cases h
  | some token =>
    rw [htoken] at h
    exact (Table.mem_of_fetchOne h).1

/-! ## Replies -/

/-- `friendlyId`, which the map of a user calls (`BaseTable.scala:96–102`). -/
def User.generateFriendlyId (site : Site) (db : Accounts) (u : User) (now : Int) : Accounts :=
  { db with
    friendlyIds :=
      (FriendlyId.generate site.unicode db.friendlyIds FriendlyId.userModel u.id u.userName
        now).1 }

/-- What a call of the layer below leaves, with its exception or result passed on. -/
def answered {ε α β : Type} (f : ε → ActionFailure) (g : α → β) :
    Accounts × Except ε α → Accounts × Except ActionFailure β
  | (db, .error e) => (db, .error (f e))
  | (db, .ok a) => (db, .ok (g a))

@[simp] theorem answered_fst {ε α β : Type} (f : ε → ActionFailure) (g : α → β)
    (p : Accounts × Except ε α) : (answered f g p).1 = p.1 := by
  rcases p with ⟨db, e | a⟩ <;> rfl

/-- Passing the outcome on writes nothing, so what the call has left is what the request leaves. -/
theorem of_answered {ε α β : Type} {f : ε → ActionFailure} {g : α → β} {P : Accounts → Prop}
    {p : Accounts × Except ε α} (h : P p.1) : P (answered f g p).1 := by
  rwa [answered_fst]

theorem answered_eq_ok {ε α β : Type} {f : ε → ActionFailure} {g : α → β}
    {p : Accounts × Except ε α} {db : Accounts} {b : β} :
    answered f g p = (db, .ok b) ↔ ∃ a, p = (db, .ok a) ∧ g a = b := by
  rcases p with ⟨db', e | a⟩
  · simp [answered]
  · simp [answered]

theorem answered_eq_error {ε α β : Type} {f : ε → ActionFailure} {g : α → β}
    {p : Accounts × Except ε α} {e : ActionFailure} :
    (answered f g p).2 = .error e ↔ ∃ e', p.2 = .error e' ∧ f e' = e := by
  rcases p with ⟨db, e' | a⟩
  · simp [answered]
  · simp [answered]

/-- The reply of a model function, for which the friendly id is generated. -/
def replied (site : Site) (now : Int) : Accounts × Except Failure User →
    Accounts × Except ActionFailure User
  | (db, .error e) => (db, .error (.thrown e))
  | (db, .ok u) => (u.generateFriendlyId site db now, .ok u)

@[simp] theorem replied_users (site : Site) (now : Int) (p : Accounts × Except Failure User) :
    (replied site now p).1.users = p.1.users := by
  rcases p with ⟨db, e | u⟩ <;> rfl

theorem replied_eq_error {site : Site} {now : Int} {p : Accounts × Except Failure User}
    {e : ActionFailure} : (replied site now p).2 = .error e → ∃ e', e = .thrown e' := by
  rcases p with ⟨db, e' | u⟩
  · intro h
    cases h
    exact ⟨e', rfl⟩
  · exact fun h => nomatch h

theorem replied_eq_ok {site : Site} {now : Int} {p : Accounts × Except Failure User}
    {db : Accounts} {u : User} :
    replied site now p = (db, .ok u) ↔
      ∃ db', p = (db', .ok u) ∧ db = u.generateFriendlyId site db' now := by
  rcases p with ⟨db', e | a⟩
  · simp [replied]
  · simp only [replied, Prod.mk.injEq, Except.ok.injEq]
    constructor
    · rintro ⟨rfl, rfl⟩
      exact ⟨db', ⟨rfl, rfl⟩, rfl⟩
    · rintro ⟨_, ⟨rfl, rfl⟩, rfl⟩
      exact ⟨rfl, rfl⟩

/-! ## Logins -/

/-- A request to UserLoginWithProvider, with what Facebook and the clock add. -/
inductive UserLoginWithProvider where
  | identity (username password : Option JString) (now : Int)
  | facebook (l : FacebookLogin)
  /-- Facebook does not answer for the token. -/
  | facebookFails
  /-- The provider is `google`, or one that nobody knows. -/
  | other
  /-- A provider other than `identity`, and no token. -/
  | noToken

/-- The reply to a social login: the user of the account is read again, `s.user.get`. -/
def repliedFor (site : Site) (now : Int) : Accounts × Except Failure SocialAccount →
    Accounts × Except ActionFailure User
  | (db, .error e) => (db, .error (.thrown e))
  | (db, .ok sa) =>
    match db.users.table.get sa.userId with
    | none => (db, .error .noSuchElement)
    | some u => (u.generateFriendlyId site db now, .ok u)

@[simp] theorem repliedFor_users (site : Site) (now : Int)
    (p : Accounts × Except Failure SocialAccount) :
    (repliedFor site now p).1.users = p.1.users := by
  rcases p with ⟨db, e | sa⟩
  · rfl
  · unfold repliedFor
    dsimp only
    split <;> rfl

theorem repliedFor_eq_ok {site : Site} {now : Int} {p : Accounts × Except Failure SocialAccount}
    {db : Accounts} {u : User} (h : repliedFor site now p = (db, .ok u)) :
    ∃ db' sa, p = (db', .ok sa) ∧ db'.users.table.get sa.userId = some u ∧
      db = u.generateFriendlyId site db' now := by
  rcases p with ⟨db', e | sa⟩
  · cases h
  · unfold repliedFor at h
    dsimp only at h
    cases hget : db'.users.table.get sa.userId with
    | none =>
      rw [hget] at h
      cases h
    | some u' =>
      rw [hget] at h
      cases h
      exact ⟨db', sa, rfl, hget, rfl⟩

/-- `api/action/User.scala:277–311`. -/
def UserLoginWithProvider.execute (site : Site) (db : Accounts) :
    UserLoginWithProvider → Accounts × Except ActionFailure User
  | .identity username password now =>
    replied site now (User.checkLogin site db (username.getD []) (password.getD []) now)
  | .facebook l => repliedFor site l.now (l.create site db)
  | .facebookFails => (db, .error .facebookFailure)
  | .other => (db, .error .invalidSocialCredentials)
  | .noToken => (db, .error .missingSocialAccessToken)

/-! ## Forgotten passwords -/

/-- A request to GeneratePasswordResetcode, with what chance and the clock add. -/
structure GeneratePasswordResetcode where
  email : JString
  resetCode : JString
  /-- The password nobody knows. -/
  password : JString
  accessToken : JString
  secretKey : JString
  now : Int

namespace GeneratePasswordResetcode

/-- The call that is made for the user found. -/
def callFor (r : GeneratePasswordResetcode) (userId : Int) : GenerateResetCode where
  userId := userId
  resetCode := r.resetCode
  password := r.password
  accessToken := r.accessToken
  secretKey := r.secretKey
  now := r.now

/-- `api/action/User.scala:320–337`. The code, which "needs to be sent" by mail, is the reply,
and nobody asks who is calling. -/
def execute (site : Site) (db : Accounts) (r : GeneratePasswordResetcode) :
    Accounts × Except ActionFailure JString :=
  match User.getByEmail db.users.table r.email with
  | none => (db, .error (.thrown .noUser))
  | some u =>
    match SocialAccount.getByUserIdAndProvider db.socialAccounts u.id .identity with
    | none => (db, .error .userAccountMissingIdentity)
    | some _ =>
      answered .thrown id (User.generateResetCode site db (r.callFor u.id))

end GeneratePasswordResetcode

/-- `api/action/User.scala:347–355`. -/
def ResetPassword.execute (site : Site) (db : Accounts) (r : ResetPassword) :
    Accounts × Except ActionFailure User :=
  replied site r.now (User.resetPassword site db r)

/-! ## Other changes -/

/-- A call of `generateOauthInfo`, with what chance and the clock add. -/
structure GenerateOauthInfo where
  userId : Int
  accessToken : JString
  secretKey : JString
  now : Int

/-- The row that `generateOauthInfo` writes. -/
def User.withTokens (u : User) (accessToken secretKey : JString) : User :=
  { u with accessToken, secretKey }

/-- `User.scala:426–443`. -/
def User.generateOauthInfo (db : Accounts) (r : GenerateOauthInfo) :
    Accounts × Except Failure (Option User) :=
  match db.users.table.get r.userId with
  | none => (db, .ok none)
  | some u =>
    match db.users.save (u.withTokens r.accessToken r.secretKey) r.now with
    | .error e => (db, .error e)
    | .ok (users, u) => ({ db with users }, .ok (some u))

/-- `Users.deleteWhere`. -/
def Users.deleteWhere (us : Users) (p : User → Bool) : Users where
  table := us.table.deleteWhere p
  fits := fun u hu => us.fits u (Table.mem_deleteWhere.mp hu).1
  email_unique := fun u hu u' hu' =>
    us.email_unique u (Table.mem_deleteWhere.mp hu).1 u' (Table.mem_deleteWhere.mp hu').1
  accessToken_unique := fun u hu u' hu' =>
    us.accessToken_unique u (Table.mem_deleteWhere.mp hu).1 u' (Table.mem_deleteWhere.mp hu').1

/-- `User.scala:472–477`. -/
def User.remove (db : Accounts) (userId : Int) : Accounts where
  profiles := db.profiles.deleteWhere fun p => p.userId == userId
  friendlyIds := db.friendlyIds.deleteWhere fun f =>
    f.model == FriendlyId.userModel && f.modelId == userId
  socialAccounts := db.socialAccounts.deleteWhere fun sa => sa.userId == userId
  users := db.users.deleteWhere fun u => u.id == userId

/-! ## All of them -/

/-- A call that may change the account tables. -/
inductive AccountCall where
  | createAccount (r : UserCreateAccount)
  | login (r : UserLoginWithProvider)
  | generateReset (r : GeneratePasswordResetcode)
  | reset (r : ResetPassword)
  | updateProfile (who : Presented) (r : UpdateUserProfile)
  | generateOauthInfo (r : GenerateOauthInfo)
  | remove (userId : Int)

/-- What a call answers. -/
inductive AccountReply where
  /-- The map of a login, with the tokens in it. -/
  | login (u : User)
  | resetCode (code : JString)
  /-- The map of a user, without the tokens. -/
  | user (u : User)
  | done
deriving DecidableEq

namespace AccountCall

/-- The store and the answer after the call. -/
def execute (site : Site) (db : Accounts) :
    AccountCall → Accounts × Except ActionFailure AccountReply
  | .createAccount r => answered .thrown .login (r.execute site db)
  | .login r => answered id .login (r.execute site db)
  | .generateReset r => answered id .resetCode (r.execute site db)
  | .reset r => answered id .login (r.execute site db)
  | .updateProfile who r => answered .thrown .user (r.execute site db (caller db who))
  | .generateOauthInfo r => answered .thrown (fun _ => .done) (User.generateOauthInfo db r)
  | .remove userId => (User.remove db userId, .ok .done)

/-- The step of the account store; a call that throws leaves what it has written. -/
def step (site : Site) (db : Accounts) (c : AccountCall) : Option Accounts :=
  some (c.execute site db).1

end AccountCall

end Maiden
