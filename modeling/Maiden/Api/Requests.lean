import Maiden.Api.User
import Maiden.Base.Threads

/-!
# The user actions, cut at their transactions

Every query and every write of the models runs in a transaction of its own
(`Schema.scala:96–115`, `225–237`), also inside a `withTransaction` block, which adds nothing to
them (`Base/Transaction.lean`). So requests that are served at the same time may come in between
any two of them. Here the actions of `Api/User.lean` are written once more, as the
threads that they are: what an action reads, it keeps, and a row that it changes is written back
as a whole, with the other columns as they were when it was read.

`AccountRequest.run_code` connects the two: a thread that nobody interrupts does what its action
does. So the runs of `AccountCall`, one call after the other, are among the runs of the pool
(`exists_exec_sequential`). What only builds a reply, and reads, is left out.
-/

namespace Maiden

open JString Threads Thread

/-- A thread of the account code. -/
abbrev AccountThread (α : Type) := Thread Accounts ActionFailure α

namespace AccountThread

variable {α : Type}

/-- A validator, or what else may throw without looking at the store. -/
def check (x : Except Failure α) : AccountThread α := lift (x.mapError .thrown)

/-- `match { case Some(x) => …; case _ => throw … }`. -/
def found (o : Option α) (e : ActionFailure) : AccountThread α := lift (o.elim (.error e) .ok)

/-- A write to one of the tables. -/
def saving {τ : Type} (save : Accounts → Except Failure (τ × α)) (set : Accounts → τ → Accounts) :
    AccountThread α :=
  commit fun db => ((save db).map fun r => (set db r.1, r.2)).mapError .thrown

/-- `Users.upsert(u)`. -/
def storeUser (u : User) (now : Int) : AccountThread User :=
  saving (fun db => db.users.save u now) fun db users => { db with users }

/-- `SocialAccounts.upsert(sa)`. -/
def storeSocialAccount (sa : SocialAccount) (now : Int) : AccountThread SocialAccount :=
  saving (fun db => SocialAccount.save db.socialAccounts sa now)
    fun db socialAccounts => { db with socialAccounts }

/-- `Profiles.upsert(p)`. -/
def storeProfile (p : Profile) (now : Int) : AccountThread Profile :=
  saving (fun db => Profile.save db.profiles p now) fun db profiles => { db with profiles }

/-- `FriendlyId.generate("User", …)` for the name of a user (`FriendlyId.scala:75–121`). -/
def friendlyId (site : Site) (u : User) (now : Int) : AccountThread FriendlyId := do
  let existing ← fetch fun db => db.friendlyIds.fetchOne fun fi =>
    fi.model == FriendlyId.userModel && fi.modelId == u.id
  let hash ← fetch fun db =>
    FriendlyId.finalHash site.unicode db.friendlyIds FriendlyId.userModel u.id u.userName
  let row : FriendlyId :=
    { id := (existing.map FriendlyId.id).getD 0, model := FriendlyId.userModel, modelId := u.id
      hash, createdAt := some now, updatedAt := some now }
  saving (fun db => .ok (upsert db.friendlyIds row now)) fun db friendlyIds =>
    { db with friendlyIds }

/-- `SocialAccount.create(provider, userId, …)` (`SocialAccount.scala:228–254`). -/
def createSocialAccount (provider : Provider) (userId : Int)
    (uid accessToken secretKey extra : JString) (now : Int) : AccountThread SocialAccount := do
  let sa ← fetch fun db =>
    SocialAccount.linked db.socialAccounts provider userId uid accessToken secretKey extra now
  storeSocialAccount sa now

end AccountThread

open AccountThread

/-- `Profile.createOrUpdate`. -/
def AccountThread.createOrUpdateProfile (given : Profile) (now : Int) : AccountThread Profile := do
  let p ← fetch fun db => Profile.merged db.profiles given
  storeProfile p now

/-! ## The actions

An action reads, checks, and writes the user's row. What comes behind that write has a name of its
own in each of them.
-/

/-- The reply to a login, for which the friendly id is generated. -/
def AccountThread.reply (site : Site) (now : Int) (u : User) : AccountThread User := do
  let _ ← friendlyId site u now
  return u

namespace UserCreateAccount

/-- The profile, and the reply (`api/action/User.scala:251–262`). -/
def introduceCode (site : Site) (r : UserCreateAccount) (u : User) : AccountThread User := do
  let _ ← createOrUpdateProfile
    { userId := u.id, firstName := r.firstName, lastName := r.lastName
      profilePicture := defaultPicture, createdAt := some r.now, updatedAt := some r.now } r.now
  reply site r.now u

/-- Behind the user's row: the friendly id and the account. -/
def linkCode (site : Site) (r : UserCreateAccount) (password : JString) (u : User) :
    AccountThread User := do
  let _ ← friendlyId site u r.now
  let _ ← createSocialAccount .identity u.id u.userName u.email (site.hashPassword password) []
    r.now
  r.introduceCode site u

/-- `UserCreateAccount` (`api/action/User.scala:235–265`, `User.scala:373–399`). -/
def code (site : Site) (r : UserCreateAccount) : AccountThread User := do
  let userName ← fetch (r.userName site)
  let password ← check (User.validatePassword r.password)
  let email ← check (User.validateEmail r.email)
  let known ← fetch fun db => User.getByUserNameOrEmail db userName email
  if known.isSome || User.reserved.contains userName then
    .throw (.thrown .userAlreadyExists)
  else
    let u ← storeUser (User.new site userName password email r.accessToken r.secretKey r.now) r.now
    r.linkCode site password u

end UserCreateAccount

/-- A login with an own password (`User.scala:445–470`). -/
def User.loginCode (site : Site) (username password : JString) (now : Int) :
    AccountThread User := do
  let user ← fetch fun db => User.findLogin site db username password
  let user ← found user (.thrown .unauthorized)
  let user ← storeUser (user.touched now) now
  reply site now user

namespace FacebookLogin

/-- The profile of a Facebook login (`SocialAccount.scala:124–184`). -/
def saveProfileCode (l : FacebookLogin) (firstName lastName : JString) (userId : Int) :
    AccountThread Unit := do
  let prof ← fetch fun db => Profile.getForUser db.profiles userId
  let given ← check (l.profile firstName lastName prof userId)
  let p ← createOrUpdateProfile given l.now
  let prof ← fetch fun db => Profile.getForUser db.profiles userId
  let _ ← storeProfile { p with id := (prof.map Profile.id).getD 0 } l.now
  return ()

/-- The account, and the reply, for which its user is read again. -/
def linkCode (site : Site) (l : FacebookLogin) (userId : Int) : AccountThread User := do
  let sa ← createSocialAccount .facebook userId l.id l.token [] l.json l.now
  let user ← fetch fun db => db.users.table.get sa.userId
  let user ← found user .noSuchElement
  reply site l.now user

/-- A Facebook login (`SocialAccount.scala:72–226`). -/
def code (site : Site) (l : FacebookLogin) : AccountThread User := do
  let firstName ← found l.firstName (.thrown .nullPointer)
  let lastName ← found l.lastName (.thrown .nullPointer)
  let account ← fetch fun db => SocialAccount.getByUid db.socialAccounts .facebook l.id
  let existing ← fetch fun db =>
    match account with
    | some a => db.users.table.get a.userId
    | none => User.getByEmail db.users.table l.mail
  let username := site.unicode.toLowerCase (firstName ++ jc '.' :: lastName)
  let u ← storeUser (l.userRow username existing) l.now
  let _ ← l.saveProfileCode firstName lastName u.id
  l.linkCode site u.id

end FacebookLogin

/-- `UserLoginWithProvider` (`api/action/User.scala:277–311`). -/
def UserLoginWithProvider.code (site : Site) : UserLoginWithProvider → AccountThread User
  | .identity username password now =>
    User.loginCode site (username.getD []) (password.getD []) now
  | .facebook l => l.code site
  | .facebookFails => .throw .facebookFailure
  | .other => .throw .invalidSocialCredentials
  | .noToken => .throw .missingSocialAccessToken

/-- Behind the user's row, in both parts of a reset: the password of the identity account. -/
def User.syncAccountCode (now : Int) (u : User) : AccountThread User := do
  let sa ← fetch fun db => SocialAccount.getByUserIdAndProvider db.socialAccounts u.id .identity
  match sa with
  | none => return u
  | some sa =>
    let _ ← storeSocialAccount (sa.withSecretKey u.password) now
    return u

/-- `GeneratePasswordResetcode` (`api/action/User.scala:320–337`, `User.scala:219–245`). -/
def GeneratePasswordResetcode.code (site : Site) (r : GeneratePasswordResetcode) :
    AccountThread JString := do
  let user ← fetch fun db => User.getByEmail db.users.table r.email
  let user ← found user (.thrown .noUser)
  let sa ← fetch fun db => SocialAccount.getByUserIdAndProvider db.socialAccounts user.id .identity
  let _ ← found sa .userAccountMissingIdentity
  let u ← fetch fun db => User.get db.users.table user.id
  let u ← found u (.thrown .noUser)
  let u ← storeUser (u.locked site (r.callFor user.id)) r.now
  let _ ← User.syncAccountCode r.now u
  return r.resetCode

/-- `ResetPassword` (`api/action/User.scala:347–355`, `User.scala:248–278`). -/
def ResetPassword.code (site : Site) (r : ResetPassword) : AccountThread User := do
  let user ← fetch fun db => User.getByResetCode db.users.table r.resetCode
  let user ← found user (.thrown .invalidPasswordResetCode)
  let _ ← check (User.validatePassword r.newPassword)
  let user ← storeUser (user.unlocked site r) r.now
  let user ← User.syncAccountCode r.now user
  reply site r.now user

/-- `if (sa != null) { SocialAccounts.upsert(sa) }`. -/
def AccountThread.storeIfAny (sa : Option SocialAccount) (now : Int) :
    AccountThread (Option SocialAccount) :=
  match sa with
  | none => return none
  | some sa => some <$> storeSocialAccount sa now

namespace UpdateUserProfile

/-- Behind the user's row: the friendly id, the account, and the reply. -/
def finishCode (site : Site) (sa : Option SocialAccount) (now : Int) (u : User) :
    AccountThread User := do
  let _ ← friendlyId site u now
  let _ ← storeIfAny sa now
  reply site now u

/-- The writes at the end (`api/action/User.scala:456–466`). -/
def writeBackCode (site : Site) (u : User) (sa : Option SocialAccount) (now : Int) :
    AccountThread User := do
  let u ← storeUser u now
  finishCode site sa now u

/-- `UpdateUserProfile` (`api/action/User.scala:376–474`). -/
def code (site : Site) (who : Presented) (r : UpdateUserProfile) : AccountThread User := do
  let user ← fetch fun db => caller db who
  let u ← found user (.thrown .unauthorized)
  let email ← check (validated User.validateEmail r.email)
  let username ← check (validated User.validateUserName r.username)
  let password ← check (validated User.validatePassword r.password)
  let _ ← createOrUpdateProfile (r.profile u) r.now
  let sa ← fetch fun db => SocialAccount.getByUserIdAndProvider db.socialAccounts u.id .identity
  let (u, sa) := r.changed site email username password u sa
  writeBackCode site u sa r.now

end UpdateUserProfile

/-! ## All of them -/

/-- A request of the user API that writes to the account tables. -/
inductive AccountRequest where
  | createAccount (r : UserCreateAccount)
  | login (r : UserLoginWithProvider)
  | generateReset (r : GeneratePasswordResetcode)
  | reset (r : ResetPassword)
  | updateProfile (who : Presented) (r : UpdateUserProfile)

namespace AccountRequest

/-- The thread that serves the request. -/
def code (site : Site) : AccountRequest → AccountThread AccountReply
  | .createAccount r => .login <$> r.code site
  | .login r => .login <$> r.code site
  | .generateReset r => .resetCode <$> r.code site
  | .reset r => .login <$> r.code site
  | .updateProfile who r => .user <$> r.code site who

/-- The action it is. -/
def call : AccountRequest → AccountCall
  | .createAccount r => .createAccount r
  | .login r => .login r
  | .generateReset r => .generateReset r
  | .reset r => .reset r
  | .updateProfile who r => .updateProfile who r

end AccountRequest

/-! ## A thread that nobody interrupts -/

namespace AccountThread

section

variable {α β τ : Type} {db : Accounts} {a : α} {f : α → AccountThread β}

theorem run_check_ok {x : Except Failure α} (h : x = .ok a) :
    (check x >>= f).run db = (f a).run db := by
  rw [h]
  rfl

theorem run_found_some {o : Option α} {e : ActionFailure} (h : o = some a) :
    (found o e >>= f).run db = (f a).run db := by
  rw [h]
  rfl

theorem run_found_none {o : Option α} {e : ActionFailure} (h : o = none) :
    (found o e >>= f).run db = (db, .error e) := by
  rw [h]
  rfl

variable {save : Accounts → Except Failure (τ × α)} {set : Accounts → τ → Accounts}

/-- A save that goes through replaces one table of the store, by `set`. -/
theorem run_saving_ok {t : τ} (h : save db = .ok (t, a)) :
    (saving save set).run db = (set db t, .ok a) := by
  refine run_commit_ok ?_
  rw [h]
  rfl

/-- A save that is refused leaves all tables and throws. -/
theorem run_saving_error {e : Failure} (h : save db = .error e) :
    (saving save set).run db = (db, .error (.thrown e)) := by
  refine run_commit_error ?_
  rw [h]
  rfl

end

section

variable {db : Accounts} {now : Int} {e : Failure}

theorem run_storeUser_ok {u saved : User} {users : Users}
    (h : db.users.save u now = .ok (users, saved)) :
    (storeUser u now).run db = ({ db with users }, .ok saved) :=
  run_saving_ok h

theorem run_storeUser_error {u : User} (h : db.users.save u now = .error e) :
    (storeUser u now).run db = (db, .error (.thrown e)) :=
  run_saving_error h

theorem run_storeSocialAccount_ok {sa saved : SocialAccount}
    {socialAccounts : Table SocialAccount}
    (h : SocialAccount.save db.socialAccounts sa now = .ok (socialAccounts, saved)) :
    (storeSocialAccount sa now).run db = ({ db with socialAccounts }, .ok saved) :=
  run_saving_ok h

theorem run_storeSocialAccount_error {sa : SocialAccount}
    (h : SocialAccount.save db.socialAccounts sa now = .error e) :
    (storeSocialAccount sa now).run db = (db, .error (.thrown e)) :=
  run_saving_error h

theorem run_storeProfile_ok {p saved : Profile} {profiles : Table Profile}
    (h : Profile.save db.profiles p now = .ok (profiles, saved)) :
    (storeProfile p now).run db = ({ db with profiles }, .ok saved) :=
  run_saving_ok h

theorem run_storeProfile_error {p : Profile} (h : Profile.save db.profiles p now = .error e) :
    (storeProfile p now).run db = (db, .error (.thrown e)) :=
  run_saving_error h

variable {provider : Provider} {userId : Int} {uid accessToken secretKey extra : JString}
  {given : Profile}

theorem run_createSocialAccount_ok {socialAccounts : Table SocialAccount} {sa : SocialAccount}
    (h : SocialAccount.create db.socialAccounts provider userId uid accessToken secretKey extra
      now = .ok (socialAccounts, sa)) :
    (createSocialAccount provider userId uid accessToken secretKey extra now).run db =
      ({ db with socialAccounts }, .ok sa) :=
  run_storeSocialAccount_ok h

theorem run_createSocialAccount_error
    (h : SocialAccount.create db.socialAccounts provider userId uid accessToken secretKey extra
      now = .error e) :
    (createSocialAccount provider userId uid accessToken secretKey extra now).run db =
      (db, .error (.thrown e)) :=
  run_storeSocialAccount_error h

theorem run_createOrUpdateProfile_ok {profiles : Table Profile} {p : Profile}
    (h : Profile.createOrUpdate db.profiles given now = .ok (profiles, p)) :
    (createOrUpdateProfile given now).run db = ({ db with profiles }, .ok p) := by
  unfold Profile.createOrUpdate at h
  exact run_storeProfile_ok h

theorem run_createOrUpdateProfile_error
    (h : Profile.createOrUpdate db.profiles given now = .error e) :
    (createOrUpdateProfile given now).run db = (db, .error (.thrown e)) := by
  unfold Profile.createOrUpdate at h
  exact run_storeProfile_error h

end

/-- The friendly id that is generated for a user. -/
theorem run_friendlyId (site : Site) (db : Accounts) (u : User) (now : Int) :
    (friendlyId site u now).run db = (u.generateFriendlyId site db now,
      .ok (FriendlyId.generate site.unicode db.friendlyIds FriendlyId.userModel u.id u.userName
        now).2) := by
  unfold User.generateFriendlyId FriendlyId.generate
  -- the two queries have seen the same table
  have hrow : FriendlyId.entry site.unicode db.friendlyIds FriendlyId.userModel u.id u.userName
      now =
      { id := ((db.friendlyIds.fetchOne fun fi =>
          fi.model == FriendlyId.userModel && fi.modelId == u.id).map FriendlyId.id).getD 0
        model := FriendlyId.userModel
        modelId := u.id
        hash :=
          FriendlyId.finalHash site.unicode db.friendlyIds FriendlyId.userModel u.id u.userName
        createdAt := some now
        updatedAt := some now } := by
    unfold FriendlyId.entry
    cases db.friendlyIds.fetchOne fun fi =>
      fi.model == FriendlyId.userModel && fi.modelId == u.id <;> rfl
  rw [hrow]
  rfl

end AccountThread

/-! ## Action by action -/

section

variable (site : Site) (db : Accounts)

/-- A reply stores a friendly id for the user and shows the row as it was. -/
theorem run_reply (now : Int) (u : User) :
    (reply site now u).run db = (u.generateFriendlyId site db now, .ok u) := by
  unfold reply
  rw [run_bind_ok (run_friendlyId ..)]
  rfl

/-- Alone, a login with a password is the check of the password and the reply. -/
theorem run_loginCode (username password : JString) (now : Int) :
    (User.loginCode site username password now).run db =
      replied site now (User.checkLogin site db username password now) := by
  unfold User.loginCode User.checkLogin
  rw [run_fetch_bind]
  cases hfound : User.findLogin site db username password with
  | none => rfl
  | some u =>
    rw [run_found_some rfl]
    dsimp only
    cases hsave : db.users.save (u.touched now) now with
    | error e => exact run_bind_error (run_storeUser_error hsave)
    | ok res => rw [run_bind_ok (run_storeUser_ok hsave), run_reply, replied]

/-- The two writes of both parts of a reset. -/
theorem run_credentialsCode (u : User) (now : Int) :
    (do
      let u ← storeUser u now
      User.syncAccountCode now u : AccountThread User).run db =
      ((User.saveCredentials db u now).1, (User.saveCredentials db u now).2.mapError .thrown) := by
  unfold User.syncAccountCode User.saveCredentials
  cases hsave : db.users.save u now with
  | error e => exact run_bind_error (run_storeUser_error hsave)
  | ok res =>
    obtain ⟨users, u'⟩ := res
    rw [run_bind_ok (run_storeUser_ok hsave), run_fetch_bind]
    dsimp only
    cases hsa : SocialAccount.getByUserIdAndProvider db.socialAccounts u'.id .identity with
    | none => rfl
    | some sa =>
      dsimp only
      cases hlink : SocialAccount.save db.socialAccounts (sa.withSecretKey u'.password) now with
      | error e => exact run_bind_error (run_storeSocialAccount_error hlink)
      | ok res' => exact run_bind_ok (run_storeSocialAccount_ok hlink)

/-- What is done with the user after them. -/
theorem run_credentialsCode_bind {α : Type} {u : User} {now : Int} {f : User → AccountThread α}
    {db' : Accounts} {res : Except Failure User}
    (h : User.saveCredentials db u now = (db', res)) :
    (storeUser u now >>= fun u => User.syncAccountCode now u >>= f).run db =
      match res with
      | .error e => (db', .error (.thrown e))
      | .ok u => (f u).run db' := by
  have hsaved := run_credentialsCode db u now
  rw [h] at hsaved
  rw [← bind_bind]
  cases res with
  | error e => exact run_bind_error hsaved
  | ok u => exact run_bind_ok hsaved

/-- Alone, a request for a reset code looks up the email, the account and the user and then writes
both rows, as the action does in one go. -/
theorem run_generateReset (r : GeneratePasswordResetcode) :
    (r.code site).run db = r.execute site db := by
  unfold GeneratePasswordResetcode.code GeneratePasswordResetcode.execute User.generateResetCode
  rw [run_fetch_bind]
  cases hemail : User.getByEmail db.users.table r.email with
  | none => rfl
  | some user =>
    rw [run_found_some rfl, run_fetch_bind]
    dsimp only
    cases hsa : SocialAccount.getByUserIdAndProvider db.socialAccounts user.id .identity with
    | none => rfl
    | some sa =>
      rw [run_found_some rfl, run_fetch_bind]
      dsimp only
      cases hget : User.get db.users.table (r.callFor user.id).userId with
      | none => exact run_found_none hget
      | some u =>
        refine (run_found_some hget).trans ?_
        dsimp only
        cases hres : User.saveCredentials db (u.locked site (r.callFor user.id))
            (r.callFor user.id).now with
        | mk db' res =>
          refine (run_credentialsCode_bind db hres).trans ?_
          cases res <;> rfl

/-- Alone, a reset finds the user by the code, checks the new password and writes both rows. -/
theorem run_reset (r : ResetPassword) : (r.code site).run db = r.execute site db := by
  unfold ResetPassword.code ResetPassword.execute User.resetPassword
  rw [run_fetch_bind]
  cases hcode : User.getByResetCode db.users.table r.resetCode with
  | none => rfl
  | some u =>
    rw [run_found_some rfl]
    dsimp only
    cases hpassword : User.validatePassword r.newPassword with
    | error e => rfl
    | ok password =>
      rw [run_check_ok rfl]
      dsimp only
      cases hres : User.saveCredentials db (u.unlocked site r) r.now with
      | mk db' res =>
        refine (run_credentialsCode_bind db hres).trans ?_
        cases res with
        | error e => rfl
        | ok u' => exact run_reply ..

/-- Alone, the end of a registration stores the profile, and then replies. -/
theorem run_introduce (r : UserCreateAccount) (u : User) :
    (r.introduceCode site u).run db = answered .thrown id (r.introduce site db u) := by
  unfold UserCreateAccount.introduceCode UserCreateAccount.introduce
  dsimp only
  cases hprofile : Profile.createOrUpdate db.profiles
      { userId := u.id, firstName := r.firstName, lastName := r.lastName
        profilePicture := UserCreateAccount.defaultPicture
        createdAt := some r.now, updatedAt := some r.now } r.now with
  | error e => exact run_bind_error (run_createOrUpdateProfile_error hprofile)
  | ok res =>
    rw [run_bind_ok (run_createOrUpdateProfile_ok hprofile), run_reply]
    rfl

/-- Alone, a registration checks, saves the user and the account and introduces the user; the
checks read the store it started on, since nothing has been written before them. -/
theorem run_createAccount (r : UserCreateAccount) :
    (r.code site).run db = answered .thrown id (r.execute site db) := by
  unfold UserCreateAccount.code UserCreateAccount.execute UserCreateAccount.register
  rw [run_fetch_bind]
  cases hpassword : User.validatePassword r.password with
  | error e => rfl
  | ok password =>
    rw [run_check_ok rfl]
    dsimp only
    cases hemail : User.validateEmail r.email with
    | error e => rfl
    | ok email =>
      rw [run_check_ok rfl, run_fetch_bind]
      unfold User.createIdentity
      dsimp only
      cases hknown : User.getByUserNameOrEmail db (r.userName site db) email with
      | some u => rfl
      | none =>
        cases hreserved : User.reserved.contains (r.userName site db) with
        | true => rfl
        | false =>
          dsimp only
          rw [if_neg (by simp), if_neg (by simp)]
          cases hsave : db.users.save
              (User.new site (r.userName site db) password email r.accessToken r.secretKey r.now)
              r.now with
          | error e => exact run_bind_error (run_storeUser_error hsave)
          | ok res =>
            obtain ⟨users, u⟩ := res
            rw [run_bind_ok (run_storeUser_ok hsave)]
            unfold UserCreateAccount.linkCode
            rw [run_bind_ok (run_friendlyId ..)]
            dsimp only
            -- the friendly id between the two writes is a write of its own, but not to the
            -- accounts
            have hsame : (u.generateFriendlyId site { db with users } r.now).socialAccounts =
                db.socialAccounts := rfl
            cases hlink : SocialAccount.create db.socialAccounts .identity u.id u.userName u.email
                (site.hashPassword password) [] r.now with
            | error e => exact run_bind_error (run_createSocialAccount_error (hsame ▸ hlink))
            | ok res' =>
              rw [run_bind_ok (run_createSocialAccount_ok (hsame ▸ hlink))]
              exact run_introduce ..

/-- Alone, the end of a profile update saves the user and, if there is one, the account. -/
theorem run_writeBack (u : User) (sa : Option SocialAccount) (now : Int) :
    (UpdateUserProfile.writeBackCode site u sa now).run db =
      answered .thrown id (UpdateUserProfile.writeBack site db u sa now) := by
  unfold UpdateUserProfile.writeBackCode UpdateUserProfile.writeBack UpdateUserProfile.finishCode
  cases hsave : db.users.save u now with
  | error e => exact run_bind_error (run_storeUser_error hsave)
  | ok res =>
    obtain ⟨users, u'⟩ := res
    rw [run_bind_ok (run_storeUser_ok hsave), run_bind_ok (run_friendlyId ..)]
    dsimp only
    cases sa with
    | none => exact (run_bind_ok rfl).trans (run_reply ..)
    | some sa =>
      -- as in a registration, the friendly id leaves the accounts as they are
      have hsame : (u'.generateFriendlyId site { db with users } now).socialAccounts =
          db.socialAccounts := rfl
      have hlinked := run_map some (storeSocialAccount sa now)
        (u'.generateFriendlyId site { db with users } now)
      dsimp only
      cases hlink : SocialAccount.save db.socialAccounts sa now with
      | error e =>
        rw [run_storeSocialAccount_error (hsame ▸ hlink)] at hlinked
        exact run_bind_error hlinked
      | ok res' =>
        rw [run_storeSocialAccount_ok (hsame ▸ hlink)] at hlinked
        exact (run_bind_ok hlinked).trans (run_reply ..)

/-- Alone, a profile update is the action on the caller that the store knows when the request
starts. -/
theorem run_updateProfile (who : Presented) (r : UpdateUserProfile) :
    (r.code site who).run db = answered .thrown id (r.execute site db (caller db who)) := by
  unfold UpdateUserProfile.code UpdateUserProfile.execute
  rw [run_fetch_bind]
  cases hcaller : caller db who with
  | none => rfl
  | some u =>
    rw [run_found_some rfl]
    dsimp only
    cases hemail : UpdateUserProfile.validated User.validateEmail r.email with
    | error e => rfl
    | ok email =>
      rw [run_check_ok rfl]
      cases husername : UpdateUserProfile.validated User.validateUserName r.username with
      | error e => rfl
      | ok username =>
        rw [run_check_ok rfl]
        cases hpassword : UpdateUserProfile.validated User.validatePassword r.password with
        | error e => rfl
        | ok password =>
          rw [run_check_ok rfl]
          dsimp only
          cases hprofile : Profile.createOrUpdate db.profiles (r.profile u) r.now with
          | error e => exact run_bind_error (run_createOrUpdateProfile_error hprofile)
          | ok res =>
            -- the profile is written before the user is read again
            rw [run_bind_ok (run_createOrUpdateProfile_ok hprofile), run_fetch_bind]
            exact run_writeBack ..

/-- Alone, a Facebook login writes the profile twice: `createOrUpdate`, and `save` under the id
that is found after it. -/
theorem run_saveProfileCode (l : FacebookLogin) (firstName lastName : JString) (userId : Int) :
    (l.saveProfileCode firstName lastName userId).run db =
      ({ db with profiles := (l.saveProfile firstName lastName db.profiles userId).1 },
        (l.saveProfile firstName lastName db.profiles userId).2.mapError .thrown) := by
  unfold FacebookLogin.saveProfileCode FacebookLogin.saveProfile
  rw [run_fetch_bind]
  cases hgiven : l.profile firstName lastName (Profile.getForUser db.profiles userId) userId with
  | error e => rfl
  | ok given =>
    rw [run_check_ok rfl]
    dsimp only
    cases hprofile : Profile.createOrUpdate db.profiles given l.now with
    | error e => exact run_bind_error (run_createOrUpdateProfile_error hprofile)
    | ok res =>
      obtain ⟨profiles, p⟩ := res
      rw [run_bind_ok (run_createOrUpdateProfile_ok hprofile), run_fetch_bind]
      dsimp only
      cases hsave : Profile.save profiles
          { p with id := ((Profile.getForUser profiles userId).map Profile.id).getD 0 } l.now with
      | error e => exact run_bind_error (run_storeProfile_error hsave)
      | ok res' => exact run_bind_ok (run_storeProfile_ok hsave)

/-- The account is refused, and that is the answer; user and profile have been saved before it. -/
theorem run_linkFacebook_error {l : FacebookLogin} {userId : Int} {e : Failure}
    (h : SocialAccount.create db.socialAccounts .facebook userId l.id l.token [] l.json l.now =
      .error e) :
    (l.linkCode site userId).run db = repliedFor site l.now (db, .error e) :=
  run_bind_error (run_createSocialAccount_error h)

/-- With the account linked, a Facebook login replies with the user it finds for it. -/
theorem run_linkFacebook_ok {l : FacebookLogin} {userId : Int}
    {socialAccounts : Table SocialAccount} {sa : SocialAccount}
    (h : SocialAccount.create db.socialAccounts .facebook userId l.id l.token [] l.json l.now =
      .ok (socialAccounts, sa)) :
    (l.linkCode site userId).run db =
      repliedFor site l.now ({ db with socialAccounts }, .ok sa) := by
  unfold FacebookLogin.linkCode repliedFor
  rw [run_bind_ok (run_createSocialAccount_ok h), run_fetch_bind]
  dsimp only
  cases hget : db.users.table.get sa.userId with
  | none => rfl
  | some user =>
    rw [run_found_some rfl]
    exact run_reply ..

/-- Alone, a Facebook login saves the user, then the profile, then the account. -/
theorem run_facebook (l : FacebookLogin) :
    (l.code site).run db = repliedFor site l.now (l.create site db) := by
  unfold FacebookLogin.code FacebookLogin.create FacebookLogin.createUser
  cases hfirst : l.firstName with
  | none => rfl
  | some firstName =>
    rw [run_found_some rfl]
    cases hlast : l.lastName with
    | none => rfl
    | some lastName =>
      rw [run_found_some rfl, run_fetch_bind, run_fetch_bind]
      dsimp only
      cases hsave : db.users.save (l.userRow (site.unicode.toLowerCase
          (firstName ++ jc '.' :: lastName)) (l.existingUser db)) l.now with
      | error e => exact run_bind_error (run_storeUser_error hsave)
      | ok res =>
        obtain ⟨users, u⟩ := res
        refine (run_bind_ok (run_storeUser_ok hsave)).trans ?_
        have hprofile := run_saveProfileCode { db with users } l firstName lastName u.id
        dsimp only at hprofile ⊢
        cases hres : l.saveProfile firstName lastName db.profiles u.id with
        | mk profiles res =>
          rw [hres] at hprofile
          cases res with
          -- the profile was refused: the user is saved, and no account will point to it
          | error e => exact run_bind_error hprofile
          | ok _ =>
            refine (run_bind_ok hprofile).trans ?_
            dsimp only
            cases hlink : SocialAccount.create db.socialAccounts .facebook u.id l.id l.token []
                l.json l.now with
            | error e => exact run_linkFacebook_error site _ hlink
            | ok res' => exact run_linkFacebook_ok site _ hlink

/-- Alone, a login is that of its provider. -/
theorem run_login (r : UserLoginWithProvider) : (r.code site).run db = r.execute site db := by
  cases r with
  | identity username password now => exact run_loginCode ..
  | facebook l => exact run_facebook site db l
  | facebookFails => rfl
  | other => rfl
  | noToken => rfl

theorem answered_map {α β : Type} (g : α → β) (p : Accounts × Except ActionFailure α) :
    (p.1, p.2.map g) = answered id g p := by
  rcases p with ⟨db, e | a⟩ <;> rfl

/-- Translating a failure and then the result is translating both. -/
theorem answered_answered {ε α β : Type} (f : ε → ActionFailure) (g : α → β)
    (p : Accounts × Except ε α) : answered id g (answered f id p) = answered f g p := by
  rcases p with ⟨db, e | a⟩ <;> rfl

/-- **A request that nobody interrupts** does what its action does. This ties the threads, which
read and write one step at a time, to the functions of the sequential model. -/
theorem AccountRequest.run_code (r : AccountRequest) :
    (r.code site).run db = r.call.execute site db := by
  cases r with
  | createAccount r =>
    refine (run_map ..).trans ?_
    rw [run_createAccount, answered_map, answered_answered]
    rfl
  | login r =>
    refine (run_map ..).trans ?_
    rw [run_login, answered_map]
    rfl
  | generateReset r =>
    refine (run_map ..).trans ?_
    rw [run_generateReset, answered_map]
    rfl
  | reset r =>
    refine (run_map ..).trans ?_
    rw [run_reset, answered_map]
    rfl
  | updateProfile who r =>
    refine (run_map ..).trans ?_
    rw [run_updateProfile, answered_map, answered_answered]
    rfl

/-- **Calls one after the other** are among the interleavings: requests that do not overlap take
the store where the calls take it. -/
theorem exists_exec_sequential (rs : List AccountRequest) :
    ∀ p : Pool Accounts ActionFailure AccountReply,
      ∃ run p', Run.exec (Pool.step (AccountRequest.code site)) p run = some p' ∧
        run.filterMap Move.started = rs ∧
        Run.exec (AccountCall.step site) p.store (rs.map AccountRequest.call) = some p'.store := by
  induction rs with
  | nil => exact fun p => ⟨[], p, rfl, rfl, rfl⟩
  | cons r rs ih =>
    intro p
    -- the request gets all turns until it is done
    obtain ⟨n, hserved⟩ := exists_exec_served (AccountRequest.code site) r p
    rw [AccountRequest.run_code] at hserved
    obtain ⟨run, p', hrun, hstarted, hcalls⟩ := ih _
    refine ⟨_, p', Run.exec_append.mpr ⟨_, hserved, hrun⟩, ?_, ?_⟩
    · rw [List.filterMap_append, hstarted]
      simp [Move.started]
    · exact Run.exec_cons.mpr ⟨_, rfl, hcalls⟩

end

end Maiden
