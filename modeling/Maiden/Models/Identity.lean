import Maiden.Models.Accounts

/-!
# Identity accounts (`data/models/User.scala`, `api/action/User.scala`)

Registration with an own password, and the login. `UserCreateAccount`
(`api/action/User.scala:235–265`) proposes a user name from the first and last name,
validates the password and the email, and calls `User.createIdentity`
(`User.scala:373–399`), which writes three tables, each in a transaction of its own:
the user, the friendly id, and an identity account with

- the *user name* as `uid`,
- the *email* as `accessToken`,
- the hashed password as `secretKey`.

`User.checkLogin` (`User.scala:445–470`) looks an account up by the last two.
-/

namespace Maiden

open JString

namespace User

/-- `User.scala:280–287`. There is no condition that relates the user to the account. -/
def getByUserNameOrEmail (db : Accounts) (userName email : JString) : Option User :=
  (db.users.table.fetchPair db.socialAccounts fun u sa =>
    (sa.accessToken == userName || u.email == email) && sa.provider == .identity).map Prod.fst

/-- `User.scala:334–343`. -/
def validatePassword (password : JString) : Except Failure JString :=
  if password.length < 4 || password.length > 20 then .error .invalidPassword else .ok password

/-- The characters of a label of a host name, `[-a-z0-9]`. -/
def isLabelChar (c : Nat) : Bool := c == jc '-' || isLower c || isAsciiDigit c

/-- The host part, `(?:[-a-z0-9]+\.)+[a-z]{2,}`: labels that end in dots and a last one of
two or more small letters. -/
def validHost (host : JString) : Bool :=
  match (host.splitOn (jc '.')).reverse with
  | top :: labels =>
    top.all isLower && 2 ≤ top.length && labels ≠ [] &&
      labels.all fun label => label ≠ [] && label.all isLabelChar
  | [] => false

/-- `User.scala:345–354`: `\A([^@\s]+)@((?:[-a-z0-9]+\.)+[a-z]{2,})\z`. -/
def validateEmail (email : JString) : Except Failure JString :=
  match email.splitOn (jc '@') with
  | [name, host] =>
    if name ≠ [] && name.all (fun c => !isSpace c) && validHost host then .ok email
    else .error .invalidEmail
  | _ => .error .invalidEmail

/-- `User.scala:356–359`. -/
def onlyValidChars (s : JString) : Bool :=
  s.all fun c => isLower c || isUpper c || isAsciiDigit c || c == jc '.'

/-- `User.scala:361–371`. The line of UserCreateAccount that called it is a comment. -/
def validateUserName (userName : JString) : Except Failure JString :=
  if userName.length < 3 || userName.length > 24 || !onlyValidChars userName then
    .error .invalidUserName
  else .ok userName

theorem validatePassword_eq_ok {password password' : JString}
    (h : validatePassword password = .ok password') : password' = password := by
  unfold validatePassword at h
  split at h
  · cases h
  · exact (Except.ok.inj h).symm

theorem validatePassword_eq_ok_iff {password : JString} :
    validatePassword password = .ok password ↔ 4 ≤ password.length ∧ password.length ≤ 20 := by
  unfold validatePassword
  split
  · next h =>
    rw [Bool.or_eq_true, decide_eq_true_iff, decide_eq_true_iff] at h
    exact iff_of_false (fun heq => nomatch heq) (by omega)
  · next h =>
    rw [Bool.or_eq_true, decide_eq_true_iff, decide_eq_true_iff] at h
    exact iff_of_true rfl (by omega)

theorem validateEmail_eq_ok {email email' : JString} (h : validateEmail email = .ok email') :
    email' = email := by
  unfold validateEmail at h
  split at h
  · split at h
    · exact (Except.ok.inj h).symm
    · cases h
  · cases h

theorem validateUserName_eq_ok_iff {userName : JString} :
    validateUserName userName = .ok userName ↔
      3 ≤ userName.length ∧ userName.length ≤ 24 ∧ onlyValidChars userName = true := by
  unfold validateUserName
  split
  · next h =>
    rw [Bool.or_eq_true, Bool.or_eq_true, decide_eq_true_iff, decide_eq_true_iff,
      Bool.not_eq_true'] at h
    refine iff_of_false (fun heq => nomatch heq) ?_
    rintro ⟨hlo, hhi, hchars⟩
    rw [hchars] at h
    rcases h with (h | h) | h
    · omega
    · omega
    · cases h
  · next h =>
    rw [Bool.or_eq_true, Bool.or_eq_true, decide_eq_true_iff, decide_eq_true_iff,
      Bool.not_eq_true', not_or, not_or, Bool.not_eq_false] at h
    exact iff_of_true rfl ⟨by omega, by omega, h.2⟩

/-- The names nobody may have (`User.scala:375–376`). -/
def reserved : List JString :=
  [js ['m', 'a', 'i', 'd', 'e', 'n'], js ['a', 'd', 'm', 'i', 'n'], js ['r', 'o', 'o', 't'],
   js ['c', 'r', 'e', 'a', 't', 'e'], js ['u', 'p', 'd', 'a', 't', 'e'],
   js ['d', 'e', 'l', 'e', 't', 'e'], js ['g', 'o', 'd']]

/-- The row of a new user. -/
def new (site : Site) (userName password email accessToken secretKey : JString) (now : Int) :
    User where
  userName := userName
  password := site.hashPassword password
  email := email
  accessToken := accessToken
  secretKey := secretKey
  createdAt := some now
  updatedAt := some now

/-- `User.scala:373–399`: the store afterwards, and the new user or the exception. The
tokens are random. -/
def createIdentity (site : Site) (db : Accounts)
    (userName password email accessToken secretKey : JString) (now : Int) :
    Accounts × Except Failure User :=
  match getByUserNameOrEmail db userName email with
  | some _ => (db, .error .userAlreadyExists)
  | none =>
    if reserved.contains userName then (db, .error .userAlreadyExists)
    else
      match db.users.save (User.new site userName password email accessToken secretKey now) now with
      | .error e => (db, .error e)
      | .ok (users, u) =>
        -- from here on the user exists, whatever happens next
        let friendlyIds :=
          (FriendlyId.generate site.unicode db.friendlyIds FriendlyId.userModel u.id u.userName
            now).1
        match SocialAccount.create db.socialAccounts .identity u.id u.userName u.email
            (site.hashPassword password) [] now with
        | .error e => ({ db with users, friendlyIds }, .error e)
        | .ok (socialAccounts, _) => ({ db with users, friendlyIds, socialAccounts }, .ok u)

section

variable (site : Site) (db : Accounts)
  (userName password email accessToken secretKey : JString) (now : Int)

/-- How `createIdentity` ends: it writes nothing; or the user and a friendly id, and then the
account is refused; or all three. -/
inductive CreateOutcome : Accounts × Except Failure User → Prop
  | refused (e : Failure)
      (hno : ¬ (getByUserNameOrEmail db userName email = none ∧
        reserved.contains userName = false ∧
        db.users.Admits (User.new site userName password email accessToken secretKey now))) :
      CreateOutcome (db, .error e)
  | unlinked (users : Users) (u : User) (e : Failure)
      (hsave : db.users.save (User.new site userName password email accessToken secretKey now)
        now = .ok (users, u))
      (hname : u.userName = userName)
      (haccount : SocialAccount.create db.socialAccounts .identity u.id userName email
        (site.hashPassword password) [] now = .error e) :
      CreateOutcome ({ db with
        users := users
        friendlyIds := (FriendlyId.generate site.unicode db.friendlyIds FriendlyId.userModel u.id
          u.userName now).1 }, .error e)
  | created (users : Users) (u : User) (socialAccounts : Table SocialAccount) (sa : SocialAccount)
      (hunknown : getByUserNameOrEmail db userName email = none)
      (hunreserved : reserved.contains userName = false)
      (hsave : db.users.save (User.new site userName password email accessToken secretKey now)
        now = .ok (users, u))
      (hname : u.userName = userName) (hemail : u.email = email)
      (haccount : SocialAccount.create db.socialAccounts .identity u.id userName email
        (site.hashPassword password) [] now = .ok (socialAccounts, sa)) :
      CreateOutcome ({ db with
        users := users
        friendlyIds := (FriendlyId.generate site.unicode db.friendlyIds FriendlyId.userModel u.id
          u.userName now).1
        socialAccounts := socialAccounts }, .ok u)

/-- Every call ends in one of these ways. -/
theorem createIdentity_outcome :
    CreateOutcome site db userName password email accessToken secretKey now
      (createIdentity site db userName password email accessToken secretKey now) := by
  unfold createIdentity
  cases hunknown : getByUserNameOrEmail db userName email with
  | some u =>
    refine .refused _ fun hfree => ?_
    cases hunknown.symm.trans hfree.1
  | none =>
    cases hreserved : reserved.contains userName with
    | true =>
      refine .refused _ fun hfree => ?_
      cases hreserved.symm.trans hfree.2.1
    | false =>
      dsimp only
      rw [if_neg Bool.false_ne_true]
      cases hsave : db.users.save
          (User.new site userName password email accessToken secretKey now) now with
      | error e => exact .refused e fun hfree => Users.save_eq_error hsave hfree.2.2
      | ok saved =>
        obtain ⟨users, u⟩ := saved
        obtain ⟨-, -, hu⟩ := Users.save_eq_ok hsave
        -- the account is linked under what has been stored, which is what was given
        have hemail : u.email = email := by
          rw [hu, Users.saved_email]
          rfl
        have hname : u.userName = userName := by
          rw [hu, upsert_saved User.userName (fun _ _ => rfl) (fun _ _ _ => rfl)]
          rfl
        dsimp only
        split
        · next e haccount =>
          rw [hname, hemail] at haccount
          exact .unlinked users u e hsave hname haccount
        · next socialAccounts sa haccount =>
          rw [hname, hemail] at haccount
          exact .created users u socialAccounts sa hunknown hreserved hsave hname hemail haccount

end

/-- The account and user that a login finds. -/
def findLogin (site : Site) (db : Accounts) (userName password : JString) : Option User :=
  (db.users.table.fetchPair db.socialAccounts fun u sa =>
    sa.accessToken == userName && sa.secretKey == site.hashPassword password &&
      sa.userId == u.id).map Prod.fst

/-- Who logs in has a row. -/
theorem findLogin_mem {site : Site} {db : Accounts} {userName password : JString} {u : User}
    (h : findLogin site db userName password = some u) : u ∈ db.users.table.rows := by
  obtain ⟨⟨u', sa⟩, hpair, rfl⟩ := Option.map_eq_some_iff.mp h
  exact (Table.mem_of_fetchPair hpair).1

/-- The row that a login writes back. -/
def touched (u : User) (now : Int) : User := { u with updatedAt := some now }

/-- `User.scala:445–470`. The login is recorded in `updatedAt`. -/
def checkLogin (site : Site) (db : Accounts) (userName password : JString) (now : Int) :
    Accounts × Except Failure User :=
  match findLogin site db userName password with
  | none => (db, .error .unauthorized)
  | some user =>
    match db.users.save (user.touched now) now with
    | .error e => (db, .error e)
    | .ok (users, u) => ({ db with users }, .ok u)

end User

/-! ## The action -/

/-- The parameters of UserCreateAccount, with what chance and the clock add. -/
structure UserCreateAccount where
  firstName : JString
  lastName : JString
  password : JString
  email : JString
  accessToken : JString
  secretKey : JString
  now : Int

namespace UserCreateAccount

/-- The user name that is proposed. -/
def userName (site : Site) (db : Accounts) (r : UserCreateAccount) : JString :=
  FriendlyId.generateForUserName site.unicode db.friendlyIds
    (r.firstName ++ jc '.' :: r.lastName)

/-- The first part: the user and its account are made (`api/action/User.scala:239–249`). -/
def register (site : Site) (db : Accounts) (r : UserCreateAccount) :
    Accounts × Except Failure User :=
  match User.validatePassword r.password with
  | .error e => (db, .error e)
  | .ok password =>
    match User.validateEmail r.email with
    | .error e => (db, .error e)
    | .ok email =>
      User.createIdentity site db (r.userName site db) password email r.accessToken r.secretKey
        r.now

/-- A validator throws, or the identity is created. -/
theorem register_cases (site : Site) (db : Accounts) (r : UserCreateAccount) :
    (∃ e, r.register site db = (db, .error e) ∧
      ¬ (User.validatePassword r.password = .ok r.password ∧
        User.validateEmail r.email = .ok r.email)) ∨
    (User.validatePassword r.password = .ok r.password ∧
      User.validateEmail r.email = .ok r.email ∧
      r.register site db = User.createIdentity site db (r.userName site db) r.password r.email
        r.accessToken r.secretKey r.now) := by
  unfold register
  cases hpassword : User.validatePassword r.password with
  | error e => exact Or.inl ⟨e, rfl, fun h => nomatch h.1⟩
  | ok password =>
    obtain rfl := User.validatePassword_eq_ok hpassword
    cases hemail : User.validateEmail r.email with
    | error e => exact Or.inl ⟨e, rfl, fun h => nomatch h.2⟩
    | ok email =>
      obtain rfl := User.validateEmail_eq_ok hemail
      exact Or.inr ⟨rfl, rfl, rfl⟩

/-- The picture of a user who has none. -/
def defaultPicture : JString :=
  js "https://s3-us-west-2.amazonaws.com/maiden-ventures/default/default_user.jpg".toList

/-- The second part: the profile, and the reply, for which `friendlyId` generates the
friendly id once more (`BaseTable.scala:96–102`). -/
def introduce (site : Site) (db : Accounts) (r : UserCreateAccount) (user : User) :
    Accounts × Except Failure User :=
  let given : Profile :=
    { userId := user.id, firstName := r.firstName, lastName := r.lastName
      profilePicture := defaultPicture, createdAt := some r.now, updatedAt := some r.now }
  match Profile.createOrUpdate db.profiles given r.now with
  | .error e => (db, .error e)
  | .ok (profiles, _) =>
    let friendlyIds :=
      (FriendlyId.generate site.unicode db.friendlyIds FriendlyId.userModel user.id user.userName
        r.now).1
    ({ db with profiles, friendlyIds }, .ok user)

/-- `api/action/User.scala:235–265`. -/
def execute (site : Site) (db : Accounts) (r : UserCreateAccount) :
    Accounts × Except Failure User :=
  match r.register site db with
  | (db', .error e) => (db', .error e)
  | (db', .ok user) => r.introduce site db' user

end UserCreateAccount

/-- A store in which somebody called ann has registered with a password. -/
def annRegistered : Accounts :=
  (User.createIdentity plainSite Accounts.empty (js ['a', 'n', 'n']) (js ['p', 'a', 's', 's'])
    (js ['a', '@', 'b', '.', 'c', 'o']) (js ['t']) (js ['k']) 0).1

end Maiden
