import Maiden.Accounts.LoginIsolation
import Maiden.Models.ProfileUpdate

/-!
# Does a profile update take effect?

After `UpdateUserProfile` the user should have the email, the user name and the password that
were given, and the rest as before, and should be able to log in with them. But the request
never looks at the three: the values that the validators return are strings, and the code
waits for `Some` of a string (`UpdateUserProfile.changed_eq`). So a request leaves everything
that a login reads as it is (`sameLogins_execute`), whatever it is given, and replies as if all
were well.

`profileUpdate_iff`: the update takes effect if and only if there was nothing to do.
-/

namespace Maiden

/-! ## What a login reads -/

/-- The columns of a user that a profile update should change, with the id. -/
def User.credentials (u : User) : Int × JString × JString × JString :=
  (u.id, u.email, u.userName, u.password)

/-- The columns of an account that a login reads. -/
def SocialAccount.credentials (sa : SocialAccount) : JString × JString × Int :=
  (sa.accessToken, sa.secretKey, sa.userId)

/-- Users and accounts have the same credentials in both stores. -/
structure SameLogins (db db' : Accounts) : Prop where
  users : db'.users.table.rows.map User.credentials = db.users.table.rows.map User.credentials
  accounts : db'.socialAccounts.rows.map SocialAccount.credentials =
    db.socialAccounts.rows.map SocialAccount.credentials

theorem SameLogins.refl (db : Accounts) : SameLogins db db := ⟨rfl, rfl⟩

section

variable {site : Site} {db db' : Accounts} {email password : JString} {userId : Int}

/-- Logins depend on the credentials only, and on the order of the rows: the query takes the first
pair. -/
theorem SameLogins.logsIn_iff (h : SameLogins db db') :
    LogsIn site db' email password userId ↔ LogsIn site db email password userId := by
  -- the query sees a row through its credentials, so it may be asked about those instead
  have hfind : ∀ db : Accounts, (User.findLogin site db email password).map User.id =
      ((List.product (db.users.table.rows.map User.credentials)
        (db.socialAccounts.rows.map SocialAccount.credentials)).find? fun c =>
          c.2.1 == email && c.2.2.1 == site.hashPassword password && c.2.2.2 == c.1.1).map
            fun c => c.1.1 := by
    intro db
    have hpair := Table.map_fetchPair db.users.table db.socialAccounts User.credentials
      SocialAccount.credentials fun u sa =>
        sa.1 == email && sa.2.1 == site.hashPassword password && sa.2.2 == u.1
    rw [← hpair, Option.map_map]
    show Option.map _ (Option.map _ _) = _
    rw [Option.map_map]
    rfl
  rw [logsIn_iff_findLogin, logsIn_iff_findLogin, hfind db, hfind db', h.users, h.accounts]

end

/-! ## What a request writes -/

section

variable {db : Accounts} {u : User}

/-- Writing back a user with the same credentials, and an account as it is stored. -/
theorem sameLogins_writeBack (site : Site) (profiles : Table Profile) {u' : User}
    {sa : Option SocialAccount} (hu : u ∈ db.users.table.rows)
    (h : u'.credentials = u.credentials) (hsa : ∀ a ∈ sa, a ∈ db.socialAccounts.rows)
    (now : Int) :
    SameLogins db (UpdateUserProfile.writeBack site { db with profiles } u' sa now).1 := by
  unfold UpdateUserProfile.writeBack
  dsimp only
  cases hsave : db.users.save u' now with
  -- the user is refused, and the account is not reached
  | error e => exact ⟨rfl, rfl⟩
  | ok saved =>
    obtain ⟨users, u''⟩ := saved
    have husers : users.table.rows.map User.credentials =
        db.users.table.rows.map User.credentials := by
      rw [(Users.save_eq_ok hsave).2.1]
      exact map_upsert_stored User.credentials hu (congrArg Prod.fst h) h
    cases sa with
    | none => exact ⟨husers, rfl⟩
    | some sa =>
      dsimp only
      cases haccount : SocialAccount.save db.socialAccounts sa now with
      | error e => exact ⟨husers, rfl⟩
      | ok linked =>
        refine ⟨husers, ?_⟩
        show linked.1.rows.map _ = _
        rw [(SocialAccount.save_eq_ok haccount).2.1]
        exact map_upsert_stored SocialAccount.credentials (hsa sa rfl) rfl rfl

/-- **No request changes a login**, or what could be changed of one: the user is written back with
the columns of before, and so is the account. -/
theorem sameLogins_execute (site : Site) (r : UpdateUserProfile) (hu : u ∈ db.users.table.rows) :
    SameLogins db (r.execute site db (some u)).1 := by
  unfold UpdateUserProfile.execute
  dsimp only
  split
  · split
    · exact .refl db
    · rw [UpdateUserProfile.changed_eq]
      refine sameLogins_writeBack site _ hu ?_ ?_ r.now
      · rfl
      · exact fun a ha => (Table.mem_of_fetchOne ha).1
  all_goals exact .refl db

/-- The user's row afterwards. -/
theorem get_execute (site : Site) (r : UpdateUserProfile) (hu : u ∈ db.users.table.rows) :
    ∃ u', (r.execute site db (some u)).1.users.table.get u.id = some u' ∧
      u'.credentials = u.credentials := by
  have hsame := (sameLogins_execute site r hu).users
  obtain ⟨u', hu', hcred⟩ := List.mem_map.mp (hsame ▸ List.mem_map_of_mem hu)
  exact ⟨u', Table.get_eq_some_iff.mpr ⟨hu', congrArg Prod.fst hcred⟩, hcred⟩

end

/-! ## The update -/

/-- The password that the user should have after the request: the given one, or one that the
stored hash is of. -/
def UpdateUserProfile.IsPassword (site : Site) (r : UpdateUserProfile) (u : User)
    (password : JString) : Prop :=
  r.password = some password ∨ (r.password = none ∧ site.hashPassword password = u.password)

/-- The update has taken effect, and only where asked. -/
structure UpdateUserProfile.TakesEffect (site : Site) (r : UpdateUserProfile) (u : User)
    (db' : Accounts) (u' : User) : Prop where
  stored : db'.users.table.get u.id = some u'
  email : u'.email = r.email.getD u.email
  userName : u'.userName = r.username.getD u.userName
  password : u'.password = (r.password.map site.hashPassword).getD u.password
  login : ∀ password, r.IsPassword site u password → LogsIn site db' u'.email password u.id

/-- What is given is what is stored already, and the user can log in. -/
structure UpdateUserProfile.NothingToDo (site : Site) (r : UpdateUserProfile) (u : User)
    (db : Accounts) : Prop where
  email : ∀ email ∈ r.email, email = u.email
  userName : ∀ userName ∈ r.username, userName = u.userName
  password : ∀ password ∈ r.password, site.hashPassword password = u.password
  login : ∀ password, r.IsPassword site u password → LogsIn site db u.email password u.id

/-- A value that may be given is the stored one. -/
theorem eq_getD_iff {α : Type} {given : Option α} {stored : α} :
    stored = given.getD stored ↔ ∀ a ∈ given, a = stored := by
  cases given with
  | none => simp
  | some a => simp [eq_comm]

/-- **Profile updates.** For every store, every user in it and every request of that user, with
an identity account or without and whatever the validators say: the update takes effect if and
only if every given value is the stored one and the user could log in before. -/
theorem profileUpdate_iff {site : Site} {db : Accounts} {u : User} (r : UpdateUserProfile)
    (hu : u ∈ db.users.table.rows) :
    (∃ u', r.TakesEffect site u (r.execute site db (some u)).1 u') ↔ r.NothingToDo site u db := by
  -- the stored credentials are those of before, whatever was given: that is the whole argument
  obtain ⟨stored, hget, hcred⟩ := get_execute site r hu
  obtain ⟨-, hemail, hname, hpassword⟩ : stored.id = u.id ∧ stored.email = u.email ∧
      stored.userName = u.userName ∧ stored.password = u.password := by
    simpa [User.credentials] using hcred
  have hlogins := sameLogins_execute site r hu
  have hhash : u.password = (r.password.map site.hashPassword).getD u.password ↔
      ∀ password ∈ r.password, site.hashPassword password = u.password := by
    rw [eq_getD_iff]
    simp
  constructor
  · rintro ⟨u', h⟩
    obtain rfl : stored = u' := Option.some.inj (hget.symm.trans h.stored)
    refine ⟨eq_getD_iff.mp (hemail ▸ h.email), eq_getD_iff.mp (hname ▸ h.userName),
      hhash.mp (hpassword ▸ h.password), fun password hp => ?_⟩
    rw [← hlogins.logsIn_iff, ← hemail]
    exact h.login password hp
  · intro h
    refine ⟨stored, hget, hemail.trans (eq_getD_iff.mpr h.email),
      hname.trans (eq_getD_iff.mpr h.userName), hpassword.trans (hhash.mpr h.password),
      fun password hp => ?_⟩
    rw [hemail, hlogins.logsIn_iff]
    exact h.login password hp

/-- Bob, registered as `bob` with the password `pass`. -/
def bobRegistered : Accounts :=
  (User.createIdentity plainSite Accounts.empty (js ['b', 'o', 'b']) (js ['p', 'a', 's', 's'])
    (js ['b', '@', 'c', '.', 'd', 'e']) (js ['t']) (js ['k']) 0).1

/-- The row of `bobRegistered`. -/
def bob : User where
  id := 1
  userName := js ['b', 'o', 'b']
  password := js ['p', 'a', 's', 's']
  email := js ['b', '@', 'c', '.', 'd', 'e']
  accessToken := js ['t']
  secretKey := js ['k']
  createdAt := some 0
  updatedAt := some 0

/-- A request that gives the stored email and password, and a new bio. -/
def newBio : UpdateUserProfile where
  email := some (js ['b', '@', 'c', '.', 'd', 'e'])
  password := some (js ['p', 'a', 's', 's'])
  bio := some (js ['h', 'i'])
  now := 5

/-- A request that leaves the account as it is. -/
theorem profileUpdate_newBio :
    bob ∈ bobRegistered.users.table.rows ∧
      ∃ u', newBio.TakesEffect plainSite bob (newBio.execute plainSite bobRegistered (some bob)).1
        u' := by
  have hbob : bob ∈ bobRegistered.users.table.rows := by decide
  refine ⟨hbob, (profileUpdate_iff newBio hbob).mpr ⟨by decide, by decide, by decide, ?_⟩⟩
  rintro password (hgiven | ⟨hnone, -⟩)
  · obtain rfl := Option.some.inj hgiven
    rw [logsIn_iff_findLogin]
    decide
  · cases hnone

/-- A request that gives a new email. -/
def newEmail : UpdateUserProfile where
  email := some (js ['n', '@', 'c', '.', 'd', 'e'])
  now := 5

/-- A new email is accepted and not stored. -/
theorem new_email_dropped :
    SocialAccount.getByUserIdAndProvider bobRegistered.socialAccounts bob.id .identity ≠ none ∧
      (∀ email ∈ newEmail.email, User.validateEmail email = .ok email) ∧
      (newEmail.execute plainSite bobRegistered (some bob)).1.users.table.get 1 =
        some { bob with updatedAt := some 5 } ∧
      ¬ ∃ u', newEmail.TakesEffect plainSite bob
        (newEmail.execute plainSite bobRegistered (some bob)).1 u' := by
  have hafter : (newEmail.execute plainSite bobRegistered (some bob)).1.users.table.get 1 =
      some { bob with updatedAt := some 5 } := by decide
  refine ⟨by decide, by decide, hafter, ?_⟩
  rintro ⟨u', h⟩
  obtain rfl := Option.some.inj (hafter.symm.trans h.stored)
  exact absurd h.email (by decide)

end Maiden
