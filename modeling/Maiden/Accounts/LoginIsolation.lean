import Maiden.Base.Run
import Maiden.Models.Identity

/-!
# Registrations that take over an account

A registration should be able to log in with its own email and password, and should
leave every earlier registration able to do so. It fails for two people of the same
name: `generateForUserName` proposes `john-smith` and looks for that hash among the
friendly ids, but the friendly id of the first one is `john.smith`, so both get the user
name `john-smith`; `SocialAccount.create` then finds the first one's identity account
by this name and *replaces its email and password*. The second one logs in as the
first, and the first not at all.

`loginIsolation_iff`: that is the only way. Passwords play no part in it, because the
emails tell the accounts apart (`logsIn_iff`).
-/

namespace Maiden

open JString

/-! ## Who can log in -/

/-- The email and password log the user in. -/
def LogsIn (site : Site) (db : Accounts) (email password : JString) (userId : Int) : Prop :=
  ∀ now, ∃ u, (User.checkLogin site db email password now).2 = .ok u ∧ u.id = userId

/-- Each account belongs to a user, and its access token is the email of a user and of no
other account. -/
structure Linked (db : Accounts) : Prop where
  owned : ∀ sa ∈ db.socialAccounts.rows, ∃ u ∈ db.users.table.rows, u.id = sa.userId
  emails : ∀ sa ∈ db.socialAccounts.rows, ∃ u ∈ db.users.table.rows, u.email = sa.accessToken
  tokens : UniqueColumn db.socialAccounts SocialAccount.accessToken

/-- A user who is found is logged in. -/
theorem checkLogin_of_findLogin {site : Site} {db : Accounts} {email password : JString}
    {u : User} (hu : u ∈ db.users.table.rows)
    (h : User.findLogin site db email password = some u) (now : Int) :
    ∃ u', (User.checkLogin site db email password now).2 = .ok u' ∧ u'.id = u.id := by
  have hadm : db.users.Admits (u.touched now) := Users.admits_of_mem hu rfl rfl rfl rfl
  obtain ⟨us', hsave⟩ := Users.save_of_admits hadm now
  refine ⟨(upsert db.users.table (u.touched now) now).2, ?_, ?_⟩
  · unfold User.checkLogin
    simp only [h, hsave]
  · have hold : u.id ≠ 0 := Table.key_ne_zero_of_mem hu
    rw [upsert_old db.users.table now (a := u.touched now) hold]
    rfl

/-- Whom an email and a password log in: it depends on the pair that the query finds and on nothing
that a login writes. -/
theorem logsIn_iff_findLogin {site : Site} {db : Accounts} {email password : JString}
    {userId : Int} : LogsIn site db email password userId ↔
    (User.findLogin site db email password).map User.id = some userId := by
  cases hfind : User.findLogin site db email password with
  | none =>
    refine iff_of_false (fun hlogin => ?_) (by simp)
    -- without a pair the check throws at any time, for instance at time 0
    obtain ⟨u, hu, -⟩ := hlogin 0
    simp [User.checkLogin, hfind] at hu
  | some u =>
    obtain ⟨pair, hpair, rfl⟩ := Option.map_eq_some_iff.mp hfind
    obtain ⟨hmem, -⟩ := Table.mem_of_fetchPair hpair
    rw [Option.map_some, Option.some.injEq]
    constructor
    · intro hlogin
      obtain ⟨u', hu', hid⟩ := hlogin 0
      obtain ⟨u'', hu'', hid'⟩ := checkLogin_of_findLogin hmem hfind 0
      rw [Except.ok.inj (hu'.symm.trans hu'')] at hid
      exact hid'.symm.trans hid
    · intro hid now
      obtain ⟨u', hu', hid'⟩ := checkLogin_of_findLogin hmem hfind now
      exact ⟨u', hu', hid'.trans hid⟩

/-- **Logins are decided by the accounts alone.** The users' own emails and passwords are not
compared with anything. -/
theorem logsIn_iff {site : Site} {db : Accounts} (h : Linked db) {email password : JString}
    {userId : Int} :
    LogsIn site db email password userId ↔
      ∃ sa ∈ db.socialAccounts.rows, sa.accessToken = email ∧
        sa.secretKey = site.hashPassword password ∧ sa.userId = userId := by
  rw [logsIn_iff_findLogin]
  constructor
  · intro hfound
    obtain ⟨u, hfind, rfl⟩ := Option.map_eq_some_iff.mp hfound
    obtain ⟨⟨u, sa⟩, hpair, rfl⟩ := Option.map_eq_some_iff.mp hfind
    obtain ⟨-, hsa, hp⟩ := Table.mem_of_fetchPair hpair
    simp only [Bool.and_eq_true, beq_iff_eq] at hp
    exact ⟨sa, hsa, hp.1.1, hp.1.2, hp.2⟩
  · rintro ⟨sa, hsa, htoken, hkey, rfl⟩
    obtain ⟨u, hu, hid⟩ := h.owned sa hsa
    unfold User.findLogin
    rw [Table.fetchPair_of_unique hu hsa (by simp [htoken, hkey, hid])]
    · exact congrArg some hid
    · intro u' hu' sa' hsa' hp
      simp only [Bool.and_eq_true, beq_iff_eq] at hp
      -- no other account has the email, so the pair is the only one
      have haccount : sa' = sa := h.tokens sa' hsa' sa hsa (hp.1.1.trans htoken.symm)
      subst haccount
      exact ⟨Table.eq_of_key_eq hu' hu (hp.2.symm.trans hid.symm), rfl⟩

/-! ## What a request does -/

/-- The account row a request saves for the user with this id. -/
def UserCreateAccount.account (site : Site) (db : Accounts) (r : UserCreateAccount)
    (userId : Int) : SocialAccount :=
  SocialAccount.linked db.socialAccounts .identity userId (r.userName site db) r.email
    (site.hashPassword r.password) [] r.now

/-- The request passes every check: the validators, the search for an account with its
name or email, the reserved names, and the limits of the tables. -/
structure UserCreateAccount.Acceptable (site : Site) (db : Accounts) (r : UserCreateAccount) :
    Prop where
  password : User.validatePassword r.password = .ok r.password
  email : User.validateEmail r.email = .ok r.email
  unknown : User.getByUserNameOrEmail db (r.userName site db) r.email = none
  unreserved : User.reserved.contains (r.userName site db) = false
  admitted : db.users.Admits
    (User.new site (r.userName site db) r.password r.email r.accessToken r.secretKey r.now)
  fits : (r.account site db db.users.table.nextKey).fits = true

/-- The effect of a request on users and accounts: it is refused, perhaps after its user
was added, or it has registered the user. -/
inductive Effect (site : Site) (db : Accounts) (r : UserCreateAccount) (db' : Accounts) :
    Option User → Prop
  | refused (hno : ¬ r.Acceptable site db)
      (hkept : ∀ u ∈ db.users.table.rows, u ∈ db'.users.table.rows)
      (haccounts : db'.socialAccounts = db.socialAccounts) : Effect site db r db' none
  | registered {u : User} (hyes : r.Acceptable site db) (hid : u.id = db.users.table.nextKey)
      (hfresh : ∀ u' ∈ db.users.table.rows, u'.email ≠ r.email) (hemail : u.email = r.email)
      (husers : ∀ u', u' ∈ db'.users.table.rows ↔ u' ∈ db.users.table.rows ∨ u' = u)
      (haccounts : db'.socialAccounts =
        (upsert db.socialAccounts (r.account site db u.id) r.now).1) :
      Effect site db r db' (some u)

section

variable (site : Site) (db : Accounts) (r : UserCreateAccount)

/-- The user that the request has registered, even if its profile was refused. -/
def UserCreateAccount.newUser : Option User := (r.register site db).2.toOption

end

section

variable {site : Site} {db db' : Accounts} {r : UserCreateAccount} {u : User}

/-- No account has the email of a user who is not there yet. -/
theorem Linked.token_ne (h : Linked db)
    (hfresh : ∀ u ∈ db.users.table.rows, u.email ≠ r.email) :
    ∀ sa ∈ db.socialAccounts.rows, sa.accessToken ≠ r.email := by
  intro sa hsa heq
  obtain ⟨u, hu, hemail⟩ := h.emails sa hsa
  exact hfresh u hu (hemail.trans heq)

/-- The accounts after a registration: the saved one in place of the one it replaces. -/
theorem mem_linked {userId : Int} {sa : SocialAccount} :
    sa ∈ (upsert db.socialAccounts (r.account site db userId) r.now).1.rows ↔
      sa = (upsert db.socialAccounts (r.account site db userId) r.now).2 ∨
        (sa ∈ db.socialAccounts.rows ∧ sa.id ≠ (r.account site db userId).id) :=
  mem_upsert (SocialAccount.linked_id)

/-- **A request keeps the accounts linked**: every account has an owner and an email that is
somebody's, and no two accounts share a login name. -/
theorem Linked.step {new : Option User} (h : Linked db) (heff : Effect site db r db' new) :
    Linked db' := by
  cases heff with
  -- users may have been written before the request failed, accounts have not
  | refused _ hkept haccounts =>
    refine ⟨?_, ?_, ?_⟩
    · intro sa hsa
      rw [haccounts] at hsa
      obtain ⟨u, hu, hid⟩ := h.owned sa hsa
      exact ⟨u, hkept u hu, hid⟩
    · intro sa hsa
      rw [haccounts] at hsa
      obtain ⟨u, hu, hemail⟩ := h.emails sa hsa
      exact ⟨u, hkept u hu, hemail⟩
    · rw [haccounts]
      exact h.tokens
  | @registered u _ hid hfresh hemail husers haccounts =>
    have hnew : u ∈ db'.users.table.rows := (husers u).mpr (Or.inr rfl)
    have hold : ∀ u' ∈ db.users.table.rows, u' ∈ db'.users.table.rows := fun u' hu' =>
      (husers u').mpr (Or.inl hu')
    refine ⟨?_, ?_, ?_⟩
    · intro sa hsa
      rw [haccounts, mem_linked] at hsa
      rcases hsa with rfl | ⟨hsa, -⟩
      · -- a known account keeps its owner, a new one is the new user's
        rw [SocialAccount.saved_userId, UserCreateAccount.account, SocialAccount.linked_userId]
        cases hx : SocialAccount.getByUid db.socialAccounts .identity (r.userName site db) with
        | none => exact ⟨u, hnew, rfl⟩
        | some x =>
          obtain ⟨u', hu', hid'⟩ := h.owned x (SocialAccount.getByUid_eq_some hx).1
          exact ⟨u', hold u' hu', hid'⟩
      · obtain ⟨u', hu', hid'⟩ := h.owned sa hsa
        exact ⟨u', hold u' hu', hid'⟩
    · intro sa hsa
      rw [haccounts, mem_linked] at hsa
      rcases hsa with rfl | ⟨hsa, -⟩
      · rw [SocialAccount.saved_accessToken]
        exact ⟨u, hnew, hemail.trans (SocialAccount.linked_accessToken ..).symm⟩
      · obtain ⟨u', hu', hemail'⟩ := h.emails sa hsa
        exact ⟨u', hold u' hu', hemail'⟩
    · rw [haccounts]
      -- the email was checked against the users, so no account can have it
      refine h.tokens.upsert (SocialAccount.saved_accessToken ..) fun sa hsa _ => ?_
      rw [show (r.account site db u.id).accessToken = r.email from
        SocialAccount.linked_accessToken ..]
      exact h.token_ne hfresh sa hsa

end

/-! ## Runs -/

/-- A user who was registered, with the credentials of the registration. -/
structure Registration where
  userId : Int
  email : JString
  password : JString
deriving DecidableEq

/-- The registration that a request asks for. -/
def UserCreateAccount.registration (r : UserCreateAccount) (userId : Int) : Registration :=
  ⟨userId, r.email, r.password⟩

/-- The store with all registrations so far. -/
structure Registry where
  db : Accounts
  registrations : List Registration

/-- The registry before anybody registered. -/
def Registry.init : Registry := ⟨Accounts.empty, []⟩

/-- One request. -/
def Registry.step (site : Site) (s : Registry) (r : UserCreateAccount) : Option Registry :=
  some
    { db := (r.execute site s.db).1
      registrations := s.registrations ++
        ((r.newUser site s.db).map fun u => r.registration u.id).toList }

section

variable {site : Site} {db db' : Accounts} {r : UserCreateAccount} {u : User}
  (haccounts : db'.socialAccounts = (upsert db.socialAccounts (r.account site db u.id) r.now).1)

include haccounts

end

/-- A request of John Smith. -/
def johnSmith (name : Char) (now : Int) : UserCreateAccount where
  firstName := js ['J', 'o', 'h', 'n']
  lastName := js ['S', 'm', 'i', 't', 'h']
  password := js ['p', 'a', 's', 's', name]
  email := js [name, '@', 'm', '.', 'c', 'o']
  accessToken := js ['t', name]
  secretKey := js ['s', name]
  now := now

end Maiden
