import Maiden.Accounts.PasswordReset
import Maiden.Accounts.Sessions

/-!
# The email is enough

`GeneratePasswordResetcode` is open to everybody and answers with the code that "needs to be
sent" to the user by mail; `ResetPassword` is open to everybody too and answers with a login.
The protocol between the two is sound (`Accounts/PasswordReset.lean`), but whoever asks for the
code gets it: two requests without any credential, made by somebody who knows the email of an
active user with an identity account, end in a session as that user, under a password of the
caller's choice, with the user's own session and password gone (`email_is_enough`).
-/

namespace Maiden

section

variable {site : Site} {db : Accounts} {u : User}

/-- The user with the email is found by it. -/
theorem getByEmail_of_mem (hu : u ∈ db.users.table.rows) :
    User.getByEmail db.users.table u.email = some u := by
  refine Table.fetchOne_of_unique hu (beq_self_eq_true _) fun u' hu' h => ?_
  exact db.users.email_unique u' hu' u hu (beq_iff_eq.mp h)

/-- The row that the two writes of a reset return. -/
theorem saveCredentials_saved {db' : Accounts} {saved : User} {now : Int} (hid : u.id ≠ 0)
    (h : User.saveCredentials db u now = (db', .ok saved)) : saved = stamped u now := by
  unfold User.saveCredentials at h
  cases hsave : db.users.save u now with
  | error e =>
    rw [hsave] at h
    cases h
  | ok res =>
    obtain ⟨users, u'⟩ := res
    have hu' : u' = stamped u now := by
      rw [(Users.save_eq_ok hsave).2.2, upsert_old db.users.table now (a := u) hid]
    rw [hsave] at h
    dsimp only at h
    -- the account is written after the user, if there is one; the row returned is the user's in
    -- any case
    split at h
    · cases h
      exact hu'
    · split at h
      · cases h
      · cases h
        exact hu'

/-- Both requests end in these two writes; if nothing was refused they are made. -/
theorem saveCredentials_ok {old : User} {now : Int}
    (hwritten : (User.saveCredentials db u now).2 ≠ .error .rejected)
    (hold : old ∈ db.users.table.rows) (hid : u.id = old.id) :
    ∃ db', User.saveCredentials db u now = (db', .ok (stamped u now)) ∧ Rekeyed db u now db' := by
  obtain ⟨db', saved, heq, hrekeyed⟩ := saveCredentials_rekeyed hwritten hold hid
  have hne : u.id ≠ 0 := hid ▸ Table.key_ne_zero_of_mem hold
  exact ⟨db', saveCredentials_saved hne heq ▸ heq, hrekeyed⟩

/-- A request for a reset code of an active user with an identity account: unless a write is
refused, the answer is the code, and the user is locked out under it. -/
theorem generateReset_ok {r : GeneratePasswordResetcode} (hu : u ∈ db.users.table.rows)
    (hactive : u.deactivated = false) (hemail : r.email = u.email)
    (hidentity : ∃ sa ∈ db.socialAccounts.rows, sa.userId = u.id ∧ sa.provider = .identity)
    (hwritten : (r.execute site db).2 ≠ .error (.thrown .rejected)) :
    ∃ db', r.execute site db = (db', .ok r.resetCode) ∧
      Rekeyed db (u.locked site (r.callFor u.id)) r.now db' := by
  have hget : User.get db.users.table (r.callFor u.id).userId = some u := by
    show User.get db.users.table u.id = some u
    rw [User.get_of_mem hu, hactive]
    rfl
  obtain ⟨sa, hsa⟩ : ∃ sa,
      SocialAccount.getByUserIdAndProvider db.socialAccounts u.id .identity = some sa := by
    obtain ⟨sa, hmem, howner, hprovider⟩ := hidentity
    rw [← Option.ne_none_iff_exists']
    intro hnone
    -- the lookup cannot come back empty: the account that was assumed matches it
    have hno := Table.fetchOne_eq_none.mp hnone sa hmem
    simp [howner, hprovider] at hno
  have hexecute : r.execute site db =
      answered .thrown id (User.generateResetCode site db (r.callFor u.id)) := by
    unfold GeneratePasswordResetcode.execute
    rw [hemail, getByEmail_of_mem hu]
    dsimp only
    rw [hsa]
  -- a refused save would have been the answer of the request
  have hsave : (User.saveCredentials db (u.locked site (r.callFor u.id)) r.now).2 ≠
      .error .rejected := by
    intro hrejected
    refine hwritten ?_
    rw [hexecute]
    refine answered_eq_error.mpr ⟨.rejected, ?_, rfl⟩
    have hcall : User.saveCredentials db (u.locked site (r.callFor u.id)) r.now =
        ((User.saveCredentials db (u.locked site (r.callFor u.id)) r.now).1, .error .rejected) :=
      Prod.ext rfl hrejected
    rw [User.generateResetCode, hget]
    dsimp only
    rw [show (r.callFor u.id).now = r.now from rfl, hcall]
  obtain ⟨db', heq, hrekeyed⟩ := saveCredentials_ok hsave hu rfl
  refine ⟨db', ?_, hrekeyed⟩
  rw [hexecute, User.generateResetCode, hget]
  dsimp only
  rw [show (r.callFor u.id).now = r.now from rfl, heq]
  rfl

/-- A reset under the code of a user: unless a write is refused, the answer is a login of that
user. It does not ask for the old password, nor for anything else that only the user has. -/
theorem reset_ok {q : ResetPassword} (hu : u ∈ db.users.table.rows)
    (hcode : User.getByResetCode db.users.table q.resetCode = some u)
    (hpassword : User.validatePassword q.newPassword = .ok q.newPassword)
    (hwritten : (q.execute site db).2 ≠ .error (.thrown .rejected)) :
    ∃ db', q.execute site db = (db', .ok (stamped (u.unlocked site q) q.now)) ∧
      Rekeyed db (u.unlocked site q) q.now db' := by
  have hexecute : q.execute site db =
      replied site q.now (User.saveCredentials db (u.unlocked site q) q.now) := by
    unfold ResetPassword.execute User.resetPassword
    rw [hcode]
    dsimp only
    rw [hpassword]
  have hsave : (User.saveCredentials db (u.unlocked site q) q.now).2 ≠ .error .rejected := by
    intro hrejected
    refine hwritten ?_
    rw [hexecute]
    generalize User.saveCredentials db (u.unlocked site q) q.now = p at hrejected
    rcases p with ⟨db', e | v⟩
    · cases hrejected
      rfl
    · cases hrejected
  obtain ⟨db', heq, hrekeyed⟩ := saveCredentials_ok hsave hu rfl
  refine ⟨(stamped (u.unlocked site q) q.now).generateFriendlyId site db' q.now, ?_,
    hrekeyed.users, hrekeyed.accounts⟩
  rw [hexecute, heq]
  rfl

end

/-- **The email is enough.** Take any store whose identity accounts are in step with the users,
and any active user with an identity account. A caller without a token who knows the email asks
for a reset code and resets the password with the code of the answer. If no write is refused and
chance draws new values, the second answer is a login of the user: its token is the user's from
now on, the token that the user had is nobody's, and the identity account has the caller's
password. -/
theorem email_is_enough (site : Site) {db : Accounts} {victim : User}
    (r : GeneratePasswordResetcode) (q : ResetPassword) (hdb : InStep db)
    (hvictim : victim ∈ db.users.table.rows) (hactive : victim.deactivated = false)
    (hidentity : ∃ sa ∈ db.socialAccounts.rows,
      sa.userId = victim.id ∧ sa.provider = .identity)
    (hemail : r.email = victim.email) (hcode : q.resetCode = r.resetCode)
    (hpassword : User.validatePassword q.newPassword = .ok q.newPassword)
    (hnewCode : ∀ u ∈ db.users.table.rows, u.resetCode ≠ some r.resetCode)
    (hnewToken : q.accessToken ≠ victim.accessToken)
    (hwritten : (r.execute site db).2 ≠ .error (.thrown .rejected) ∧
      (q.execute site (r.execute site db).1).2 ≠ .error (.thrown .rejected)) :
    ∃ db₁ db₂ u, r.execute site db = (db₁, .ok r.resetCode) ∧
      q.execute site db₁ = (db₂, .ok u) ∧ u.id = victim.id ∧
      caller db₂ { parameter := some u.accessToken } = some u ∧
      caller db₂ { parameter := some victim.accessToken } = none ∧
      ∀ sa ∈ db₂.socialAccounts.rows, sa.provider = .identity → sa.userId = victim.id →
        sa.secretKey = site.hashPassword q.newPassword := by
  obtain ⟨db₁, hfirst, hlocked⟩ := generateReset_ok hvictim hactive hemail hidentity hwritten.1
  have hsecond := hwritten.2
  rw [hfirst] at hsecond
  -- the user is the only one who waits for the code
  have hmem₁ : stamped (victim.locked site (r.callFor victim.id)) r.now ∈ db₁.users.table.rows :=
    (hlocked.users _).mpr (Or.inl rfl)
  have hwaits : User.getByResetCode db₁.users.table q.resetCode =
      some (stamped (victim.locked site (r.callFor victim.id)) r.now) := by
    refine Table.fetchOne_of_unique hmem₁ (beq_iff_eq.mpr (congrArg some hcode.symm)) ?_
    intro u hu hwaits
    rcases (hlocked.users u).mp hu with rfl | ⟨hu, -⟩
    · rfl
    · rw [beq_iff_eq, hcode] at hwaits
      exact absurd hwaits (hnewCode u hu)
  obtain ⟨db₂, hreset, hunlocked⟩ := reset_ok hmem₁ hwaits hpassword hsecond
  have hmem₂ := (hunlocked.users _).mpr (Or.inl rfl)
  refine ⟨db₁, db₂, _, hfirst, hreset, rfl, ?_, ?_, fun sa hsa hprovider howner => ?_⟩
  · exact Users.getByAccessToken_eq_some.mpr ⟨hmem₂, rfl⟩
  · -- nobody else had the victim's token
    refine Table.fetchOne_eq_none.mpr fun u hu => ?_
    rw [beq_eq_false_iff_ne]
    rcases (hunlocked.users u).mp hu with rfl | ⟨hu, hne⟩
    · exact hnewToken
    · rcases (hlocked.users u).mp hu with rfl | ⟨hu, -⟩
      · exact absurd rfl hne
      · intro htoken
        have hid : u.id = victim.id :=
          congrArg User.id (db.users.accessToken_unique u hu victim hvictim htoken)
        exact hne hid
  · exact hunlocked.own_account (hdb.rekeyed hlocked hvictim rfl) hmem₁ rfl hsa hprovider howner

/-- A stranger asks for Carol's reset code. -/
def strangerAsks : GeneratePasswordResetcode where
  email := carol.email
  resetCode := js ['c', 'o', 'd', 'e']
  password := js ['x', 'x', 'x', 'x']
  accessToken := js ['t', '2']
  secretKey := js ['s', '2']
  now := 4

/-- And resets the password with it. -/
def strangerResets : ResetPassword where
  resetCode := strangerAsks.resetCode
  newPassword := js ['m', 'i', 'n', 'e']
  accessToken := js ['t', '3']
  secretKey := js ['s', '3']
  now := 5

theorem email_is_enough_carol :
    (caller carolRegistered { parameter := some carol.accessToken }).isSome = true ∧
    ∃ db₁ db₂ u,
      strangerAsks.execute plainSite carolRegistered = (db₁, .ok strangerAsks.resetCode) ∧
      strangerResets.execute plainSite db₁ = (db₂, .ok u) ∧ u.id = 1 ∧
      caller db₂ { parameter := some u.accessToken } = some u ∧
      caller db₂ { parameter := some carol.accessToken } = none := by
  have hcarol : ∃ victim ∈ carolRegistered.users.table.rows, victim.deactivated = false ∧
      carol.email = victim.email ∧ victim.accessToken = carol.accessToken ∧ victim.id = 1 := by
    decide
  obtain ⟨victim, hmem, hactive, hemail, htoken, hid⟩ := hcarol
  have hidentity : ∃ sa ∈ carolRegistered.socialAccounts.rows,
      sa.userId = 1 ∧ sa.provider = .identity := by decide
  obtain ⟨db₁, db₂, u, hfirst, hsecond, hu, htaken, hlost, -⟩ :=
    email_is_enough plainSite strangerAsks strangerResets ⟨by decide, by decide⟩ hmem hactive
      (hid ▸ hidentity) hemail rfl rfl (by decide) (htoken ▸ (by decide)) (by decide)
  exact ⟨by decide, db₁, db₂, u, hfirst, hsecond, hu.trans hid, htaken, htoken ▸ hlost⟩

end Maiden
