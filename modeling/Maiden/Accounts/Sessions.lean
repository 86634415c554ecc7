import Maiden.Accounts.FacebookIdentity
import Maiden.Api.User
import Maiden.Base.Credentials

/-!
# Sessions

A session is an access token that `BaseAction.user` takes for a user. There is no table of
sessions: the token is a column of the user's row, which every way of changing a user writes
back as a whole. Seen through `Users.tokens`, the account store is a store of credentials
(`Base/Credentials.lean`), and every call rekeys one user or nobody (`tokens_step`), also when
it throws half way.

`session_lasts` puts this together for a client that has logged in, by whichever way: the
token of the reply identifies its user, and nobody else, until a call rekeys that user, and
never again after that. Who a call rekeys (`AccountCall.rekeys`) can be read off the store:

| call | rekeys |
|---|---|
| UserCreateAccount | the new user |
| a login with an own password | nobody |
| a Facebook login | the user of the account or of the email, or a new one |
| GeneratePasswordResetcode | the active user with that email and an identity account |
| ResetPassword | the user that waits for the code |
| UpdateUserProfile, also one that deactivates | nobody |
-/

namespace Maiden

open JString

/-! ## Tokens in the Users table -/

namespace Users

/-- The token of a user. -/
def tokens (us : Users) (userId : Int) : Option JString :=
  (us.table.get userId).map User.accessToken

/-- The id under which a row is saved. -/
def savedId (us : Users) (u : User) : Int := if u.id = 0 then us.table.nextKey else u.id

/-- The row is new, or it replaces a stored one. -/
def Knows (us : Users) (u : User) : Prop :=
  Keyed.key u = 0 ∨ ∃ old ∈ us.table.rows, Keyed.key old = Keyed.key u

theorem knows_of_mem {us : Users} {u old : User} (hold : old ∈ us.table.rows)
    (hid : u.id = old.id) : us.Knows u :=
  Or.inr ⟨old, hold, hid.symm⟩

/-- An old user keeps the id, a new one gets the next key. -/
theorem saved_id {us us' : Users} {u saved : User} {now : Int}
    (h : us.save u now = .ok (us', saved)) : saved.id = us.savedId u := by
  obtain ⟨-, -, rfl⟩ := save_eq_ok h
  unfold savedId
  by_cases hid : u.id = 0
  · rw [if_pos hid, upsert_new us.table now hid]
    rfl
  · rw [if_neg hid, upsert_old us.table now hid]
    rfl

theorem saved_accessToken {us us' : Users} {u saved : User} {now : Int}
    (h : us.save u now = .ok (us', saved)) : saved.accessToken = u.accessToken := by
  obtain ⟨-, -, rfl⟩ := save_eq_ok h
  exact upsert_saved User.accessToken (fun _ _ => rfl) (fun _ _ _ => rfl) us.table u now

/-- A save that goes through has stored the row, provided an old user is there to be updated. -/
theorem saved_mem {us us' : Users} {u saved : User} {now : Int} (hknows : us.Knows u)
    (h : us.save u now = .ok (us', saved)) : saved ∈ us'.table.rows := by
  obtain ⟨-, htable, rfl⟩ := save_eq_ok h
  rw [htable]
  exact (mem_upsert hknows).mpr (Or.inl rfl)

/-- Saving a row gives its user the token of the row. -/
theorem tokens_save {us us' : Users} {u saved : User} {now : Int} (hknows : us.Knows u)
    (h : us.save u now = .ok (us', saved)) :
    us'.tokens = Function.update us.tokens (us.savedId u) (some u.accessToken) := by
  have htoken := saved_accessToken h
  have hid := saved_id h
  obtain ⟨-, htable, rfl⟩ := save_eq_ok h
  funext i
  by_cases hi : i = us.savedId u
  · subst hi
    rw [Function.update_self, ← hid, tokens, htable]
    show ((upsert us.table u now).1.get (Keyed.key (upsert us.table u now).2)).map _ = _
    rw [get_upsert_saved hknows, Option.map_some, htoken]
  · rw [Function.update_of_ne hi, tokens, htable]
    have hne : i ≠ Keyed.key (upsert us.table u now).2 := fun heq => hi (heq.trans hid)
    rw [get_upsert_ne hne]
    rfl

/-- Saving a row that keeps its token changes no token. -/
theorem tokens_save_same {us us' : Users} {u old saved : User} {now : Int}
    (hold : old ∈ us.table.rows) (hid : u.id = old.id) (htoken : u.accessToken = old.accessToken)
    (h : us.save u now = .ok (us', saved)) : us'.tokens = us.tokens := by
  have hne : u.id ≠ 0 := hid ▸ Table.key_ne_zero_of_mem hold
  have hstored : us.tokens old.id = some old.accessToken := by
    rw [tokens, show us.table.get old.id = some old from Table.get_of_mem hold]
    rfl
  rw [tokens_save (knows_of_mem hold hid) h, savedId, if_neg hne, hid, htoken, ← hstored]
  exact Function.update_eq_self _ _

/-- A removal takes one token out of the map. -/
theorem tokens_deleteWhere (us : Users) (userId : Int) :
    (us.deleteWhere fun u => u.id == userId).tokens = Function.update us.tokens userId none := by
  funext i
  unfold tokens
  by_cases hi : i = userId
  · subst hi
    rw [Function.update_self]
    have hgone : (us.deleteWhere fun u => u.id == i).table.get i = none :=
      Table.get_deleteWhere_of_all fun r _ hr => beq_iff_eq.mpr hr
    rw [hgone]
    rfl
  · rw [Function.update_of_ne hi]
    have hkept : (us.deleteWhere fun u => u.id == userId).table.get i = us.table.get i :=
      Table.get_deleteWhere_of_not fun r _ hr => beq_eq_false_iff_ne.mpr fun heq =>
        hi (hr.symm.trans heq)
    rw [hkept]

/-- A token identifies the user that has it. -/
theorem getByAccessToken_eq_some {us : Users} {token : JString} {u : User} :
    User.getByAccessToken us.table token = some u ↔
      u ∈ us.table.rows ∧ u.accessToken = token := by
  constructor
  · intro h
    obtain ⟨hmem, htoken⟩ := Table.mem_of_fetchOne h
    exact ⟨hmem, beq_iff_eq.mp htoken⟩
  · rintro ⟨hmem, rfl⟩
    refine Table.fetchOne_of_unique hmem (beq_self_eq_true _) fun u' hu' h => ?_
    exact us.accessToken_unique u' hu' u hmem (beq_iff_eq.mp h)

end Users

/-- A token is good for a user exactly if it is the user's. -/
theorem caller_iff_tokens {db : Accounts} {token : JString} {userId : Int} :
    (∃ u, caller db { parameter := some token } = some u ∧ u.id = userId) ↔
      db.users.tokens userId = some token := by
  show (∃ u, User.getByAccessToken db.users.table token = some u ∧ u.id = userId) ↔ _
  unfold Users.tokens
  rw [Option.map_eq_some_iff]
  constructor
  · rintro ⟨u, hu, rfl⟩
    obtain ⟨hmem, htoken⟩ := Users.getByAccessToken_eq_some.mp hu
    exact ⟨u, Table.get_of_mem hmem, htoken⟩
  · rintro ⟨u, hu, htoken⟩
    exact ⟨u, Users.getByAccessToken_eq_some.mpr ⟨Table.mem_of_get hu, htoken⟩,
      Table.key_of_get hu⟩

/-! ## What a call writes -/

/-- The row that a Facebook login writes for its user. -/
def FacebookLogin.row (site : Site) (db : Accounts) (l : FacebookLogin) : Option User :=
  match l.firstName, l.lastName with
  | some firstName, some lastName =>
    some (l.userRow (site.unicode.toLowerCase (firstName ++ jc '.' :: lastName))
      (l.existingUser db))
  | _, _ => none

/-- The row that a registration adds. -/
def UserCreateAccount.row (site : Site) (db : Accounts) (r : UserCreateAccount) : Option User :=
  match User.validatePassword r.password, User.validateEmail r.email with
  | .ok password, .ok email =>
    match User.getByUserNameOrEmail db (r.userName site db) email with
    | some _ => none
    | none =>
      if User.reserved.contains (r.userName site db) then none
      else some (User.new site (r.userName site db) password email r.accessToken r.secretKey r.now)
  | _, _ => none

/-- The row that a request for a reset code writes. -/
def GeneratePasswordResetcode.row (site : Site) (db : Accounts) (r : GeneratePasswordResetcode) :
    Option User :=
  match User.getByEmail db.users.table r.email with
  | none => none
  | some u =>
    match SocialAccount.getByUserIdAndProvider db.socialAccounts u.id .identity with
    | none => none
    | some _ => (User.get db.users.table u.id).map (User.locked site (r.callFor u.id))

/-- The row that a reset writes. -/
def ResetPassword.row (site : Site) (db : Accounts) (r : ResetPassword) : Option User :=
  match User.getByResetCode db.users.table r.resetCode with
  | none => none
  | some u =>
    match User.validatePassword r.newPassword with
    | .error _ => none
    | .ok _ => some (u.unlocked site r)

namespace AccountCall

/-- The row with new tokens that the call asks the database to write. -/
def row (site : Site) (db : Accounts) : AccountCall → Option User
  | .createAccount r => r.row site db
  | .login (.facebook l) => l.row site db
  | .generateReset r => r.row site db
  | .reset r => r.row site db
  | .generateOauthInfo r =>
    (db.users.table.get r.userId).map fun u => u.withTokens r.accessToken r.secretKey
  | _ => none

/-- The token that chance has drawn for the call. -/
def issued : AccountCall → Option JString
  | .createAccount r => some r.accessToken
  | .login (.facebook l) => some l.accessToken
  | .generateReset r => some r.accessToken
  | .reset r => some r.accessToken
  | .generateOauthInfo r => some r.accessToken
  | _ => none

/-- The user that the call rekeys. -/
def rekeys (site : Site) (db : Accounts) (c : AccountCall) : Option Int :=
  match c with
  | .remove userId => some userId
  | c => ((c.row site db).filter fun u => db.users.Admits u).map db.users.savedId

end AccountCall

/-- How a call may leave the Users table: all tokens are as they were; or the row it wanted to
write was refused; or it was saved. -/
inductive Issues (us : Users) : Option User → Users → Prop
  | kept {us' : Users} (h : us'.tokens = us.tokens) : Issues us none us'
  | refused {u : User} (h : ¬ us.Admits u) : Issues us (some u) us
  | saved {us' : Users} {u saved : User} {now : Int} (hknows : us.Knows u)
      (h : us.save u now = .ok (us', saved)) : Issues us (some u) us'

/-- The tokens after such a call. -/
theorem Issues.tokens {us us' : Users} {row : Option User} (h : Issues us row us') :
    us'.tokens = Credentials.rekey ((row.filter fun u => us.Admits u).map us.savedId)
      (row.map User.accessToken) us.tokens := by
  cases h with
  | kept h => exact h
  | @refused u h =>
    rw [Option.filter_some, if_neg (by simpa using h)]
    rfl
  | @saved _ u saved now hknows h =>
    have hadmits := (Users.save_eq_ok h).1
    rw [Option.filter_some, if_pos (by simpa using hadmits)]
    exact Users.tokens_save hknows h

/-- A row that is passed to the database, with whatever happens to the other tables. -/
theorem Issues.of_save {us us' : Users} {u : User} (now : Int) (hknows : us.Knows u)
    (herror : ∀ e, us.save u now = .error e → us' = us)
    (hok : ∀ us'' saved, us.save u now = .ok (us'', saved) → us' = us'') :
    Issues us (some u) us' := by
  cases hsave : us.save u now with
  | error e =>
    rw [herror e hsave]
    exact .refused (Users.save_eq_error hsave)
  | ok res =>
    obtain ⟨us'', saved⟩ := res
    rw [hok us'' saved hsave]
    exact .saved hknows hsave

section

variable (site : Site) (db : Accounts)

/-! ## Call by call -/

/-- A registration that passes its checks saves one new row, with the token that was drawn;
whatever fails after that leaves the tokens as they are. -/
theorem issues_createIdentity (userName password email accessToken secretKey : JString)
    (now : Int) :
    Issues db.users
      (match User.getByUserNameOrEmail db userName email with
        | some _ => none
        | none =>
          if User.reserved.contains userName then none
          else some (User.new site userName password email accessToken secretKey now))
      (User.createIdentity site db userName password email accessToken secretKey now).1.users := by
  unfold User.createIdentity
  cases User.getByUserNameOrEmail db userName email with
  | some _ => exact .kept rfl
  | none =>
    by_cases hreserved : User.reserved.contains userName = true
    · simp only [if_pos hreserved]
      exact .kept rfl
    · simp only [if_neg hreserved]
      refine .of_save now (Or.inl rfl) (fun e he => ?_) (fun us'' saved hsaved => ?_)
      · rw [he]
      · rw [hsaved]
        dsimp only
        split <;> rfl

/-- A registration issues the token that was drawn for it, under a new id. -/
theorem issues_createAccount (r : UserCreateAccount) :
    Issues db.users (r.row site db) (r.execute site db).1.users := by
  have hregister : Issues db.users (r.row site db) (r.register site db).1.users := by
    unfold UserCreateAccount.row UserCreateAccount.register
    cases User.validatePassword r.password with
    | error e => exact .kept rfl
    | ok password =>
      cases User.validateEmail r.email with
      | error e => exact .kept rfl
      | ok email => exact issues_createIdentity ..
  -- the profile and the friendly id come after
  have hsame : (r.execute site db).1.users = (r.register site db).1.users := by
    unfold UserCreateAccount.execute
    cases r.register site db with
    | mk db' res =>
      cases res with
      | error e => rfl
      | ok u =>
        show (r.introduce site db' u).1.users = db'.users
        unfold UserCreateAccount.introduce
        dsimp only
        split <;> rfl
  rw [hsame]
  exact hregister

/-- The two writes of a reset leave the Users table as the first one does. -/
theorem issues_saveCredentials {u : User} (now : Int) (hknows : db.users.Knows u) :
    Issues db.users (some u) (User.saveCredentials db u now).1.users := by
  unfold User.saveCredentials
  refine .of_save now hknows (fun e he => ?_) (fun us'' saved hsaved => ?_)
  · rw [he]
  · rw [hsaved]
    dsimp only
    split
    · rfl
    · split <;> rfl

/-- A reset code concerns active users only: for the others the store stays. -/
theorem generateResetCode_fst (r : GenerateResetCode) :
    (User.generateResetCode site db r).1 =
      match User.get db.users.table r.userId with
      | none => db
      | some u => (User.saveCredentials db (u.locked site r) r.now).1 := by
  unfold User.generateResetCode
  cases User.get db.users.table r.userId with
  | none => rfl
  | some u =>
    dsimp only
    rcases User.saveCredentials db (u.locked site r) r.now with ⟨db', e | u'⟩ <;> rfl

/-- A reset code is saved with a new token, in the row that is read again by its id. -/
theorem issues_generateReset (r : GeneratePasswordResetcode) :
    Issues db.users (r.row site db) (r.execute site db).1.users := by
  unfold GeneratePasswordResetcode.row GeneratePasswordResetcode.execute
  cases User.getByEmail db.users.table r.email with
  | none => exact .kept rfl
  | some u =>
    dsimp only
    cases SocialAccount.getByUserIdAndProvider db.socialAccounts u.id .identity with
    | none => exact .kept rfl
    | some sa =>
      simp only [answered_fst, generateResetCode_fst]
      -- the row is looked up a second time, by the id of the first
      show Issues db.users ((User.get db.users.table u.id).map _)
        (match User.get db.users.table u.id with
          | none => db
          | some u' => (User.saveCredentials db (u'.locked site (r.callFor u.id)) r.now).1).users
      cases hget : User.get db.users.table u.id with
      | none => exact .kept rfl
      | some u' =>
        have hmem := (Table.mem_of_fetchOne hget).1
        exact issues_saveCredentials db r.now (Users.knows_of_mem hmem rfl)

/-- A reset issues a new token; the old one is lost with the row. -/
theorem issues_reset (r : ResetPassword) :
    Issues db.users (r.row site db) (r.execute site db).1.users := by
  unfold ResetPassword.row ResetPassword.execute User.resetPassword
  rw [replied_users]
  cases hcode : User.getByResetCode db.users.table r.resetCode with
  | none => exact .kept rfl
  | some u =>
    dsimp only
    cases User.validatePassword r.newPassword with
    | error e => exact .kept rfl
    | ok password =>
      have hmem := (Table.mem_of_fetchOne hcode).1
      exact issues_saveCredentials db r.now (Users.knows_of_mem hmem rfl)

theorem knows_userRow (l : FacebookLogin) (username : JString) :
    db.users.Knows (l.userRow username (l.existingUser db)) := by
  cases hex : l.existingUser db with
  | none => exact Or.inl rfl
  | some x => exact Users.knows_of_mem (existingUser_mem hex) rfl

/-- A Facebook login issues a new token each time, also to a user it already knows. -/
theorem issues_facebook (l : FacebookLogin) :
    Issues db.users (l.row site db) (l.create site db).1.users := by
  have hcreate : Issues db.users (l.row site db) (l.createUser site db).1.users := by
    unfold FacebookLogin.row FacebookLogin.createUser
    cases l.firstName with
    | none => exact .kept rfl
    | some firstName =>
      cases l.lastName with
      | none => exact .kept rfl
      | some lastName =>
        dsimp only
        refine .of_save l.now (knows_userRow db l _) (fun e he => ?_) (fun us'' saved hsaved => ?_)
        · rw [he]
        · rw [hsaved]
          dsimp only
          split <;> rfl
  -- the account is linked in another table
  have hsame : (l.create site db).1.users = (l.createUser site db).1.users := by
    unfold FacebookLogin.create
    rcases l.createUser site db with ⟨db', e | u⟩
    · rfl
    · dsimp only
      split <;> rfl
  rw [hsame]
  exact hcreate

/-- A login with a password shows the token that there is, and issues none. -/
theorem tokens_checkLogin (username password : JString) (now : Int) :
    (User.checkLogin site db username password now).1.users.tokens = db.users.tokens := by
  unfold User.checkLogin
  cases hfound : User.findLogin site db username password with
  | none => rfl
  | some u =>
    dsimp only
    cases hsave : db.users.save (u.touched now) now with
    | error e => rfl
    | ok res => exact Users.tokens_save_same (User.findLogin_mem hfound) rfl rfl hsave

/-- Of the logins, only those over Facebook issue anything. -/
theorem issues_login (r : UserLoginWithProvider) :
    Issues db.users (AccountCall.row site db (.login r)) (r.execute site db).1.users := by
  cases r with
  | identity username password now =>
    refine .kept ?_
    show (replied site now (User.checkLogin site db _ _ now)).1.users.tokens = _
    rw [replied_users]
    exact tokens_checkLogin site db _ _ now
  | facebook l =>
    show Issues db.users (l.row site db) (repliedFor site l.now (l.create site db)).1.users
    rw [repliedFor_users]
    exact issues_facebook site db l
  | facebookFails => exact .kept rfl
  | other => exact .kept rfl
  | noToken => exact .kept rfl

/-- Of the three writes at the end of a profile update only the first is to the users. -/
theorem writeBack_users (u : User) (sa : Option SocialAccount) (now : Int) :
    (UpdateUserProfile.writeBack site db u sa now).1.users =
      match db.users.save u now with
      | .error _ => db.users
      | .ok (users, _) => users := by
  unfold UpdateUserProfile.writeBack
  rcases db.users.save u now with e | ⟨users, saved⟩
  · rfl
  · cases sa with
    | none => rfl
    | some sa =>
      dsimp only
      split <;> rfl

/-- A profile update writes its caller's row back with the token it has. -/
theorem tokens_updateProfile (who : Presented) (r : UpdateUserProfile) :
    (r.execute site db (caller db who)).1.users.tokens = db.users.tokens := by
  cases hcaller : caller db who with
  | none => rfl
  | some u =>
    have hmem := caller_mem hcaller
    unfold UpdateUserProfile.execute
    dsimp only
    split
    · split
      · rfl
      · rw [UpdateUserProfile.changed_eq, writeBack_users]
        dsimp only
        split
        · rfl
        · next hsave =>
          refine Users.tokens_save_same hmem ?_ ?_ hsave
          · rfl
          · rfl
    · rfl
    · rfl
    · rfl

theorem issues_generateOauthInfo (r : GenerateOauthInfo) :
    Issues db.users (AccountCall.row site db (.generateOauthInfo r))
      (User.generateOauthInfo db r).1.users := by
  show Issues db.users ((db.users.table.get r.userId).map _) _
  unfold User.generateOauthInfo
  cases hget : db.users.table.get r.userId with
  | none => exact .kept rfl
  | some u =>
    show Issues db.users (some (u.withTokens r.accessToken r.secretKey)) _
    refine .of_save r.now (Users.knows_of_mem (Table.mem_of_get hget) rfl) (fun e he => ?_)
      (fun us'' saved hsaved => ?_)
    · dsimp only
      rw [he]
    · dsimp only
      rw [hsaved]

end

/-! ## Every call -/

/-- The row that a call writes carries the token that was drawn for it. So a token in the store was
drawn by the call that wrote its row last. -/
theorem AccountCall.row_accessToken {site : Site} {db : Accounts} {c : AccountCall} {u : User}
    (h : c.row site db = some u) : c.issued = some u.accessToken := by
  cases c with
  | createAccount r =>
    have h : r.row site db = some u := h
    unfold UserCreateAccount.row at h
    split at h
    · split at h
      · cases h
      · split at h
        · cases h
        · cases h
          rfl
    · cases h
  | login r =>
    cases r with
    | facebook l =>
      have h : l.row site db = some u := h
      unfold FacebookLogin.row at h
      split at h
      · cases h
        unfold FacebookLogin.userRow
        split <;> rfl
      · cases h
    | _ => cases h
  | generateReset r =>
    have h : r.row site db = some u := h
    unfold GeneratePasswordResetcode.row at h
    split at h
    · cases h
    · split at h
      · cases h
      · obtain ⟨u', -, rfl⟩ := Option.map_eq_some_iff.mp h
        rfl
  | reset r =>
    have h : r.row site db = some u := h
    unfold ResetPassword.row at h
    split at h
    · cases h
    · split at h
      · cases h
      · cases h
        rfl
  -- a profile update draws nothing and a removal writes nothing
  | updateProfile who r => cases h
  | generateOauthInfo r =>
    obtain ⟨u', -, rfl⟩ := Option.map_eq_some_iff.mp h
    rfl
  | remove userId => cases h

/-- **One call** rekeys one user or nobody: seen through ids and tokens, every call is an update of
the map from users to tokens at one place, with a token that was drawn for it. -/
theorem tokens_step (site : Site) (db : Accounts) (c : AccountCall) :
    (c.execute site db).1.users.tokens =
      Credentials.rekey (c.rekeys site db) c.issued db.users.tokens := by
  have hwritten : ∀ us', Issues db.users (c.row site db) us' → us'.tokens =
      Credentials.rekey (((c.row site db).filter fun u => db.users.Admits u).map db.users.savedId)
        c.issued db.users.tokens := by
    intro us' h
    rw [h.tokens]
    cases hrow : c.row site db with
    | none => rfl
    | some u => rw [AccountCall.row_accessToken hrow, Option.map_some]
  cases c with
  | createAccount r =>
    refine hwritten _ ?_
    unfold AccountCall.execute
    rw [answered_fst]
    exact issues_createAccount site db r
  | login r =>
    refine hwritten _ ?_
    unfold AccountCall.execute
    rw [answered_fst]
    exact issues_login site db r
  | generateReset r =>
    refine hwritten _ ?_
    unfold AccountCall.execute
    rw [answered_fst]
    exact issues_generateReset site db r
  | reset r =>
    refine hwritten _ ?_
    unfold AccountCall.execute
    rw [answered_fst]
    exact issues_reset site db r
  -- writes a row back, but with the token that is in it
  | updateProfile who r =>
    refine hwritten _ (.kept ?_)
    unfold AccountCall.execute
    rw [answered_fst]
    exact tokens_updateProfile site db who r
  | generateOauthInfo r =>
    refine hwritten _ ?_
    unfold AccountCall.execute
    rw [answered_fst]
    exact issues_generateOauthInfo site db r
  | remove userId => exact Users.tokens_deleteWhere db.users userId

/-! ## Logins -/

/-- The row that is returned is stored, also if the account could not be written after it. -/
theorem saveCredentials_mem {db db' : Accounts} {u saved : User} {now : Int}
    (hknows : db.users.Knows u) (h : User.saveCredentials db u now = (db', .ok saved)) :
    saved ∈ db'.users.table.rows := by
  unfold User.saveCredentials at h
  cases hsave : db.users.save u now with
  | error e =>
    rw [hsave] at h
    cases h
  | ok res =>
    obtain ⟨users, u'⟩ := res
    have hmem := Users.saved_mem hknows hsave
    rw [hsave] at h
    dsimp only at h
    split at h
    · cases h
      exact hmem
    · split at h
      · cases h
      · cases h
        exact hmem

section

variable {site : Site} {db db' : Accounts} {u : User}

/-- A registration answers with the row that it has saved; the profile after it touches no user. -/
theorem createAccount_mem {r : UserCreateAccount} (h : r.execute site db = (db', .ok u)) :
    u ∈ db'.users.table.rows := by
  unfold UserCreateAccount.execute at h
  have houtcome := User.createIdentity_outcome site db (r.userName site db) r.password r.email
    r.accessToken r.secretKey r.now
  rcases r.register_cases site db with ⟨e, hreg, -⟩ | ⟨-, -, hreg⟩
  · rw [hreg] at h
    cases h
  · rw [hreg] at h
    generalize User.createIdentity site db (r.userName site db) r.password r.email r.accessToken
      r.secretKey r.now = res at h houtcome
    cases houtcome with
    | refused e hno => cases h
    | unlinked users u' e hsave hname haccount => cases h
    | created users u' socialAccounts sa hunknown hunreserved hsave hname hemail haccount =>
      have hmem := Users.saved_mem (Or.inl rfl) hsave
      dsimp only at h
      unfold UserCreateAccount.introduce at h
      dsimp only at h
      split at h
      · cases h
      · cases h
        exact hmem

/-- The user that a login shows is the row that it has just written. -/
theorem checkLogin_mem {username password : JString} {now : Int}
    (h : User.checkLogin site db username password now = (db', .ok u)) :
    u ∈ db'.users.table.rows := by
  unfold User.checkLogin at h
  cases hfound : User.findLogin site db username password with
  | none =>
    rw [hfound] at h
    cases h
  | some x =>
    rw [hfound] at h
    dsimp only at h
    cases hsave : db.users.save (x.touched now) now with
    | error e =>
      rw [hsave] at h
      cases h
    | ok res =>
      rw [hsave] at h
      cases h
      exact Users.saved_mem (Users.knows_of_mem (User.findLogin_mem hfound) rfl) hsave

theorem resetPassword_mem {r : ResetPassword} (h : User.resetPassword site db r = (db', .ok u)) :
    u ∈ db'.users.table.rows := by
  unfold User.resetPassword at h
  cases hcode : User.getByResetCode db.users.table r.resetCode with
  | none =>
    rw [hcode] at h
    cases h
  | some x =>
    rw [hcode] at h
    dsimp only at h
    split at h
    · cases h
    · have hknows : db.users.Knows (x.unlocked site r) :=
        Users.knows_of_mem (Table.mem_of_fetchOne hcode).1 rfl
      exact saveCredentials_mem hknows h

/-- A login shows a row that is in the store. For a Facebook login this is the row that the reply
has looked up, for the others the one that was just saved. -/
theorem login_mem {c : AccountCall} (h : c.execute site db = (db', .ok (.login u))) :
    u ∈ db'.users.table.rows := by
  cases c with
  | createAccount r =>
    obtain ⟨u', hu', heq⟩ := answered_eq_ok.mp h
    cases heq
    exact createAccount_mem hu'
  | login r =>
    obtain ⟨u', hu', heq⟩ := answered_eq_ok.mp h
    cases heq
    cases r with
    | identity username password now =>
      obtain ⟨db'', hlogin, rfl⟩ := replied_eq_ok.mp hu'
      have hmem : u ∈ db''.users.table.rows := checkLogin_mem hlogin
      exact hmem
    | facebook l =>
      obtain ⟨db'', sa, -, hget, rfl⟩ := repliedFor_eq_ok hu'
      exact Table.mem_of_get hget
    | facebookFails => cases hu'
    | other => cases hu'
    | noToken => cases hu'
  | generateReset r =>
    obtain ⟨code, -, heq⟩ := answered_eq_ok.mp h
    cases heq
  | reset r =>
    obtain ⟨u', hu', heq⟩ := answered_eq_ok.mp h
    cases heq
    obtain ⟨db'', hreset, rfl⟩ := replied_eq_ok.mp hu'
    have hmem : u ∈ db''.users.table.rows := resetPassword_mem hreset
    exact hmem
  | updateProfile who r =>
    obtain ⟨u', -, heq⟩ := answered_eq_ok.mp h
    cases heq
  | generateOauthInfo r =>
    obtain ⟨u', -, heq⟩ := answered_eq_ok.mp h
    cases heq
  | remove userId => cases h

end

/-- **How long a session lasts.** A client logs in, in any way and in any store, and any calls
follow for which chance does not draw its token again. At the end its token identifies its user
exactly if none of the calls has rekeyed that user, and it never identifies anybody else. -/
theorem session_lasts (site : Site) {db start db' : Accounts} {c : AccountCall} {u : User}
    {run : List AccountCall} (hlogin : c.execute site db = (start, .ok (.login u)))
    (hrun : Run.exec (AccountCall.step site) start run = some db')
    (hfresh : ∀ c' ∈ run, c'.issued ≠ some u.accessToken) :
    ((∃ u', caller db' { parameter := some u.accessToken } = some u' ∧ u'.id = u.id) ↔
      Run.Meets (AccountCall.step site) (fun s c' => c'.rekeys site s ≠ some u.id) start run) ∧
    ∀ u', caller db' { parameter := some u.accessToken } = some u' → u'.id = u.id := by
  have hheld : ∀ userId, db'.users.tokens userId = some u.accessToken ↔
      start.users.tokens userId = some u.accessToken ∧
        Run.Meets (AccountCall.step site) (fun s c' => c'.rekeys site s ≠ some userId) start
          run := by
    intro userId
    refine Credentials.held_iff (fun s : Accounts => s.users.tokens) (fun s c' s' hstep => ?_)
      hrun hfresh
    cases hstep
    exact tokens_step site s c'
  have hmem := login_mem hlogin
  have hstart : start.users.tokens u.id = some u.accessToken := by
    rw [Users.tokens, show start.users.table.get u.id = some u from Table.get_of_mem hmem]
    rfl
  constructor
  · rw [caller_iff_tokens, hheld u.id]
    exact and_iff_right hstart
  · intro u' hu'
    -- whoever it identifies had it at the start, where only one user did
    have hother := ((hheld u'.id).mp (caller_iff_tokens.mp ⟨u', hu', rfl⟩)).1
    obtain ⟨x, hx, hid⟩ := caller_iff_tokens.mpr hother
    obtain ⟨y, hy, hid'⟩ := caller_iff_tokens.mpr hstart
    obtain rfl := Option.some.inj (hx.symm.trans hy)
    rw [← hid, hid']

/-- Carol registers. -/
def carol : UserCreateAccount where
  firstName := js ['C', 'a', 'r', 'o', 'l']
  lastName := js ['K']
  password := js ['p', 'a', 's', 's']
  email := js ['c', '@', 'm', '.', 'c', 'o']
  accessToken := js ['t', '1']
  secretKey := js ['s', '1']
  now := 1

/-- The store with Carol in it. -/
def carolRegistered : Accounts :=
  (AccountCall.execute plainSite Accounts.empty (.createAccount carol)).1

/-- Carol logs in once more and then deactivates the account. -/
def carolLeaves : List AccountCall :=
  [.login (.identity (some carol.email) (some carol.password) 2),
   .updateProfile { header := some carol.accessToken } { deactivate := some (js ['t']), now := 3 }]

theorem session_lasts_carol :
    ∃ (start db' : Accounts) (u : User),
      AccountCall.execute plainSite Accounts.empty (.createAccount carol) =
        (start, .ok (.login u)) ∧
      Run.exec (AccountCall.step plainSite) start carolLeaves = some db' ∧
      (db'.users.table.get u.id).map User.deactivated = some true ∧
      ∃ u', caller db' { parameter := some u.accessToken } = some u' ∧ u'.id = u.id := by
  have hreply : ∃ u, (AccountCall.execute plainSite Accounts.empty (.createAccount carol)).2 =
      .ok (.login u) ∧ u.id = 1 ∧ u.accessToken = carol.accessToken := ⟨_, rfl, rfl, rfl⟩
  obtain ⟨u, hu, hid, htoken⟩ := hreply
  have hrun : (Run.exec (AccountCall.step plainSite)
      (AccountCall.execute plainSite Accounts.empty (.createAccount carol)).1 carolLeaves).any
        (fun db' => (db'.users.table.get 1).map User.deactivated == some true) = true := by decide
  obtain ⟨db', hdb', hleft⟩ := (Option.any_eq_true _ _).mp hrun
  refine ⟨_, db', u, Prod.ext rfl hu, hdb', hid ▸ beq_iff_eq.mp hleft, ?_⟩
  refine (session_lasts plainSite (Prod.ext rfl hu) hdb' ?_).1.mpr ?_
  · rw [htoken]
    decide
  · rw [hid]
    decide

end Maiden
