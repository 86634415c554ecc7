import Maiden.Accounts.Sessions
import Mathlib.Logic.Relation

/-!
# Accounts belong to users

Social accounts, profiles and the friendly ids of users name a user by id. The migrations make
foreign keys of the first two (`AddUserFks`, `CreateProfile`), none of the third, and the code
catches no refusal: `UserLoginWithProvider` calls `s.user.get` on the account it has just
written.

Every call is a sequence of single writes (`Write`), each in a transaction of its own, and each
names a user that is there at that moment (`writes_step`). So in every store that the calls can
make of a sound one, and at every point between two writes, everything belongs to somebody
(`references_hold`). `User.remove` deletes a user with all that belongs to it; the id is never
given out again, so that nothing ever belongs to it again either (`removed_for_good`).
-/

namespace Maiden

open JString

/-- There is a user with this id. -/
def Users.Has (us : Users) (userId : Int) : Prop := ∃ u ∈ us.table.rows, u.id = userId

/-- Everything belongs to a user that is there. -/
structure Sound (db : Accounts) : Prop where
  socialAccounts : ∀ sa ∈ db.socialAccounts.rows, db.users.Has sa.userId
  profiles : ∀ p ∈ db.profiles.rows, db.users.Has p.userId
  friendlyIds : ∀ f ∈ db.friendlyIds.rows, f.model = FriendlyId.userModel → db.users.Has f.modelId

theorem sound_empty : Sound Accounts.empty :=
  ⟨fun _ h => (nomatch h), fun _ h => (nomatch h), fun _ h => (nomatch h)⟩

/-- The id was given out, and its user is gone. -/
structure Gone (userId : Int) (us : Users) : Prop where
  not_has : ¬ us.Has userId
  issued : userId < us.table.nextKey

/-! ## Single writes -/

/-- One write to the account tables. -/
inductive Write (db : Accounts) : Accounts → Prop
  | user {u saved : User} {users : Users} {now : Int} (hknows : db.users.Knows u)
      (h : db.users.save u now = .ok (users, saved)) : Write db { db with users }
  | account {sa saved : SocialAccount} {socialAccounts : Table SocialAccount} {now : Int}
      (hhas : db.users.Has sa.userId)
      (h : SocialAccount.save db.socialAccounts sa now = .ok (socialAccounts, saved)) :
      Write db { db with socialAccounts }
  | profile {p saved : Profile} {profiles : Table Profile} {now : Int}
      (hhas : db.users.Has p.userId) (h : Profile.save db.profiles p now = .ok (profiles, saved)) :
      Write db { db with profiles }
  | friendlyId {U : Unicode} {userId : Int} {baseName : JString} {now : Int}
      (hhas : db.users.Has userId) :
      Write db { db with
        friendlyIds :=
          (FriendlyId.generate U db.friendlyIds FriendlyId.userModel userId baseName now).1 }

/-- Some writes, one after the other. -/
abbrev Writes : Accounts → Accounts → Prop := Relation.ReflTransGen Write

namespace Users

theorem has_of_mem {us : Users} {u : User} (h : u ∈ us.table.rows) : us.Has u.id := ⟨u, h, rfl⟩

/-- After a save there are the users there were and the saved one: a save adds a user or replaces
the row of one, and never removes one. -/
theorem has_save {us us' : Users} {u saved : User} {now : Int} (hknows : us.Knows u)
    (h : us.save u now = .ok (us', saved)) (userId : Int) :
    us'.Has userId ↔ us.Has userId ∨ userId = saved.id := by
  have hmem := saved_mem hknows h
  obtain ⟨-, htable, rfl⟩ := save_eq_ok h
  constructor
  · rintro ⟨r, hr, rfl⟩
    rw [htable] at hr
    rcases mem_of_mem_upsert hr with rfl | ⟨hr, -⟩
    · exact Or.inr rfl
    · exact Or.inl (has_of_mem hr)
  · rintro (⟨r, hr, rfl⟩ | rfl)
    · by_cases hkey : Keyed.key r = Keyed.key u
      · -- the row is the one that was replaced
        have hne : Keyed.key u ≠ 0 := hkey ▸ Table.key_ne_zero_of_mem hr
        have hid : (upsert us.table u now).2.id = r.id := by
          rw [upsert_old us.table now hne]
          exact hkey.symm
        exact hid ▸ has_of_mem hmem
      · exact ⟨r, htable ▸ (mem_upsert hknows).mpr (Or.inr ⟨hr, hkey⟩), rfl⟩
    · exact has_of_mem hmem

/-- Keys are only given away, never taken back. -/
theorem nextKey_save {us us' : Users} {u saved : User} {now : Int}
    (h : us.save u now = .ok (us', saved)) : us.table.nextKey ≤ us'.table.nextKey := by
  obtain ⟨-, htable, -⟩ := save_eq_ok h
  rw [htable]
  by_cases hid : Keyed.key u = 0
  · rw [upsert_new us.table now hid]
    show us.table.nextKey ≤ max us.table.nextKey 0 + 1
    omega
  · rw [upsert_old us.table now hid]
    exact Int.le_refl _

end Users

section

variable {db db' : Accounts} {userId : Int}

/-- A user that is there stays there: requests never delete one. -/
theorem Write.has (h : Write db db') (hhas : db.users.Has userId) : db'.users.Has userId := by
  cases h with
  | user hknows hsave => exact (Users.has_save hknows hsave userId).mpr (Or.inl hhas)
  | _ => exact hhas

/-- **A write** keeps the store sound. The users only grow, so what belonged to somebody still
does; and the row that is written belongs to a user that is there, which each kind of write
requires. -/
theorem Write.sound (h : Write db db') (hs : Sound db) : Sound db' := by
  have hkept : ∀ i, db.users.Has i → db'.users.Has i := fun i hi => h.has hi
  cases h with
  | user hknows hsave =>
    exact ⟨fun sa hsa => hkept _ (hs.socialAccounts sa hsa), fun p hp => hkept _ (hs.profiles p hp),
      fun f hf hmodel => hkept _ (hs.friendlyIds f hf hmodel)⟩
  -- the new row is the only one to look at in each of the other tables
  | @account sa saved _ now hhas hsave =>
    refine ⟨fun r hr => ?_, hs.profiles, hs.friendlyIds⟩
    obtain ⟨-, htable, -⟩ := SocialAccount.save_eq_ok hsave
    rw [htable] at hr
    rcases mem_of_mem_upsert hr with rfl | ⟨hr, -⟩
    · rw [SocialAccount.saved_userId]
      exact hhas
    · exact hs.socialAccounts r hr
  | @profile p saved _ now hhas hsave =>
    refine ⟨hs.socialAccounts, fun r hr => ?_, hs.friendlyIds⟩
    rw [(Profile.save_eq_ok hsave).1] at hr
    rcases mem_of_mem_upsert hr with rfl | ⟨hr, -⟩
    · rw [Profile.saved_userId]
      exact hhas
    · exact hs.profiles r hr
  | @friendlyId U i baseName now hhas =>
    refine ⟨hs.socialAccounts, hs.profiles, fun r hr hmodel => ?_⟩
    rcases mem_of_mem_upsert hr with rfl | ⟨hr, -⟩
    · rw [show (upsert db.friendlyIds _ now).2.modelId = i from
        FriendlyId.generate_modelId U db.friendlyIds FriendlyId.userModel i baseName now]
      exact hhas
    · exact hs.friendlyIds r hr hmodel

/-- **A write** brings nobody back. A save is for a user that is there, or for a new one, and a new
one gets a key above all that were ever given. -/
theorem Write.gone (h : Write db db') (hg : Gone userId db.users) : Gone userId db'.users := by
  cases h with
  | @user u saved users now hknows hsave =>
    have hnext := Users.nextKey_save hsave
    refine ⟨fun hhas => ?_, Int.lt_of_lt_of_le hg.issued hnext⟩
    rcases (Users.has_save hknows hsave userId).mp hhas with hold | rfl
    · exact hg.not_has hold
    · -- the saved row is new under a later id, or it replaces one that was there
      have hid := Users.saved_id hsave
      unfold Users.savedId at hid
      rcases hknows with hzero | ⟨old, hold, hkey⟩
      · rw [if_pos (show u.id = 0 from hzero)] at hid
        have hissued := hg.issued
        omega
      · have hne : u.id ≠ 0 := fun h0 => Table.key_ne_zero_of_mem hold (hkey.trans h0)
        rw [if_neg hne] at hid
        exact hg.not_has ⟨old, hold, hkey.trans hid.symm⟩
  | _ => exact hg

/-- The same along all writes of a request. -/
theorem Writes.has (h : Writes db db') (hhas : db.users.Has userId) : db'.users.Has userId := by
  induction h with
  | refl => exact hhas
  | tail _ hlast ih => exact hlast.has ih

/-- References that lead to users go on doing so. -/
theorem Writes.sound (h : Writes db db') (hs : Sound db) : Sound db' := by
  induction h with
  | refl => exact hs
  | tail _ hlast ih => exact hlast.sound ih

/-- A user that has been removed does not come back, as ids are not given away twice. -/
theorem Writes.gone (h : Writes db db') (hg : Gone userId db.users) : Gone userId db'.users := by
  induction h with
  | refl => exact hg
  | tail _ hlast ih => exact hlast.gone ih

end

/-! ## The calls, write by write -/

section

variable {site : Site} {db : Accounts}

/-- The friendly id is stored for a user that has just been saved. -/
theorem write_generateFriendlyId {u : User} (hhas : db.users.Has u.id) (now : Int) :
    Writes db (u.generateFriendlyId site db now) :=
  .single (.friendlyId hhas)

/-- Linking an account: it is the user's, or somebody's who has it already. -/
theorem writes_link {provider : Provider} {userId now : Int}
    {uid accessToken secretKey extra : JString} {socialAccounts : Table SocialAccount}
    {sa : SocialAccount} (hs : Sound db) (hhas : db.users.Has userId)
    (h : SocialAccount.create db.socialAccounts provider userId uid accessToken secretKey extra
      now = .ok (socialAccounts, sa)) :
    Writes db { db with socialAccounts } ∧ db.users.Has sa.userId := by
  have howner : db.users.Has (SocialAccount.linked db.socialAccounts provider userId uid
      accessToken secretKey extra now).userId := by
    rw [SocialAccount.linked_userId]
    cases hknown : SocialAccount.getByUid db.socialAccounts provider uid with
    | none => exact hhas
    | some x => exact hs.socialAccounts x (SocialAccount.getByUid_eq_some hknown).1
  refine ⟨.single (.account howner h), ?_⟩
  obtain ⟨-, -, rfl⟩ := SocialAccount.save_eq_ok h
  rw [SocialAccount.saved_userId]
  exact howner

/-- A profile is stored under the user it was called with. -/
theorem writes_createOrUpdate {given p : Profile} {profiles : Table Profile} {now : Int}
    (hhas : db.users.Has given.userId)
    (h : Profile.createOrUpdate db.profiles given now = .ok (profiles, p)) :
    Writes db { db with profiles } ∧ p.userId = given.userId := by
  have howner := Profile.userId_merged db.profiles given
  refine ⟨.single (.profile (howner ▸ hhas) h), ?_⟩
  rw [(Profile.save_eq_ok h).2, Profile.saved_userId, howner]

/-- A registration writes the user, its friendly id, the account, the profile and the friendly id
once more, each time for the user it has just saved, so that wherever it throws, the writes that
were made leave nothing without an owner. -/
theorem writes_createAccount (hs : Sound db) (r : UserCreateAccount) :
    Writes db (r.execute site db).1 := by
  have hregister : Writes db (r.register site db).1 ∧
      ∀ u, (r.register site db).2 = .ok u → (r.register site db).1.users.Has u.id := by
    have houtcome := User.createIdentity_outcome site db (r.userName site db) r.password r.email
      r.accessToken r.secretKey r.now
    rcases r.register_cases site db with ⟨e, hreg, -⟩ | ⟨-, -, hreg⟩
    · rw [hreg]
      exact ⟨.refl, fun u hu => nomatch hu⟩
    · rw [hreg]
      generalize User.createIdentity site db (r.userName site db) r.password r.email r.accessToken
        r.secretKey r.now = res at houtcome
      -- the three ways in which `createIdentity` ends: before any write, after the user, after the
      -- account
      cases houtcome with
      | refused e hno => exact ⟨.refl, fun u hu => nomatch hu⟩
      | unlinked users u e hsave hname haccount =>
        have huser : Write db { db with users } := .user (Or.inl rfl) hsave
        have hhas : users.Has u.id := Users.has_of_mem (Users.saved_mem (Or.inl rfl) hsave)
        exact ⟨.tail (.single huser) (.friendlyId hhas), fun u' hu' => nomatch hu'⟩
      | created users u socialAccounts sa hunknown hunreserved hsave hname hemail haccount =>
        have huser : Write db { db with users } := .user (Or.inl rfl) hsave
        have hhas : users.Has u.id := Users.has_of_mem (Users.saved_mem (Or.inl rfl) hsave)
        have hnamed : Writes db { db with
            users := users
            friendlyIds := (FriendlyId.generate site.unicode db.friendlyIds FriendlyId.userModel
              u.id u.userName r.now).1 } := .tail (.single huser) (.friendlyId hhas)
        refine ⟨hnamed.trans (writes_link (hnamed.sound hs) hhas haccount).1, ?_⟩
        intro u' hu'
        cases hu'
        exact hhas
  unfold UserCreateAccount.execute
  obtain ⟨hwrites, hhas⟩ := hregister
  cases hres : r.register site db with
  | mk db' res =>
    rw [hres] at hwrites hhas
    cases res with
    | error e => exact hwrites
    | ok u =>
      have hu : db'.users.Has u.id := hhas u rfl
      -- the second part of the action, for a user that is there now
      show Writes db (r.introduce site db' u).1
      unfold UserCreateAccount.introduce
      dsimp only
      split
      · exact hwrites
      · next profiles p hprofile =>
        refine (hwrites.trans (writes_createOrUpdate hu hprofile).1).tail ?_
        exact .friendlyId hu

/-- The profile of a Facebook login is written twice, the second time with the picture; both rows
are those of the user that the login has saved. -/
theorem writes_saveProfile {userId : Int} (hhas : db.users.Has userId) (l : FacebookLogin)
    (firstName lastName : JString) :
    Writes db { db with profiles := (l.saveProfile firstName lastName db.profiles userId).1 } := by
  unfold FacebookLogin.saveProfile
  cases hgiven : l.profile firstName lastName (Profile.getForUser db.profiles userId) userId with
  | error e => exact .refl
  | ok given =>
    have howner : given.userId = userId := by
      obtain ⟨tagline, -, hok⟩ := bind_eq_ok.mp hgiven
      cases hok
      rfl
    dsimp only
    -- either write may be refused, and then what was written before it stays
    cases hfirst : Profile.createOrUpdate db.profiles given l.now with
    | error e => exact .refl
    | ok res =>
      obtain ⟨profiles, p⟩ := res
      obtain ⟨hwrites, hp⟩ := writes_createOrUpdate (howner.symm ▸ hhas) hfirst
      dsimp only
      split
      · exact hwrites
      · next profiles' p' hsecond =>
        refine hwrites.tail (.profile ?_ hsecond)
        show db.users.Has p.userId
        rw [hp, howner]
        exact hhas

/-- A Facebook login writes the user, the profile and the account, in this order, and returns an
account whose user is there: the one just saved, or the earlier owner of a known account, who is
there because the store was sound. -/
theorem writes_facebook (hs : Sound db) (l : FacebookLogin) :
    Writes db (l.create site db).1 ∧
      ∀ sa, (l.create site db).2 = .ok sa → (l.create site db).1.users.Has sa.userId := by
  have hcreate : Writes db (l.createUser site db).1 ∧
      ∀ u, (l.createUser site db).2 = .ok u → (l.createUser site db).1.users.Has u.id := by
    -- now the account, in the store that `createUser` leaves
    unfold FacebookLogin.createUser
    split
    · next firstName lastName hfirst hlast =>
      dsimp only
      cases hsave : db.users.save (l.userRow _ (l.existingUser db)) l.now with
      | error e => exact ⟨.refl, fun u hu => nomatch hu⟩
      | ok res =>
        obtain ⟨users, u⟩ := res
        have hknows := knows_userRow db l
          (site.unicode.toLowerCase (firstName ++ jc '.' :: lastName))
        have huser : Write db { db with users } := .user hknows hsave
        have hhas : users.Has u.id := Users.has_of_mem (Users.saved_mem hknows hsave)
        have hprofile : Writes { db with users } { db with
            users := users
            profiles := (l.saveProfile firstName lastName db.profiles u.id).1 } :=
          writes_saveProfile hhas l firstName lastName
        have hwrites := Relation.ReflTransGen.head huser hprofile
        dsimp only at hwrites ⊢
        split
        · next profiles e hres =>
          rw [hres] at hwrites
          exact ⟨hwrites, fun u hu => nomatch hu⟩
        · next profiles hres =>
          rw [hres] at hwrites
          refine ⟨hwrites, fun u' hu' => ?_⟩
          cases hu'
          exact hhas
    · exact ⟨.refl, fun u hu => nomatch hu⟩
  unfold FacebookLogin.create
  obtain ⟨hwrites, hhas⟩ := hcreate
  cases hres : l.createUser site db with
  | mk db' res =>
    rw [hres] at hwrites hhas
    cases res with
    | error e => exact ⟨hwrites, fun sa hsa => nomatch hsa⟩
    | ok u =>
      dsimp only
      split
      · exact ⟨hwrites, fun sa hsa => nomatch hsa⟩
      · next socialAccounts sa hlink =>
        obtain ⟨hlinked, howner⟩ := writes_link (Writes.sound hwrites hs) (hhas u rfl) hlink
        refine ⟨hwrites.trans hlinked, fun sa' hsa' => ?_⟩
        cases hsa'
        exact howner

/-- A password reset writes the user's row and then the identity account, which was found by that
user's id and so belongs to the user. -/
theorem writes_saveCredentials {u : User} (now : Int) (hknows : db.users.Knows u) :
    Writes db (User.saveCredentials db u now).1 ∧
      ∀ u', (User.saveCredentials db u now).2 = .ok u' →
        (User.saveCredentials db u now).1.users.Has u'.id := by
  unfold User.saveCredentials
  cases hsave : db.users.save u now with
  | error e => exact ⟨.refl, fun u' hu' => nomatch hu'⟩
  | ok res =>
    obtain ⟨users, saved⟩ := res
    have huser : Write db { db with users } := .user hknows hsave
    have hhas : users.Has saved.id := Users.has_of_mem (Users.saved_mem hknows hsave)
    dsimp only
    -- a user without identity account gets none
    cases hsa : SocialAccount.getByUserIdAndProvider db.socialAccounts saved.id .identity with
    | none =>
      refine ⟨.single huser, fun u' hu' => ?_⟩
      cases hu'
      exact hhas
    | some sa =>
      have hcols := (Table.mem_of_fetchOne hsa).2
      rw [Bool.and_eq_true, beq_iff_eq] at hcols
      dsimp only
      split
      · exact ⟨.single huser, fun u' hu' => nomatch hu'⟩
      · next socialAccounts sa' haccount =>
        refine ⟨.tail (.single huser) (.account ?_ haccount), fun u' hu' => ?_⟩
        · show users.Has sa.userId
          rw [hcols.1]
          exact hhas
        · cases hu'
          exact hhas

/-- The reply to a login generates the friendly id of the user it is for. -/
theorem writes_replied {p : Accounts × Except Failure User} (now : Int) (hwrites : Writes db p.1)
    (hhas : ∀ u, p.2 = .ok u → p.1.users.Has u.id) : Writes db (replied site now p).1 := by
  rcases p with ⟨db', e | u⟩
  · exact hwrites
  · exact hwrites.trans (write_generateFriendlyId (hhas u rfl) now)

/-- All rows of a reset code are of the user that was found under the email. -/
theorem writes_generateReset (r : GeneratePasswordResetcode) :
    Writes db (r.execute site db).1 := by
  unfold GeneratePasswordResetcode.execute
  split
  · exact .refl
  · next u hemail =>
    split
    · exact .refl
    · rw [answered_fst, generateResetCode_fst]
      cases hget : User.get db.users.table (r.callFor u.id).userId with
      | none => exact .refl
      | some u' =>
        have hknows : db.users.Knows (u'.locked site (r.callFor u.id)) :=
          Users.knows_of_mem (Table.mem_of_fetchOne hget).1 rfl
        exact (writes_saveCredentials r.now hknows).1

/-- All rows of a reset are of the user that was found under the code. -/
theorem writes_reset (r : ResetPassword) : Writes db (r.execute site db).1 := by
  unfold ResetPassword.execute User.resetPassword
  cases hcode : User.getByResetCode db.users.table r.resetCode with
  | none => exact .refl
  | some u =>
    dsimp only
    split
    · exact .refl
    · have hknows : db.users.Knows (u.unlocked site r) :=
        Users.knows_of_mem (Table.mem_of_fetchOne hcode).1 rfl
      obtain ⟨hwrites, hhas⟩ := writes_saveCredentials r.now hknows
      exact writes_replied r.now hwrites hhas

/-- A login with a password writes the user it has found, who is still there when the reply is
made. -/
theorem writes_checkLogin (username password : JString) (now : Int) :
    Writes db (User.checkLogin site db username password now).1 ∧
      ∀ u, (User.checkLogin site db username password now).2 = .ok u →
        (User.checkLogin site db username password now).1.users.Has u.id := by
  unfold User.checkLogin
  cases hfound : User.findLogin site db username password with
  | none => exact ⟨.refl, fun u hu => nomatch hu⟩
  | some x =>
    dsimp only
    have hknows : db.users.Knows (x.touched now) :=
      Users.knows_of_mem (User.findLogin_mem hfound) rfl
    split
    · exact ⟨.refl, fun u hu => nomatch hu⟩
    · next users u hsave =>
      refine ⟨.single (.user hknows hsave), fun u' hu' => ?_⟩
      cases hu'
      exact Users.has_of_mem (Users.saved_mem hknows hsave)

/-- A login finds the user of the account it has written. The `.get` in the reply to a Facebook
login could throw, but in a sound store the user of every account is there. -/
theorem writes_login (hs : Sound db) (r : UserLoginWithProvider) :
    Writes db (r.execute site db).1 ∧ (r.execute site db).2 ≠ .error .noSuchElement := by
  cases r with
  | identity username password now =>
    obtain ⟨hwrites, hhas⟩ := writes_checkLogin (username.getD []) (password.getD []) now
    refine ⟨writes_replied now hwrites hhas, fun hno => ?_⟩
    obtain ⟨e, he⟩ := replied_eq_error hno
    cases he
  | facebook l =>
    obtain ⟨hwrites, hhas⟩ := writes_facebook hs l
    show Writes db (repliedFor site l.now (l.create site db)).1 ∧
      (repliedFor site l.now (l.create site db)).2 ≠ .error .noSuchElement
    rcases hres : l.create site db with ⟨db', e | sa⟩
    · rw [hres] at hwrites
      exact ⟨hwrites, fun h => nomatch h⟩
    · rw [hres] at hwrites hhas
      -- the lookup of the account's user, which the code does not guard
      obtain ⟨u, hu, hid⟩ := hhas sa rfl
      have hget : db'.users.table.get sa.userId = some u :=
        Table.get_eq_some_iff.mpr ⟨hu, hid⟩
      simp only [repliedFor, hget]
      exact ⟨hwrites.trans (write_generateFriendlyId (Users.has_of_mem hu) l.now),
        fun h => nomatch h⟩
  | facebookFails => exact ⟨.refl, fun h => nomatch h⟩
  | other => exact ⟨.refl, fun h => nomatch h⟩
  | noToken => exact ⟨.refl, fun h => nomatch h⟩

/-- What a profile update writes back belongs to the caller and to the owner of the account that
was read, who is still there after the caller's row was saved. -/
theorem writes_writeBack {u : User} {sa : Option SocialAccount} (hknows : db.users.Knows u)
    (hsa : ∀ x ∈ sa, db.users.Has x.userId) (now : Int) :
    Writes db (UpdateUserProfile.writeBack site db u sa now).1 := by
  unfold UpdateUserProfile.writeBack
  cases hsave : db.users.save u now with
  | error e => exact .refl
  | ok res =>
    obtain ⟨users, saved⟩ := res
    have huser : Write db { db with users } := .user hknows hsave
    have hhas : users.Has saved.id := Users.has_of_mem (Users.saved_mem hknows hsave)
    have hnamed : Writes db { db with
        users := users
        friendlyIds := (FriendlyId.generate site.unicode db.friendlyIds FriendlyId.userModel
          saved.id saved.userName now).1 } := .tail (.single huser) (.friendlyId hhas)
    dsimp only
    cases sa with
    | none => exact hnamed.tail (.friendlyId hhas)
    | some x =>
      dsimp only
      split
      · exact hnamed
      · next socialAccounts x' haccount =>
        exact (hnamed.tail (.account (huser.has (hsa x rfl)) haccount)).tail (.friendlyId hhas)

/-- A profile update writes for the caller; that the caller is stored is all it takes. -/
theorem writes_updateProfile (hs : Sound db) (who : Presented) (r : UpdateUserProfile) :
    Writes db (r.execute site db (caller db who)).1 := by
  cases hcaller : caller db who with
  | none => exact .refl
  | some u =>
    have hmem := caller_mem hcaller
    unfold UpdateUserProfile.execute
    dsimp only
    split
    · split
      · exact .refl
      · next profiles p hprofile =>
        rw [UpdateUserProfile.changed_eq]
        refine (writes_createOrUpdate (Users.has_of_mem hmem) hprofile).1.trans ?_
        refine writes_writeBack ?_ (fun x hx => ?_) r.now
        · exact Users.knows_of_mem hmem rfl
        · exact hs.socialAccounts x (Table.mem_of_fetchOne hx).1
    · exact .refl
    · exact .refl
    · exact .refl

theorem writes_generateOauthInfo (r : GenerateOauthInfo) :
    Writes db (User.generateOauthInfo db r).1 := by
  unfold User.generateOauthInfo
  cases hget : db.users.table.get r.userId with
  | none => exact .refl
  | some u =>
    dsimp only
    split
    · exact .refl
    · next users saved hsave =>
      have hknows : db.users.Knows (u.withTokens r.accessToken r.secretKey) :=
        Users.knows_of_mem (Table.mem_of_get hget) rfl
      exact .single (.user hknows hsave)

/-- **Every call** but a removal is a sequence of writes. -/
theorem writes_step (hs : Sound db) (c : AccountCall) (hc : ∀ userId, c ≠ .remove userId) :
    Writes db (c.execute site db).1 := by
  cases c with
  | createAccount r => exact of_answered (P := Writes db) (writes_createAccount hs r)
  | login r => exact of_answered (P := Writes db) (writes_login hs r).1
  | generateReset r => exact of_answered (P := Writes db) (writes_generateReset r)
  | reset r => exact of_answered (P := Writes db) (writes_reset r)
  | updateProfile who r => exact of_answered (P := Writes db) (writes_updateProfile hs who r)
  | generateOauthInfo r => exact of_answered (P := Writes db) (writes_generateOauthInfo r)
  | remove userId => exact absurd rfl (hc userId)

/-! ## Removals -/

/-- Exactly one user goes. -/
theorem has_remove {userId i : Int} :
    (User.remove db userId).users.Has i ↔ db.users.Has i ∧ i ≠ userId := by
  constructor
  · rintro ⟨u, hu, rfl⟩
    obtain ⟨hmem, hne⟩ := Table.mem_deleteWhere.mp hu
    exact ⟨Users.has_of_mem hmem, beq_eq_false_iff_ne.mp hne⟩
  · rintro ⟨⟨u, hu, rfl⟩, hne⟩
    exact ⟨u, Table.mem_deleteWhere.mpr ⟨hu, beq_eq_false_iff_ne.mpr hne⟩, rfl⟩

/-- A removal takes the rows that refer to the user as well, so that none is left without an
owner. -/
theorem Sound.remove (hs : Sound db) (userId : Int) : Sound (User.remove db userId) := by
  refine ⟨fun sa hsa => ?_, fun p hp => ?_, fun f hf hmodel => ?_⟩
  · obtain ⟨hmem, hne⟩ := Table.mem_deleteWhere.mp hsa
    exact has_remove.mpr ⟨hs.socialAccounts sa hmem, beq_eq_false_iff_ne.mp hne⟩
  · obtain ⟨hmem, hne⟩ := Table.mem_deleteWhere.mp hp
    exact has_remove.mpr ⟨hs.profiles p hmem, beq_eq_false_iff_ne.mp hne⟩
  · obtain ⟨hmem, hne⟩ := Table.mem_deleteWhere.mp hf
    refine has_remove.mpr ⟨hs.friendlyIds f hmem hmodel, fun heq => ?_⟩
    rw [hmodel, heq] at hne
    simp at hne

/-- Only a login looks for the user of an account, and it finds that user. The other calls end with
exceptions of their own or of the models. -/
theorem execute_ne_noSuchElement (hs : Sound db) (c : AccountCall) :
    (c.execute site db).2 ≠ .error .noSuchElement := by
  intro h
  cases c with
  | createAccount r =>
    obtain ⟨e, -, he⟩ := answered_eq_error.mp h
    cases he
  | login r =>
    obtain ⟨e, hno, rfl⟩ := answered_eq_error.mp h
    exact (writes_login hs r).2 hno
  | generateReset r =>
    obtain ⟨e, hno, rfl⟩ := answered_eq_error.mp h
    -- neither an unknown email nor a missing account throws `NoSuchElementException`
    unfold GeneratePasswordResetcode.execute at hno
    split at hno
    · cases hno
    · split at hno
      · cases hno
      · obtain ⟨e', -, he'⟩ := answered_eq_error.mp hno
        cases he'
  | reset r =>
    obtain ⟨e, hno, rfl⟩ := answered_eq_error.mp h
    obtain ⟨e', he'⟩ := replied_eq_error hno
    cases he'
  | updateProfile who r =>
    obtain ⟨e, -, he⟩ := answered_eq_error.mp h
    cases he
  | generateOauthInfo r =>
    obtain ⟨e, -, he⟩ := answered_eq_error.mp h
    cases he
  | remove userId => cases h

/-- **Every call** keeps the store sound: a removal by what it takes along, the others write by
write. -/
theorem Sound.step (hs : Sound db) (c : AccountCall) : Sound (c.execute site db).1 := by
  by_cases hc : ∃ userId, c = .remove userId
  · obtain ⟨userId, rfl⟩ := hc
    exact hs.remove userId
  · exact (writes_step hs c fun userId heq => hc ⟨userId, heq⟩).sound hs

/-- **Every call** leaves who is gone gone, another removal included. -/
theorem Gone.step {userId : Int} (hg : Gone userId db.users) (hs : Sound db) (c : AccountCall) :
    Gone userId (c.execute site db).1.users := by
  by_cases hc : ∃ i, c = .remove i
  · obtain ⟨i, rfl⟩ := hc
    exact ⟨fun hhas => hg.not_has (has_remove.mp hhas).1, hg.issued⟩
  · exact (writes_step hs c fun i heq => hc ⟨i, heq⟩).gone hg

end

/-! ## Whole runs -/

/-- **Everything belongs to somebody.** In every store that account calls make of a sound one,
also when they throw half way, every social account, profile and friendly id belongs to a user
that is there; and so does the account of every Facebook login. -/
theorem references_hold (site : Site) {start : Accounts} (hstart : Sound start)
    (run : List AccountCall) :
    Run.Throughout (AccountCall.step site)
      (fun db => Sound db ∧ ∀ c : AccountCall, (c.execute site db).2 ≠ .error .noSuchElement)
      start run := by
  refine Run.throughout_of_meets (C := fun _ _ => True) (I := Sound) (fun db c db' hstep _ hs => ?_)
    (fun db hs => ⟨hs, execute_ne_noSuchElement hs⟩) hstart
    (Run.meets_of_forall (fun _ _ _ => trivial) _)
  cases hstep
  exact hs.step c

/-- Carol registers, logs in, deactivates the account and is removed. -/
theorem references_hold_carol :
    Sound Accounts.empty ∧ Run.Throughout (AccountCall.step plainSite)
      (fun db => Sound db ∧ ∀ c : AccountCall,
        (c.execute plainSite db).2 ≠ .error .noSuchElement)
      Accounts.empty (.createAccount carol :: carolLeaves ++ [.remove 1]) :=
  ⟨sound_empty, references_hold plainSite sound_empty _⟩

/-- **Removed for good.** A removal deletes the user with everything that belongs to it, leaves
the rows of everybody else, and whatever calls follow, neither a user with that id nor anything
that belongs to one is ever there again. -/
theorem removed_for_good (site : Site) {db : Accounts} {userId : Int} (hsound : Sound db)
    (hhas : db.users.Has userId) (run : List AccountCall) :
    (∀ u, u.id ≠ userId →
      (u ∈ (User.remove db userId).users.table.rows ↔ u ∈ db.users.table.rows)) ∧
    (∀ sa, sa.userId ≠ userId →
      (sa ∈ (User.remove db userId).socialAccounts.rows ↔ sa ∈ db.socialAccounts.rows)) ∧
    (∀ p, p.userId ≠ userId →
      (p ∈ (User.remove db userId).profiles.rows ↔ p ∈ db.profiles.rows)) ∧
    (∀ f, ¬ (f.model = FriendlyId.userModel ∧ f.modelId = userId) →
      (f ∈ (User.remove db userId).friendlyIds.rows ↔ f ∈ db.friendlyIds.rows)) ∧
    Run.Throughout (AccountCall.step site)
      (fun s => (∀ u ∈ s.users.table.rows, u.id ≠ userId) ∧
        (∀ sa ∈ s.socialAccounts.rows, sa.userId ≠ userId) ∧
        (∀ p ∈ s.profiles.rows, p.userId ≠ userId) ∧
        ∀ f ∈ s.friendlyIds.rows, f.model = FriendlyId.userModel → f.modelId ≠ userId)
      (User.remove db userId) run := by
  -- the sequence has passed the id, so no later insert gives it to anybody
  have hgone : Gone userId (User.remove db userId).users := by
    refine ⟨fun h => (has_remove.mp h).2 rfl, ?_⟩
    obtain ⟨u, hu, rfl⟩ := hhas
    have hissued : u.id < db.users.table.nextKey := Table.key_lt_nextKey hu
    exact hissued
  refine ⟨fun u hne => ?_, fun sa hne => ?_, fun p hne => ?_, fun f hne => ?_, ?_⟩
  · exact Table.mem_deleteWhere.trans (and_iff_left (beq_eq_false_iff_ne.mpr hne))
  · exact Table.mem_deleteWhere.trans (and_iff_left (beq_eq_false_iff_ne.mpr hne))
  · exact Table.mem_deleteWhere.trans (and_iff_left (beq_eq_false_iff_ne.mpr hne))
  · refine Table.mem_deleteWhere.trans (and_iff_left ?_)
    rw [Bool.and_eq_false_iff, beq_eq_false_iff_ne, beq_eq_false_iff_ne]
    exact not_and_or.mp hne
  · -- from here on the invariant is that the store is sound and the id is gone
    refine Run.throughout_of_meets (C := fun _ _ => True)
      (I := fun s => Sound s ∧ Gone userId s.users) (fun s c s' hstep _ hs => ?_)
      (fun s hs => ?_) ⟨hsound.remove userId, hgone⟩
      (Run.meets_of_forall (fun _ _ _ => trivial) _)
    · cases hstep
      exact ⟨hs.1.step c, hs.2.step hs.1 c⟩
    · -- what belonged to the user would belong to somebody who is there
      have hno : ∀ i, s.users.Has i → i ≠ userId := by
        rintro i hi rfl
        exact hs.2.not_has hi
      exact ⟨fun u hu => hno _ (Users.has_of_mem hu),
        fun sa hsa => hno _ (hs.1.socialAccounts sa hsa),
        fun p hp => hno _ (hs.1.profiles p hp),
        fun f hf hmodel => hno _ (hs.1.friendlyIds f hf hmodel)⟩

/-- Carol, removed, registers once more. -/
theorem removed_for_good_carol :
    Sound carolRegistered ∧ carolRegistered.users.Has 1 ∧
      Run.Throughout (AccountCall.step plainSite) (fun s => ∀ u ∈ s.users.table.rows, u.id ≠ 1)
        (User.remove carolRegistered 1) [.createAccount carol] := by
  have hsound : Sound carolRegistered := sound_empty.step (.createAccount carol)
  have hhas : carolRegistered.users.Has 1 := by
    show ∃ u ∈ carolRegistered.users.table.rows, u.id = 1
    decide
  have hgone := (removed_for_good plainSite hsound hhas [.createAccount carol]).2.2.2.2
  refine ⟨hsound, hhas, hgone.1.1, fun s hs => ?_⟩
  exact (hgone.2 s hs).1

end Maiden
