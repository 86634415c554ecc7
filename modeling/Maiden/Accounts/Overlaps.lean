import Maiden.Accounts.Sessions
import Maiden.Api.Requests

/-!
# Requests that overlap

Two strings let a request act for a user: the access token, and the code that a forgotten
password is reset with. Both are columns of the user's row, and every request that changes a user
reads the row, and later writes all of it back. When requests overlap, such a write may bring
back columns that another request has replaced in the meantime.

It never brings them to anybody else. `one_user_per_credential`: however the requests are
interleaved, a string that is drawn once, or is in the store and not drawn again, is good for one
and the same user at all times. And it takes a request that was under way at the time:
`revoked_for_good`, for a string that is good for nobody while no request is.
-/

namespace Maiden

open JString Threads Thread AccountThread

/-! ## What requests keep -/

/-- An assertion that survives all writes, if the rows that are written to the Users table are
sound; and those that it finds there are. -/
structure AccountInvariant (I : Accounts → Prop) (Sound : User → Prop) : Prop where
  read : ∀ db u, I db → u ∈ db.users.table.rows → Sound u
  saveUser : ∀ db u now users saved, I db → Sound u → db.users.save u now = .ok (users, saved) →
    I { db with users }
  saveAccount : ∀ db sa now, I db → I { db with
    socialAccounts := (upsert db.socialAccounts sa now).1 }
  saveProfile : ∀ db profiles, I db → I { db with profiles }
  saveFriendlyId : ∀ db friendlyIds, I db → I { db with friendlyIds }

section

variable {α β τ : Type} {save : Accounts → Except Failure (τ × α)} {set : Accounts → τ → Accounts}

/-- What a save has done when it has gone through: one table is new. -/
theorem saving_eq_ok (save : Accounts → Except Failure (τ × α)) (set : Accounts → τ → Accounts)
    {db db' : Accounts} {a : α}
    (h : ((save db).map fun r => (set db r.1, r.2)).mapError ActionFailure.thrown = .ok (db', a)) :
    ∃ t, save db = .ok (t, a) ∧ db' = set db t := by
  cases hsave : save db with
  | error e =>
    rw [hsave] at h
    cases h
  | ok r =>
    rw [hsave] at h
    cases h
    exact ⟨r.1, rfl, rfl⟩

/-- What a write keeps, if it is not refused. -/
theorem keeps_saving {I : Accounts → Prop}
    (h : ∀ db t a, I db → save db = .ok (t, a) → I (set db t)) :
    (saving save set).Keeps I fun _ => True := by
  refine keeps_commit fun db db' a hdb hok => ?_
  obtain ⟨t, hsave, rfl⟩ := saving_eq_ok save set hok
  exact ⟨h db t a hdb hsave, trivial⟩

/-- The rule for a lookup: what comes after it may use what was found. -/
theorem keeps_found {I : Accounts → Prop} {Q : β → Prop} {o : Option α} {e : ActionFailure}
    {f : α → AccountThread β} (h : ∀ a, o = some a → (f a).Keeps I Q) :
    (found o e >>= f).Keeps I Q := by
  cases o with
  | none => trivial
  | some a => exact h a rfl

/-- The rule for the save that decides: on any store where all assertions hold it makes one of them
last. -/
theorem decides_saving {P : Int → Accounts → Prop} {f : α → AccountThread β}
    (h : ∀ db t a, (∀ i, P i db) → save db = .ok (t, a) →
      ∃ i, P i (set db t) ∧ (f a).Keeps (P i) fun _ => True) :
    (saving save set >>= f).Decides P := by
  refine decides_commit fun db db' a hdb hok => ?_
  obtain ⟨t, hsave, rfl⟩ := saving_eq_ok save set hok
  exact h db t a hdb hsave

end

/-- The caller's row with the flags of a profile update. -/
def UpdateUserProfile.flagged (r : UpdateUserProfile) (u : User) : User :=
  { u with
    deactivated := flag r.deactivate u.deactivated
    isPrivate := flag r.isPrivate u.isPrivate
    contactable := flag r.contactable u.contactable }

/-- The row that the request writes is sound, if the one it has read is. -/
def AccountRequest.Writes (site : Site) (Sound : User → Prop) : AccountRequest → Prop
  | .createAccount r => ∀ userName password email,
      Sound (User.new site userName password email r.accessToken r.secretKey r.now)
  | .login (.identity _ _ now) => ∀ u, Sound u → Sound (u.touched now)
  | .login (.facebook l) => ∀ userName existing, (∀ u, existing = some u → Sound u) →
      Sound (l.userRow userName existing)
  | .login _ => True
  | .generateReset r => ∀ u userId, Sound u → Sound (u.locked site (r.callFor userId))
  | .reset r => ∀ u, Sound u → Sound (u.unlocked site r)
  | .updateProfile _ r => ∀ u, Sound u → Sound (r.flagged u)

namespace AccountInvariant

variable {I : Accounts → Prop} {Sound : User → Prop} (inv : AccountInvariant I Sound) (site : Site)

include inv

/-! ### Behind the user's row -/

/-- Accounts are not what the assertion is about, and neither are the profiles and the friendly ids
of the lemmas that follow. -/
theorem keeps_storeSocialAccount (sa : SocialAccount) (now : Int) :
    (storeSocialAccount sa now).Keeps I fun _ => True := by
  refine keeps_saving fun db t a hdb hsave => ?_
  obtain ⟨-, rfl, -⟩ := SocialAccount.save_eq_ok hsave
  exact inv.saveAccount db sa now hdb

theorem keeps_storeProfile (p : Profile) (now : Int) :
    (storeProfile p now).Keeps I fun _ => True :=
  keeps_saving fun db profiles _ hdb _ => inv.saveProfile db profiles hdb

theorem keeps_friendlyId (u : User) (now : Int) :
    (friendlyId site u now).Keeps I fun _ => True :=
  keeps_fetch fun _ _ => keeps_fetch fun _ _ => keeps_saving fun db friendlyIds _ hdb _ =>
    inv.saveFriendlyId db friendlyIds hdb

theorem keeps_createSocialAccount (provider : Provider) (userId : Int)
    (uid accessToken secretKey extra : JString) (now : Int) :
    (createSocialAccount provider userId uid accessToken secretKey extra now).Keeps I
      fun _ => True :=
  keeps_fetch fun _ _ => inv.keeps_storeSocialAccount _ _

theorem keeps_createOrUpdateProfile (given : Profile) (now : Int) :
    (createOrUpdateProfile given now).Keeps I fun _ => True :=
  keeps_fetch fun _ _ => inv.keeps_storeProfile _ _

theorem keeps_storeIfAny (sa : Option SocialAccount) (now : Int) :
    (storeIfAny sa now).Keeps I fun _ => True := by
  cases sa with
  | none => trivial
  | some sa => exact keeps_map (inv.keeps_storeSocialAccount sa now) fun _ h => h

theorem keeps_reply (now : Int) (u : User) : (reply site now u).Keeps I fun _ => True :=
  keeps_bind (inv.keeps_friendlyId site u now) fun _ _ => trivial

/-- After the user is saved, nothing of a registration writes a user again. -/
theorem keeps_linkCode (r : UserCreateAccount) (password : JString) (u : User) :
    (r.linkCode site password u).Keeps I fun _ => True :=
  keeps_bind (inv.keeps_friendlyId site u r.now) fun _ _ =>
    keeps_bind (inv.keeps_createSocialAccount _ _ _ _ _ _ _) fun _ _ =>
      keeps_bind (inv.keeps_createOrUpdateProfile _ _) fun _ _ => inv.keeps_reply site r.now u

/-- Nor does anything of a Facebook login after it has saved its user. -/
theorem keeps_finishFacebook (l : FacebookLogin) (firstName lastName : JString) (userId : Int) :
    (l.saveProfileCode firstName lastName userId >>= fun _ => l.linkCode site userId).Keeps I
      fun _ => True := by
  have hprofile : (l.saveProfileCode firstName lastName userId).Keeps I fun _ => True :=
    keeps_fetch fun _ _ => keeps_lift fun _ _ =>
      keeps_bind (inv.keeps_createOrUpdateProfile _ _) fun _ _ => keeps_fetch fun _ _ =>
        keeps_bind (inv.keeps_storeProfile _ _) fun _ _ => trivial
  refine keeps_bind hprofile fun _ _ => ?_
  exact keeps_bind (inv.keeps_createSocialAccount _ _ _ _ _ _ _) fun _ _ => keeps_fetch fun _ _ =>
    keeps_found fun u _ => inv.keeps_reply site l.now u

/-- A password that has changed is copied to the account, which is another table. -/
theorem keeps_syncAccountCode (now : Int) (u : User) :
    (User.syncAccountCode now u).Keeps I fun _ => True := by
  refine keeps_fetch fun db _ => ?_
  cases SocialAccount.getByUserIdAndProvider db.socialAccounts u.id .identity with
  | none => trivial
  | some sa => exact keeps_bind (inv.keeps_storeSocialAccount _ _) fun _ _ => trivial

theorem keeps_finishCode (sa : Option SocialAccount) (now : Int) (u : User) :
    (UpdateUserProfile.finishCode site sa now u).Keeps I fun _ => True :=
  keeps_bind (inv.keeps_friendlyId site u now) fun _ _ =>
    keeps_bind (inv.keeps_storeIfAny sa now) fun _ _ => inv.keeps_reply site now u

/-! ### Action by action -/

/-- The save of a user keeps the assertion if the row is sound; the rest of the code has no say in
it. -/
theorem keeps_storeUser {α : Type} {u : User} {now : Int} {f : User → AccountThread α}
    (hu : Sound u) (hf : ∀ u, (f u).Keeps I fun _ => True) :
    (storeUser u now >>= f).Keeps I fun _ => True := by
  have hsaved : (storeUser u now).Keeps I fun _ => True :=
    keeps_saving fun db users saved hdb hsave =>
      inv.saveUser db u now users saved hdb hu hsave
  exact keeps_bind hsaved fun u _ => hf u

/-- A registration writes one user row, the new one. -/
theorem keeps_createAccount {r : UserCreateAccount}
    (h : AccountRequest.Writes site Sound (.createAccount r)) :
    (r.code site).Keeps I fun _ => True := by
  refine keeps_fetch fun db _ => keeps_lift fun password _ => keeps_lift fun email _ =>
    keeps_fetch fun db' _ => ?_
  split
  · trivial
  · exact inv.keeps_storeUser (h _ _ _) (inv.keeps_linkCode site r password)

/-- A login writes back the row it has read, with a new time. -/
theorem keeps_loginCode {username password : JString} {now : Int}
    (h : ∀ u, Sound u → Sound (u.touched now)) :
    (User.loginCode site username password now).Keeps I fun _ => True := by
  refine keeps_fetch fun db hdb => keeps_found fun u hu => ?_
  have hsound := inv.read db u hdb (User.findLogin_mem hu)
  exact inv.keeps_storeUser (h u hsound) (inv.keeps_reply site now)

/-- A Facebook login writes the row it makes of the user it has found, or of nobody. -/
theorem keeps_facebook {l : FacebookLogin}
    (h : AccountRequest.Writes site Sound (.login (.facebook l))) :
    (l.code site).Keeps I fun _ => True := by
  refine keeps_found fun firstName _ => keeps_found fun lastName _ => keeps_fetch fun db _ =>
    keeps_fetch fun db' hdb' => ?_
  refine inv.keeps_storeUser (h _ _ fun u hu => ?_) fun u =>
    inv.keeps_finishFacebook site l firstName lastName u.id
  refine inv.read db' u hdb' ?_
  cases haccount : SocialAccount.getByUid db.socialAccounts .facebook l.id with
  | none =>
    rw [haccount] at hu
    exact (Table.mem_of_fetchOne hu).1
  | some a =>
    rw [haccount] at hu
    exact Table.mem_of_get hu

/-- A request for a reset code writes the row with the code in it. -/
theorem keeps_generateReset {r : GeneratePasswordResetcode}
    (h : AccountRequest.Writes site Sound (.generateReset r)) :
    (r.code site).Keeps I fun _ => True := by
  refine keeps_fetch fun _ _ => keeps_found fun user _ => keeps_fetch fun _ _ =>
    keeps_found fun _ _ => keeps_fetch fun db hdb => keeps_found fun u hu => ?_
  have hsound := inv.read db u hdb (Table.mem_of_fetchOne hu).1
  exact inv.keeps_storeUser (h u _ hsound) fun u =>
    keeps_bind (inv.keeps_syncAccountCode r.now u) fun _ _ => trivial

/-- A reset writes the row with the new password and without the code. -/
theorem keeps_reset {r : ResetPassword} (h : AccountRequest.Writes site Sound (.reset r)) :
    (r.code site).Keeps I fun _ => True := by
  refine keeps_fetch fun db hdb => keeps_found fun u hu => keeps_lift fun _ _ => ?_
  have hsound := inv.read db u hdb (Table.mem_of_fetchOne hu).1
  refine inv.keeps_storeUser (h u hsound) fun u => ?_
  exact keeps_bind (inv.keeps_syncAccountCode r.now u) fun u _ => inv.keeps_reply site r.now u

/-- A profile update writes the caller's row with the given columns changed. The row was read at
the start of the request and is not read again before it is written. -/
theorem keeps_updateProfile {who : Presented} {r : UpdateUserProfile}
    (h : AccountRequest.Writes site Sound (.updateProfile who r)) :
    (r.code site who).Keeps I fun _ => True := by
  refine keeps_fetch fun db hdb => keeps_found fun u hu => keeps_lift fun _ _ =>
    keeps_lift fun _ _ => keeps_lift fun _ _ => ?_
  have hsound := inv.read db u hdb (caller_mem hu)
  refine keeps_bind (inv.keeps_createOrUpdateProfile _ _) fun _ _ => keeps_fetch fun _ _ => ?_
  rw [UpdateUserProfile.changed_eq]
  exact inv.keeps_storeUser (h u hsound) (inv.keeps_finishCode site _ r.now)

/-- **Every request keeps such an assertion**, whatever the others do in between, if the user rows
that it writes are sound: the assertion is about users, and each request saves one. -/
theorem keeps_code {r : AccountRequest} (h : r.Writes site Sound) :
    (r.code site).Keeps I fun _ => True := by
  cases r with
  | createAccount r => exact keeps_map (inv.keeps_createAccount site h) fun _ h => h
  | login r =>
    cases r with
    | identity username password now => exact keeps_map (inv.keeps_loginCode site h) fun _ h => h
    | facebook l => exact keeps_map (inv.keeps_facebook site h) fun _ h => h
    | facebookFails => trivial
    | other => trivial
    | noToken => trivial
  | generateReset r => exact keeps_map (inv.keeps_generateReset site h) fun _ h => h
  | reset r => exact keeps_map (inv.keeps_reset site h) fun _ h => h
  | updateProfile who r => exact keeps_map (inv.keeps_updateProfile site h) fun _ h => h

end AccountInvariant

/-! ## Credentials -/

/-- The strings that stand for a user. -/
inductive Credential where
  | accessToken
  | resetCode
deriving DecidableEq

namespace Credential

/-- The user's own. -/
def of : Credential → User → Option JString
  | .accessToken, u => some u.accessToken
  | .resetCode, u => u.resetCode

/-- Whom the code takes a string for. -/
def user : Credential → Accounts → JString → Option User
  | .accessToken, db, v => User.getByAccessToken db.users.table v
  | .resetCode, db, v => User.getByResetCode db.users.table v

/-- A credential is taken for a stored user who has it. -/
theorem user_eq_some {c : Credential} {db : Accounts} {v : JString} {u : User}
    (h : c.user db v = some u) : u ∈ db.users.table.rows ∧ c.of u = some v := by
  cases c with
  | accessToken =>
    obtain ⟨hmem, hcol⟩ := Table.mem_of_fetchOne h
    exact ⟨hmem, congrArg some (beq_iff_eq.mp hcol)⟩
  | resetCode =>
    obtain ⟨hmem, hcol⟩ := Table.mem_of_fetchOne h
    exact ⟨hmem, beq_iff_eq.mp hcol⟩

/-- Saving a user changes neither token nor reset code. -/
theorem of_saved {c : Credential} {us us' : Users} {u saved : User} {now : Int}
    (h : us.save u now = .ok (us', saved)) : c.of saved = c.of u := by
  obtain ⟨-, -, rfl⟩ := Users.save_eq_ok h
  cases c with
  | accessToken =>
    exact upsert_saved _ (fun _ _ => rfl) (fun _ _ _ => rfl) us.table u now
  | resetCode => exact upsert_saved _ (fun _ _ => rfl) (fun _ _ _ => rfl) us.table u now

end Credential

/-- What chance has drawn for a request. -/
def AccountRequest.draws : Credential → AccountRequest → Option JString
  | .accessToken, .createAccount r => some r.accessToken
  | .accessToken, .login (.facebook l) => some l.accessToken
  | .accessToken, .generateReset r => some r.accessToken
  | .accessToken, .reset r => some r.accessToken
  | .resetCode, .generateReset r => some r.resetCode
  | _, _ => none

/-- The credential is good for the user `i` or for nobody. -/
def BelongsTo (c : Credential) (v : JString) (i : Int) (db : Accounts) : Prop :=
  ∀ u ∈ db.users.table.rows, c.of u = some v → u.id = i

section

variable {c : Credential} {v : JString} {i : Int}

/-- The rows after a write are the one written and others that were there. -/
theorem mem_saved {us us' : Users} {u saved r : User} {now : Int}
    (h : us.save u now = .ok (us', saved)) (hr : r ∈ us'.table.rows) :
    r = saved ∨ r ∈ us.table.rows := by
  obtain ⟨-, htable, rfl⟩ := Users.save_eq_ok h
  rw [htable] at hr
  exact (mem_of_mem_upsert hr).imp_right And.left

/-- A row with the credential is that of the user, and not a new one. -/
theorem belongsTo_invariant (c : Credential) (v : JString) (i : Int) :
    AccountInvariant (BelongsTo c v i) fun u => c.of u = some v → u.id = i ∧ u.id ≠ 0 where
  read _ u hdb hu hcol := ⟨hdb u hu hcol, Table.key_ne_zero_of_mem hu⟩
  saveUser db u now users saved hdb hu hsave := by
    intro r hr hcol
    rcases mem_saved hsave hr with rfl | hold
    · obtain ⟨hid, hne⟩ := hu (Credential.of_saved hsave ▸ hcol)
      rw [Users.saved_id hsave, Users.savedId, if_neg hne, hid]
    · exact hdb r hold hcol
  saveAccount _ _ _ hdb := hdb
  saveProfile _ _ hdb := hdb
  saveFriendlyId _ _ hdb := hdb

/-- A request that has not drawn the credential writes it for nobody else: whatever it writes back
was in the row that it read, under the same user. -/
theorem writes_of_draws_ne (site : Site) {r : AccountRequest} (h : r.draws c ≠ some v) :
    r.Writes site fun u => c.of u = some v → u.id = i ∧ u.id ≠ 0 := by
  cases r with
  | createAccount r =>
    intro userName password email hcol
    cases c with
    | accessToken => exact absurd hcol h
    | resetCode => cases hcol
  | login r =>
    cases r with
    | identity username password now =>
      -- an identity login writes the row back as it was, but for the time
      intro u hu hcol
      cases c <;> exact hu hcol
    | facebook l =>
      intro userName existing _ hcol
      cases c with
      | accessToken => cases existing <;> exact absurd hcol h
      | resetCode => cases existing <;> cases hcol
    | facebookFails => trivial
    | other => trivial
    | noToken => trivial
  | generateReset r =>
    intro u userId _ hcol
    -- a reset code replaces the token as well, and both were drawn for this request
    cases c <;> exact absurd hcol h
  | reset r =>
    intro u _ hcol
    cases c with
    | accessToken => exact absurd hcol h
    | resetCode => cases hcol
  | updateProfile who r =>
    intro u hu hcol
    cases c <;> exact hu hcol

/-! ### The one who gets it -/

/-- The one write to the Users table gives the credential to one user. -/
theorem decides_storeUser {α : Type} {u : User} {now : Int} {f : User → AccountThread α}
    (hf : ∀ u j, (f u).Keeps (BelongsTo c v j) fun _ => True) :
    (storeUser u now >>= f).Decides (BelongsTo c v) := by
  refine decides_saving fun db users saved hdb hsave => ⟨saved.id, fun r hr hcol => ?_, hf saved _⟩
  rcases mem_saved hsave hr with rfl | hold
  · rfl
  · exact hdb saved.id r hold hcol

/-- A request that has drawn the credential decides whose it is with the first user row that it
saves, and keeps it so from there on. -/
theorem decides_code (site : Site) (r : AccountRequest) :
    (r.code site).Decides (BelongsTo c v) := by
  have inv := belongsTo_invariant c v
  cases r with
  | createAccount r =>
    refine decides_map <| decides_fetch fun _ _ => decides_lift fun _ _ => decides_lift fun _ _ =>
      decides_fetch fun _ _ => ?_
    split
    · trivial
    · exact decides_storeUser fun u j => (inv j).keeps_linkCode site r _ u
  | login r =>
    cases r with
    | identity username password now =>
      exact decides_map <| decides_fetch fun _ _ => decides_lift fun _ _ =>
        decides_storeUser fun u j => (inv j).keeps_reply site now u
    | facebook l =>
      exact decides_map <| decides_lift fun _ _ => decides_lift fun _ _ => decides_fetch fun _ _ =>
        decides_fetch fun _ _ => decides_storeUser fun u j =>
          (inv j).keeps_finishFacebook site l _ _ u.id
    | facebookFails => trivial
    | other => trivial
    | noToken => trivial
  | generateReset r =>
    exact decides_map <| decides_fetch fun _ _ => decides_lift fun _ _ => decides_fetch fun _ _ =>
      decides_lift fun _ _ => decides_fetch fun _ _ => decides_lift fun _ _ =>
        decides_storeUser fun u j =>
          keeps_bind ((inv j).keeps_syncAccountCode r.now u) fun _ _ => trivial
  | reset r =>
    exact decides_map <| decides_fetch fun _ _ => decides_lift fun _ _ => decides_lift fun _ _ =>
      decides_storeUser fun u j =>
        keeps_bind ((inv j).keeps_syncAccountCode r.now u) fun u _ =>
          (inv j).keeps_reply site r.now u
  | updateProfile who r =>
    refine decides_map <| decides_fetch fun _ _ => decides_lift fun _ _ => decides_lift fun _ _ =>
      decides_lift fun _ _ => decides_lift fun _ _ => ?_
    -- the profile is written first, which decides nothing
    refine decides_bind (fun j => (inv j).keeps_createOrUpdateProfile _ _) fun _ =>
      decides_fetch fun _ _ => ?_
    rw [UpdateUserProfile.changed_eq]
    exact decides_storeUser fun u j => (inv j).keeps_finishCode site _ r.now u

end

/-! ## All interleavings -/

section

variable {c : Credential} {v : JString} {db : Accounts}

/-- Nobody has what does not occur. -/
theorem belongsTo_of_countP_eq_zero
    (h : db.users.table.rows.countP (fun u => c.of u == some v) = 0) (i : Int) :
    BelongsTo c v i db :=
  fun u hu hcol => absurd (beq_iff_eq.mpr hcol) (List.countP_eq_zero.mp h u hu)

/-- What occurs once belongs to one user. -/
theorem exists_belongsTo_of_countP_le_one
    (h : db.users.table.rows.countP (fun u => c.of u == some v) ≤ 1) : ∃ i, BelongsTo c v i db := by
  rw [List.countP_eq_length_filter] at h
  cases hrows : db.users.table.rows.filter fun u => c.of u == some v with
  | nil =>
    refine ⟨0, belongsTo_of_countP_eq_zero ?_ 0⟩
    rw [List.countP_eq_length_filter, hrows]
    rfl
  | cons owner rest =>
    rw [hrows] at h
    obtain rfl : rest = [] := List.eq_nil_of_length_eq_zero (by simpa using h)
    refine ⟨owner.id, fun u hu hcol => ?_⟩
    have hmem : u ∈ db.users.table.rows.filter fun u => c.of u == some v :=
      List.mem_filter.mpr ⟨hu, beq_iff_eq.mpr hcol⟩
    rw [hrows] at hmem
    rw [List.mem_singleton.mp hmem]

end

/-- **One user for each credential.** Requests of any kind overlap in any way. A token or a reset
code that occurs once, in the store at the start or drawn for one of the requests, is taken for the
same user at all times of the run, whenever it is taken for anybody. No request locks what it has
read, so this rests on the drawing alone: nothing else brings a credential to another row. -/
theorem one_user_per_credential (site : Site) (c : Credential) (v : JString) {start : Accounts}
    {run : List (Move AccountRequest)}
    (honce : start.users.table.rows.countP (fun u => c.of u == some v) +
      run.countP (Move.starts fun r => r.draws c == some v) ≤ 1) :
    ∃ i, Run.Throughout (Pool.step (AccountRequest.code site))
      (fun p => ∀ u, c.user p.store v = some u → u.id = i) { store := start } run := by
  have hneutral : ∀ r : AccountRequest, (r.draws c == some v) = false →
      ∀ i, (r.code site).Keeps (BelongsTo c v i) fun _ => True := fun r hr i =>
    (belongsTo_invariant c v i).keeps_code site
      (writes_of_draws_ne site (beq_eq_false_iff_ne.mp hr))
  have hidle : ∀ i, BelongsTo c v i start → Pool.Keeps (BelongsTo c v i)
      ({ store := start } : Pool Accounts ActionFailure AccountReply) :=
    fun i h => ⟨h, fun t ht => nomatch ht⟩
  have hbelongs : ∃ i, Run.Throughout (Pool.step (AccountRequest.code site))
      (fun p => BelongsTo c v i p.store) { store := start } run := by
    by_cases hzero : start.users.table.rows.countP (fun u => c.of u == some v) = 0
    · -- it is drawn at most once
      exact throughout_decided hneutral (fun r _ => decides_code site r) (by omega) fun i =>
        hidle i (belongsTo_of_countP_eq_zero hzero i)
    · -- it is in the store, and never drawn
      have hle : start.users.table.rows.countP (fun u => c.of u == some v) ≤ 1 := by omega
      obtain ⟨i, hi⟩ := exists_belongsTo_of_countP_le_one hle
      have hnone : run.countP (Move.starts fun r => r.draws c == some v) = 0 := by omega
      refine ⟨i, exec_keeps (hidle i hi) fun r hr => hneutral r ?_ i⟩
      exact Bool.eq_false_iff.mpr (List.countP_eq_zero.mp hnone _ hr)
  obtain ⟨i, hi⟩ := hbelongs
  refine ⟨i, hi.imp fun p hp u hu => ?_⟩
  obtain ⟨hmem, hcol⟩ := Credential.user_eq_some hu
  exact hp u hmem hcol

/-- Carol edits the profile. -/
def carolEdits : AccountRequest :=
  .updateProfile { parameter := some carol.accessToken } { now := 5 }

/-- Meanwhile the password is reset, in two requests that are served one after the other. -/
def carolResets : List (Move AccountRequest) :=
  .start (.generateReset
    { email := carol.email, resetCode := js ['r'], password := js ['x', 'x', 'x', 'x']
      accessToken := js ['t', '2'], secretKey := js ['s', '2'], now := 3 }) ::
    List.replicate 6 (.turn 1) ++
  .start (.reset
    { resetCode := js ['r'], newPassword := js ['n', 'e', 'w', 'p'], accessToken := js ['t', '3']
      secretKey := js ['s', '3'], now := 4 }) ::
    List.replicate 7 (.turn 2)

/-- The edit has begun when the reset comes. -/
def carolOverlaps : List (Move AccountRequest) := .start carolEdits :: .turn 0 :: carolResets

/-- An edit has begun when the password is reset. The token from before the reset is taken for its
owner at most, and at the end for nobody. -/
theorem one_user_per_credential_carol :
    ∃ p i, Run.exec (Pool.step (AccountRequest.code plainSite)) { store := carolRegistered }
        carolOverlaps = some p ∧
      Credential.accessToken.user p.store carol.accessToken = none ∧
      Run.Throughout (Pool.step (AccountRequest.code plainSite))
        (fun p => ∀ u, Credential.accessToken.user p.store carol.accessToken = some u → u.id = i)
        { store := carolRegistered } carolOverlaps := by
  have hrun : (Run.exec (Pool.step (AccountRequest.code plainSite)) { store := carolRegistered }
      carolOverlaps).any
        (fun p => (Credential.accessToken.user p.store carol.accessToken).isNone) = true := by
    decide
  obtain ⟨p, hp, hnone⟩ := (Option.any_eq_true _ _).mp hrun
  have honce : carolRegistered.users.table.rows.countP
        (fun u => Credential.accessToken.of u == some carol.accessToken) +
      carolOverlaps.countP
        (Move.starts fun r => r.draws .accessToken == some carol.accessToken) ≤ 1 := by
    decide
  obtain ⟨i, hi⟩ := one_user_per_credential plainSite .accessToken carol.accessToken honce
  exact ⟨p, i, hp, Option.isNone_iff_eq_none.mp hnone, hi⟩

/-! ## Revoked for good -/

/-- A dead credential can be said to belong to the user `0`, whom there is not. -/
theorem belongsTo_zero_iff {c : Credential} {v : JString} {db : Accounts} :
    BelongsTo c v 0 db ↔ c.user db v = none := by
  constructor
  · intro h
    refine Option.eq_none_iff_forall_ne_some.mpr fun u hu => ?_
    obtain ⟨hmem, hcol⟩ := Credential.user_eq_some hu
    exact Table.key_ne_zero_of_mem hmem (h u hmem hcol)
  · intro h u hu hcol
    cases c with
    | accessToken =>
      exact absurd (Option.some.inj hcol)
        (beq_eq_false_iff_ne.mp (Table.fetchOne_eq_none.mp h u hu))
    | resetCode => exact absurd hcol (beq_eq_false_iff_ne.mp (Table.fetchOne_eq_none.mp h u hu))

/-- **Revoked for good.** A credential is good for nobody, at a moment of any run when no request
is under way. Whatever requests follow and however they overlap, if it is not drawn again it is
never good for anybody. -/
theorem revoked_for_good (site : Site) (c : Credential) (v : JString)
    {p : Pool Accounts ActionFailure AccountReply} (hidle : p.Idle)
    (hdead : c.user p.store v = none) {run : List (Move AccountRequest)}
    (hfresh : ∀ r, .start r ∈ run → r.draws c ≠ some v) :
    Run.Throughout (Pool.step (AccountRequest.code site)) (fun p' => c.user p'.store v = none) p
      run := by
  have hcode : ∀ r, .start r ∈ run →
      (r.code site).Keeps (BelongsTo c v 0) fun _ => True := fun r hr =>
    (belongsTo_invariant c v 0).keeps_code site (writes_of_draws_ne site (hfresh r hr))
  refine (exec_keeps (hidle.keeps (belongsTo_zero_iff.mpr hdead)) hcode).imp fun p' hp' => ?_
  exact belongsTo_zero_iff.mp hp'

/-- The edit is over when the reset comes. -/
def carolWaits : List (Move AccountRequest) :=
  .start carolEdits :: List.replicate 12 (.turn 0) ++ carolResets

/-- Another edit, with the old token. -/
def carolReturns : List (Move AccountRequest) := [.start carolEdits, .turn 3]

/-- With the edit over before the reset, the old token is dead, and stays so when it is presented
again. -/
theorem revoked_for_good_carol :
    ∃ p, Run.exec (Pool.step (AccountRequest.code plainSite)) { store := carolRegistered }
        carolWaits = some p ∧ p.Idle ∧
      Run.Throughout (Pool.step (AccountRequest.code plainSite))
        (fun p' => Credential.accessToken.user p'.store carol.accessToken = none) p
        carolReturns := by
  have hrun : (Run.exec (Pool.step (AccountRequest.code plainSite)) { store := carolRegistered }
      carolWaits).any (fun p => decide p.Idle &&
        (Credential.accessToken.user p.store carol.accessToken).isNone) = true := by
    decide
  obtain ⟨p, hp, hboth⟩ := (Option.any_eq_true _ _).mp hrun
  obtain ⟨hidle, hdead⟩ := Bool.and_eq_true_iff.mp hboth
  have hfresh : ∀ r, .start r ∈ carolReturns →
      r.draws .accessToken ≠ some carol.accessToken := by
    intro r hr
    simp only [carolReturns, List.mem_cons, Move.start.injEq, reduceCtorEq, List.not_mem_nil,
      or_false] at hr
    rw [hr]
    decide
  exact ⟨p, hp, of_decide_eq_true hidle, revoked_for_good plainSite .accessToken carol.accessToken
    (of_decide_eq_true hidle) (Option.isNone_iff_eq_none.mp hdead) hfresh⟩

end Maiden
