import Maiden.Base.Transaction
import Maiden.Models.Reset

/-!
# Are the account writes all-or-nothing?

`createIdentity`, `generateResetCode` and `resetPassword` put their writes into one
`withTransaction` block. But each write is made by a helper with a `withTransaction` of its
own (`Schema.scala:96–115`, `226–229`), and `transaction` always opens a new transaction, so
that the helpers commit one by one and the block around them adds nothing
(`Autonomous.transaction_eq`). When a later write throws, the earlier ones stay.

The three calls are written here once more as the source has them, with their transactions
and with a fault at any of the writes; without faults they are the functions of the models
(`run_createIdentity`, `run_generateResetCode`, `run_resetPassword`). `allOrNothing_iff` says
when a throwing write leaves the tables as they were: when it is the first one, or when the
writes before it changed nothing.
-/

namespace Maiden

open Tx

/-! ## The writes -/

section

-- the writes that throw, by their numbers
variable (faulty : Nat → Bool)

/-- `Users.upsert(u)`. -/
def upsertUser (u : User) (now : Int) : Tx Accounts Failure User :=
  commit faulty .rejected fun db =>
    (db.users.save u now).map fun r => ({ db with users := r.1 }, r.2)

/-- `FriendlyIds.upsert(fi)`. -/
def upsertFriendlyId (fi : FriendlyId) (now : Int) : Tx Accounts Failure FriendlyId :=
  commit faulty .rejected fun db =>
    .ok ({ db with friendlyIds := (upsert db.friendlyIds fi now).1 },
      (upsert db.friendlyIds fi now).2)

/-- `SocialAccounts.upsert(sa)`. -/
def upsertSocialAccount (sa : SocialAccount) (now : Int) : Tx Accounts Failure SocialAccount :=
  commit faulty .rejected fun db =>
    (SocialAccount.save db.socialAccounts sa now).map fun r =>
      ({ db with socialAccounts := r.1 }, r.2)

/-! ## The calls -/

/-- `FriendlyId.generate("User", …)`. -/
def generateFriendlyIdTx (site : Site) (id : Int) (baseName : JString) (now : Int) :
    Tx Accounts Failure FriendlyId :=
  bind (fetch fun db =>
    FriendlyId.entry site.unicode db.friendlyIds FriendlyId.userModel id baseName now) fun fi =>
  transaction (upsertFriendlyId faulty fi now)

/-- `SocialAccount.create("identity", …)`. -/
def createAccountTx (userId : Int) (uid accessToken secretKey : JString) (now : Int) :
    Tx Accounts Failure SocialAccount :=
  bind (fetch fun db =>
    SocialAccount.linked db.socialAccounts .identity userId uid accessToken secretKey [] now)
      fun sa =>
  transaction (upsertSocialAccount faulty sa now)

/-- What `createIdentity` does after the user's row. -/
def introduceTx (site : Site) (password : JString) (now : Int) (u : User) :
    Tx Accounts Failure User :=
  bind (generateFriendlyIdTx faulty site u.id u.userName now) fun _ =>
  bind (createAccountTx faulty u.id u.userName u.email (site.hashPassword password) now) fun _ =>
  pure u

/-- `User.createIdentity`. -/
def createIdentityTx (site : Site) (userName password email accessToken secretKey : JString)
    (now : Int) : Tx Accounts Failure User :=
  bind (fetch fun db => User.getByUserNameOrEmail db userName email) fun
  | some _ => throw .userAlreadyExists
  | none =>
    if User.reserved.contains userName then throw .userAlreadyExists
    else
      transaction <|
        bind (upsertUser faulty
          (User.new site userName password email accessToken secretKey now) now)
          (introduceTx faulty site password now)

/-- What both calls do after the user's row. -/
def syncAccountTx (now : Int) (u : User) : Tx Accounts Failure User :=
  bind (fetch fun db =>
    SocialAccount.getByUserIdAndProvider db.socialAccounts u.id .identity) fun
  | none => pure u
  | some sa => bind (upsertSocialAccount faulty (sa.withSecretKey u.password) now) fun _ => pure u

/-- The block of both calls. -/
def saveCredentialsTx (u : User) (now : Int) : Tx Accounts Failure User :=
  transaction (bind (upsertUser faulty u now) (syncAccountTx faulty now))

/-- `User.generateResetCode`. -/
def generateResetCodeTx (site : Site) (r : GenerateResetCode) : Tx Accounts Failure JString :=
  bind (fetch fun db => User.get db.users.table r.userId) fun
  | none => throw .noUser
  | some u => bind (saveCredentialsTx faulty (u.locked site r) r.now) fun _ => pure r.resetCode

/-- `User.resetPassword`. -/
def resetPasswordTx (site : Site) (r : ResetPassword) : Tx Accounts Failure User :=
  bind (fetch fun db => User.getByResetCode db.users.table r.resetCode) fun
  | none => throw .invalidPasswordResetCode
  | some u =>
    match User.validatePassword r.newPassword with
    | .error e => throw e
    | .ok _ => saveCredentialsTx faulty (u.unlocked site r) r.now

end

/-! ## The blocks add nothing -/

section

variable (faulty : Nat → Bool) (site : Site)

theorem autonomous_generateFriendlyIdTx (id : Int) (baseName : JString) (now : Int) :
    Autonomous (generateFriendlyIdTx faulty site id baseName now) :=
  (autonomous_fetch _).bind fun _ => autonomous_transaction _

theorem autonomous_createAccountTx (userId : Int) (uid accessToken secretKey : JString)
    (now : Int) : Autonomous (createAccountTx faulty userId uid accessToken secretKey now) :=
  (autonomous_fetch _).bind fun _ => autonomous_transaction _

theorem autonomous_introduceTx (password : JString) (now : Int) (u : User) :
    Autonomous (introduceTx faulty site password now u) :=
  (autonomous_generateFriendlyIdTx faulty site _ _ _).bind fun _ =>
    (autonomous_createAccountTx faulty _ _ _ _ _).bind fun _ => autonomous_pure u

theorem autonomous_syncAccountTx (now : Int) (u : User) :
    Autonomous (syncAccountTx faulty now u) := by
  refine (autonomous_fetch _).bind fun found => ?_
  cases found with
  | none => exact autonomous_pure u
  | some sa => exact (autonomous_commit _ _ _).bind fun _ => autonomous_pure u

variable {faulty site}

/-- The block of a call is the sequence of its writes. -/
theorem block_eq {u : User} {now : Int} {rest : User → Tx Accounts Failure User}
    (hrest : ∀ u, Autonomous (rest u)) :
    transaction (bind (upsertUser faulty u now) rest) = bind (upsertUser faulty u now) rest :=
  ((autonomous_commit _ _ _).bind hrest).transaction_eq

/-! ## What each write does -/

/-- A statement that the database refuses counts as a write and changes nothing. -/
theorem upsertUser_eq (u : User) (now : Int) (s : Session Accounts) :
    upsertUser faulty u now s =
      if faulty s.writes then ({ s with writes := s.writes + 1 }, .error .rejected)
      else
        match s.committed.users.save u now with
        | .error e => ({ s with writes := s.writes + 1 }, .error e)
        | .ok (users, saved) =>
          ({ s with committed := { s.committed with users }, writes := s.writes + 1 },
            .ok saved) := by
  unfold upsertUser
  rw [commit_eq]
  cases s.committed.users.save u now <;> rfl

theorem generateFriendlyIdTx_eq (id : Int) (baseName : JString) (now : Int)
    (s : Session Accounts) :
    generateFriendlyIdTx faulty site id baseName now s =
      if faulty s.writes then ({ s with writes := s.writes + 1 }, .error .rejected)
      else
        let r := FriendlyId.generate site.unicode s.committed.friendlyIds FriendlyId.userModel id
          baseName now
        ({ s with committed := { s.committed with friendlyIds := r.1 }, writes := s.writes + 1 },
          .ok r.2) := by
  unfold generateFriendlyIdTx upsertFriendlyId
  rw [bind_fetch, (autonomous_commit _ _ _).transaction_eq, commit_eq]
  rfl

theorem createAccountTx_eq (userId : Int) (uid accessToken secretKey : JString) (now : Int)
    (s : Session Accounts) :
    createAccountTx faulty userId uid accessToken secretKey now s =
      if faulty s.writes then ({ s with writes := s.writes + 1 }, .error .rejected)
      else
        match SocialAccount.create s.committed.socialAccounts .identity userId uid accessToken
            secretKey [] now with
        | .error e => ({ s with writes := s.writes + 1 }, .error e)
        | .ok (socialAccounts, sa) =>
          ({ s with committed := { s.committed with socialAccounts }, writes := s.writes + 1 },
            .ok sa) := by
  unfold createAccountTx upsertSocialAccount SocialAccount.create
  rw [bind_fetch, (autonomous_commit _ _ _).transaction_eq, commit_eq]
  cases SocialAccount.save s.committed.socialAccounts _ now <;> rfl

end

/-! ## Without faults -/

section

variable (site : Site) (db : Accounts)

/-- No write throws of itself. -/
def noFaults (_ : Nat) : Bool := false

/-- Without faults the transaction does what the plain function of the model does. This is what
lets the results here speak about it. -/
theorem run_createIdentity (userName password email accessToken secretKey : JString) (now : Int) :
    outcome (createIdentityTx noFaults site userName password email accessToken secretKey now) db =
      User.createIdentity site db userName password email accessToken secretKey now := by
  unfold outcome run createIdentityTx User.createIdentity
  rw [bind_fetch]
  cases User.getByUserNameOrEmail db userName email with
  | some u => rfl
  | none =>
    dsimp only
    split
    · rfl
    · rw [block_eq (autonomous_introduceTx noFaults site password now)]
      unfold Tx.bind
      rw [upsertUser_eq]
      cases db.users.save (User.new site userName password email accessToken secretKey now) now with
      | error e => rfl
      | ok r =>
        obtain ⟨users, u⟩ := r
        unfold introduceTx Tx.bind
        simp only [noFaults, generateFriendlyIdTx_eq, createAccountTx_eq, Bool.false_eq_true,
          if_false]
        cases SocialAccount.create db.socialAccounts .identity u.id u.userName u.email
          (site.hashPassword password) [] now <;> rfl

/-- Likewise for the two writes of a reset. -/
theorem run_saveCredentials (u : User) (now : Int) :
    outcome (saveCredentialsTx noFaults u now) db = User.saveCredentials db u now := by
  unfold outcome run saveCredentialsTx User.saveCredentials
  rw [block_eq (autonomous_syncAccountTx noFaults now)]
  unfold Tx.bind
  rw [upsertUser_eq]
  cases db.users.save u now with
  | error e => rfl
  | ok r =>
    obtain ⟨users, u⟩ := r
    unfold syncAccountTx
    dsimp only
    simp only [noFaults, Bool.false_eq_true, if_false, bind_fetch]
    cases SocialAccount.getByUserIdAndProvider db.socialAccounts u.id .identity with
    | none => rfl
    | some sa =>
      unfold Tx.bind upsertSocialAccount
      dsimp only
      rw [commit_eq]
      cases SocialAccount.save db.socialAccounts (sa.withSecretKey u.password) now <;> rfl

theorem run_generateResetCode (r : GenerateResetCode) :
    outcome (generateResetCodeTx noFaults site r) db = User.generateResetCode site db r := by
  unfold outcome run generateResetCodeTx User.generateResetCode
  rw [bind_fetch]
  cases User.get db.users.table r.userId with
  | none => rfl
  | some u =>
    dsimp only
    rw [← run_saveCredentials db (u.locked site r) r.now]
    unfold outcome run Tx.bind
    cases saveCredentialsTx noFaults (u.locked site r) r.now ⟨db, id, 0⟩ with
    | mk s result => cases result <;> rfl

theorem run_resetPassword (r : ResetPassword) :
    outcome (resetPasswordTx noFaults site r) db = User.resetPassword site db r := by
  unfold outcome run resetPasswordTx User.resetPassword
  rw [bind_fetch]
  cases User.getByResetCode db.users.table r.resetCode with
  | none => rfl
  | some u =>
    dsimp only
    cases User.validatePassword r.newPassword with
    | error e => rfl
    | ok p => exact run_saveCredentials db (u.unlocked site r) r.now

end

/-! ## When a write throws -/

/-- The tables of accounts have the same rows. -/
structure SameTables (db db' : Accounts) : Prop where
  users : db'.users.table.rows = db.users.table.rows
  socialAccounts : db'.socialAccounts.rows = db.socialAccounts.rows
  friendlyIds : db'.friendlyIds.rows = db.friendlyIds.rows

theorem SameTables.refl (db : Accounts) : SameTables db db := ⟨rfl, rfl, rfl⟩

/-- The calls with a block of several writes. -/
inductive IdentityCall where
  | createIdentity (userName password email accessToken secretKey : JString) (now : Int)
  | generateResetCode (r : GenerateResetCode)
  | resetPassword (r : ResetPassword)

namespace IdentityCall

/-- The call, without its result. -/
def tx (faulty : Nat → Bool) (site : Site) : IdentityCall → Tx Accounts Failure Unit
  | .createIdentity userName password email accessToken secretKey now =>
    bind (createIdentityTx faulty site userName password email accessToken secretKey now)
      fun _ => pure ()
  | .generateResetCode r => bind (generateResetCodeTx faulty site r) fun _ => pure ()
  | .resetPassword r => bind (resetPasswordTx faulty site r) fun _ => pure ()

/-- One of the writes of the call throws. -/
def WriteThrows (faulty : Nat → Bool) (site : Site) (db : Accounts) (c : IdentityCall) : Prop :=
  0 < (run (c.tx faulty site) db).1.writes ∧ ∃ e, (run (c.tx faulty site) db).2 = .error e

/-- The user's row is refused by the database. -/
def RowRefused (site : Site) (db : Accounts) : IdentityCall → Prop
  | .createIdentity userName password email accessToken secretKey now =>
    ¬ db.users.Admits (User.new site userName password email accessToken secretKey now)
  | .generateResetCode r =>
    ∃ u, User.get db.users.table r.userId = some u ∧ ¬ db.users.Admits (u.locked site r)
  | .resetPassword r =>
    ∃ u, User.getByResetCode db.users.table r.resetCode = some u ∧
      ¬ db.users.Admits (u.unlocked site r)

/-- The user has the new code, password, tokens and times already. -/
def Redundant (site : Site) (db : Accounts) : IdentityCall → Prop
  | .generateResetCode r =>
    ∃ u, User.get db.users.table r.userId = some u ∧ stamped (u.locked site r) r.now = u
  | _ => False

end IdentityCall

section

variable {faulty : Nat → Bool} {site : Site} {db : Accounts} {u : User} {now : Int}
  {rest : User → Tx Accounts Failure User}

variable (faulty now) in
/-- The first write throws: nothing was written. -/
theorem block_of_first_fails (hrest : ∀ u, Autonomous (rest u))
    (h : faulty 0 = true ∨ ¬ db.users.Admits u) :
    (run (transaction (bind (upsertUser faulty u now) rest)) db).1.committed = db := by
  unfold run
  rw [block_eq hrest]
  unfold Tx.bind
  rw [upsertUser_eq]
  by_cases hfault : faulty 0 = true
  · simp only [hfault, if_true]
  · have hadm := h.resolve_left hfault
    have hsave : db.users.save u now = .error .rejected := dif_neg hadm
    simp only [hfault, hsave]
    rfl

variable (now) in
/-- The first write is made: the rest goes on with the new row committed. -/
theorem block_of_first_saved (hrest : ∀ u, Autonomous (rest u))
    (h : ¬ (faulty 0 = true ∨ ¬ db.users.Admits u)) :
    ∃ users, users.table = (upsert db.users.table u now).1 ∧
      run (transaction (bind (upsertUser faulty u now) rest)) db =
        rest (upsert db.users.table u now).2 ⟨{ db with users }, id, 1⟩ := by
  obtain ⟨hfault, hadm⟩ := not_or.mp h
  obtain ⟨users, hsave⟩ := Users.save_of_admits (not_not.mp hadm) now
  refine ⟨users, (Users.save_eq_ok hsave).2.1, ?_⟩
  unfold run
  rw [block_eq hrest]
  unfold Tx.bind
  rw [upsertUser_eq]
  simp only [hfault, hsave, Bool.false_eq_true, if_false]

/-- The other writes of `createIdentity` do not touch the users. -/
theorem keeps_introduceTx (password : JString) (u : User) :
    Keeps Accounts.users (introduceTx faulty site password now u) := by
  refine Keeps.bind (fun s => ?_) fun _ => Keeps.bind (fun s => ?_) fun _ => keeps_pure _ u
  · rw [generateFriendlyIdTx_eq]
    split <;> rfl
  · rw [createAccountTx_eq]
    split
    · rfl
    · split <;> rfl

/-- The second write of the other two calls, when it throws, has written nothing; what the first
one has committed stays. -/
theorem syncAccountTx_error {s : Session Accounts} {e : Failure}
    (h : (syncAccountTx faulty now u s).2 = .error e) :
    (syncAccountTx faulty now u s).1.committed = s.committed := by
  unfold syncAccountTx at h ⊢
  rw [bind_fetch] at h ⊢
  cases hsa : SocialAccount.getByUserIdAndProvider s.committed.socialAccounts u.id .identity with
  | none =>
    rw [hsa] at h
    cases h
  | some sa =>
    rw [hsa] at h
    dsimp only at h ⊢
    rw [bind_pure (g := fun _ => u)] at h ⊢
    dsimp only at h ⊢
    cases hw : (upsertSocialAccount faulty (sa.withSecretKey u.password) now s).2 with
    | ok a =>
      rw [hw] at h
      cases h
    | error e' => exact commit_error hw

/-- **The block of the reset calls.** When one of its writes throws, the tables are as before
exactly if it was the first, or the row was the stored one. -/
theorem saveCredentials_throws {old : User} (hold : old ∈ db.users.table.rows) (hid : u.id = old.id)
    {e : Failure} (h : (run (saveCredentialsTx faulty u now) db).2 = .error e) :
    SameTables db (run (saveCredentialsTx faulty u now) db).1.committed ↔
      (faulty 0 = true ∨ ¬ db.users.Admits u) ∨ stamped u now = old := by
  unfold saveCredentialsTx at h ⊢
  by_cases hfirst : faulty 0 = true ∨ ¬ db.users.Admits u
  · refine iff_of_true ?_ (Or.inl hfirst)
    rw [block_of_first_fails faulty now (autonomous_syncAccountTx faulty now) hfirst]
    exact SameTables.refl db
  · obtain ⟨users, htable, hrun⟩ :=
      block_of_first_saved now (autonomous_syncAccountTx faulty now) hfirst
    rw [hrun] at h ⊢
    rw [syncAccountTx_error h]
    have hrows : users.table.rows = db.users.table.rows ↔ stamped u now = old := by
      rw [htable]
      exact rows_upsert_eq_iff hold hid
    constructor
    · exact fun hsame => Or.inr (hrows.mp hsame.users)
    · exact fun hor => ⟨hrows.mpr (hor.resolve_left hfirst), rfl, rfl⟩

/-- The block of `createIdentity`: an insert always leaves its mark. -/
theorem introduce_throws (hid : u.id = 0) (password : JString) :
    SameTables db (run (transaction (bind (upsertUser faulty u now)
        (introduceTx faulty site password now))) db).1.committed ↔
      faulty 0 = true ∨ ¬ db.users.Admits u := by
  by_cases hfirst : faulty 0 = true ∨ ¬ db.users.Admits u
  · refine iff_of_true ?_ hfirst
    rw [block_of_first_fails faulty now (autonomous_introduceTx faulty site password now) hfirst]
    exact SameTables.refl db
  · refine iff_of_false (fun hsame => ?_) hfirst
    obtain ⟨users, htable, hrun⟩ :=
      block_of_first_saved now (autonomous_introduceTx faulty site password now) hfirst
    have husers := hsame.users
    rw [hrun, keeps_introduceTx, htable, upsert_new _ now hid] at husers
    exact absurd husers (by simp [Table.insert])

/-! ## The calls -/

/-- What a registration leaves of itself once it has come to a write: nothing exactly if that first
write throws, as the statements behind it commit on their own. -/
theorem createIdentityTx_throws {userName password email accessToken secretKey : JString}
    (hwrites : 0 < (run (createIdentityTx faulty site userName password email accessToken
      secretKey now) db).1.writes) :
    SameTables db (run (createIdentityTx faulty site userName password email accessToken
        secretKey now) db).1.committed ↔
      faulty 0 = true ∨
        ¬ db.users.Admits (User.new site userName password email accessToken secretKey now) := by
  unfold createIdentityTx run at *
  rw [bind_fetch] at *
  cases hfound : User.getByUserNameOrEmail db userName email with
  | some u =>
    rw [hfound] at hwrites
    exact absurd hwrites (Nat.lt_irrefl 0)
  | none =>
    rw [hfound] at hwrites
    dsimp only at hwrites ⊢
    by_cases hreserved : User.reserved.contains userName = true
    · rw [if_pos hreserved] at hwrites
      exact absurd hwrites (Nat.lt_irrefl 0)
    · rw [if_neg hreserved]
      exact introduce_throws rfl password

/-- A reset code of which a write throws: the user's row stays locked unless it was the first one,
or there was nothing to change in it. -/
theorem generateResetCodeTx_throws {r : GenerateResetCode} {e : Failure}
    (hwrites : 0 < (run (generateResetCodeTx faulty site r) db).1.writes)
    (herror : (run (generateResetCodeTx faulty site r) db).2 = .error e) :
    ∃ u, User.get db.users.table r.userId = some u ∧
      (SameTables db (run (generateResetCodeTx faulty site r) db).1.committed ↔
        (faulty 0 = true ∨ ¬ db.users.Admits (u.locked site r)) ∨
          stamped (u.locked site r) r.now = u) := by
  unfold generateResetCodeTx run at *
  rw [bind_fetch] at *
  cases hfound : User.get db.users.table r.userId with
  | none =>
    rw [hfound] at hwrites
    exact absurd hwrites (Nat.lt_irrefl 0)
  | some u =>
    rw [hfound] at herror
    dsimp only at herror ⊢
    rw [bind_pure (g := fun _ => r.resetCode)] at herror ⊢
    exact ⟨u, rfl,
      saveCredentials_throws (Table.mem_of_fetchOne hfound).1 rfl (error_of_map herror)⟩

/-- The same for a reset, where there always is something to change: the code is taken out of the
row. -/
theorem resetPasswordTx_throws {r : ResetPassword} {e : Failure}
    (hwrites : 0 < (run (resetPasswordTx faulty site r) db).1.writes)
    (herror : (run (resetPasswordTx faulty site r) db).2 = .error e) :
    ∃ u, User.getByResetCode db.users.table r.resetCode = some u ∧
      (SameTables db (run (resetPasswordTx faulty site r) db).1.committed ↔
        faulty 0 = true ∨ ¬ db.users.Admits (u.unlocked site r)) := by
  unfold resetPasswordTx run at *
  rw [bind_fetch] at *
  cases hfound : User.getByResetCode db.users.table r.resetCode with
  | none =>
    rw [hfound] at hwrites
    exact absurd hwrites (Nat.lt_irrefl 0)
  | some u =>
    rw [hfound] at hwrites herror
    dsimp only at hwrites herror ⊢
    cases hvalid : User.validatePassword r.newPassword with
    | error e' =>
      rw [hvalid] at hwrites
      exact absurd hwrites (Nat.lt_irrefl 0)
    | ok p =>
      rw [hvalid] at herror
      obtain ⟨hmem, hcode⟩ := Table.mem_of_fetchOne hfound
      refine ⟨u, rfl, (saveCredentials_throws (u := u.unlocked site r) hmem rfl herror).trans
        (or_iff_left ?_)⟩
      -- the row that is written has no reset code any more
      intro heq
      have hnone : u.resetCode = none := by
        rw [← heq]
        rfl
      rw [hnone] at hcode
      cases hcode

end

/-- **All or nothing.** For every store, every call and every choice of faulty writes, with
which one of the call's writes throws: the tables are left exactly as before if and only if
it is the first write that throws, or the call is a `generateResetCode` that had nothing to
change. -/
theorem allOrNothing_iff {faulty : Nat → Bool} {site : Site} {db : Accounts} {c : IdentityCall}
    (h : c.WriteThrows faulty site db) :
    SameTables db (run (c.tx faulty site) db).1.committed ↔
      faulty 0 = true ∨ c.RowRefused site db ∨ c.Redundant site db := by
  obtain ⟨hwrites, e, herror⟩ := h
  -- the calls have results of different types, which are dropped to compare them
  have hrun : ∀ {α : Type} (m : Tx Accounts Failure α),
      run (bind m fun _ => pure ()) db = ((run m db).1, (run m db).2.map fun _ => ()) :=
    fun m => bind_pure m (fun _ => ()) _
  cases c with
  | createIdentity userName password email accessToken secretKey now =>
    rw [IdentityCall.tx, hrun] at *
    refine (createIdentityTx_throws hwrites).trans ?_
    unfold IdentityCall.RowRefused IdentityCall.Redundant
    rw [or_false]
  | generateResetCode r =>
    rw [IdentityCall.tx, hrun] at *
    obtain ⟨u, hu, hiff⟩ := generateResetCodeTx_throws hwrites (error_of_map herror)
    refine hiff.trans ?_
    unfold IdentityCall.RowRefused IdentityCall.Redundant
    simp only [hu, Option.some.injEq, exists_eq_left', or_assoc]
  | resetPassword r =>
    rw [IdentityCall.tx, hrun] at *
    obtain ⟨u, hu, hiff⟩ := resetPasswordTx_throws hwrites (error_of_map herror)
    refine hiff.trans ?_
    unfold IdentityCall.RowRefused IdentityCall.Redundant
    simp only [hu, Option.some.injEq, exists_eq_left', or_false]

/-- Somebody called ann registers. -/
def annRegisters : IdentityCall :=
  .createIdentity (js ['a', 'n', 'n']) (js ['p', 'a', 's', 's']) (js ['a', '@', 'b', '.', 'c', 'o'])
    (js ['t']) (js ['k']) 0

/-- The first write throws, and nothing is left. -/
theorem allOrNothing_firstWrite :
    annRegisters.WriteThrows (· == 0) plainSite Accounts.empty ∧
      SameTables Accounts.empty
        (run (annRegisters.tx (· == 0) plainSite) Accounts.empty).1.committed := by
  have hthrows : annRegisters.WriteThrows (· == 0) plainSite Accounts.empty :=
    ⟨by decide, .rejected, rfl⟩
  exact ⟨hthrows, (allOrNothing_iff hthrows).mpr (Or.inl rfl)⟩

/-- The last write throws, and a user is left who cannot log in. -/
theorem user_without_account :
    annRegisters.WriteThrows (· == 2) plainSite Accounts.empty ∧
      ¬ SameTables Accounts.empty
        (run (annRegisters.tx (· == 2) plainSite) Accounts.empty).1.committed := by
  refine ⟨⟨by decide, .rejected, rfl⟩, fun hsame => ?_⟩
  exact absurd (congrArg List.length hsame.users) (by decide)

end Maiden
