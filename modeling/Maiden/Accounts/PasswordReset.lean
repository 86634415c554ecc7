import Maiden.Base.OneTimeCode
import Maiden.Base.Run
import Maiden.Models.Reset

/-!
# The password reset protocol

Two tables have to stay in step: the password of a user, and the `secretKey` of its identity
account, which the login compares. And the reset codes should be one-time codes: of all codes
ever generated, `resetPassword` accepts a user's latest, once.

A run is a sequence of `generateResetCode` and `resetPassword` calls in any order, on any
users and codes. Next to the store it keeps the history of the codes as an abstract ledger
(`Base/OneTimeCode.lean`), which no call looks at. The invariant `ResetInv` ties the column
`resetCode` to the ledger: a user's row holds a code exactly when it is pending.

`passwordReset` collects what follows for every state of a run: the tables are in step, codes
are accepted exactly when the ledger says so, used ones never again, and a call that throws
has changed nothing.
-/

namespace Maiden

open OneTimeCode

/-! ## Credentials in step -/

/-- Every user has at most one identity account, with the user's password. -/
structure InStep (db : Accounts) : Prop where
  oneIdentity : ∀ u ∈ db.users.table.rows, ∀ sa ∈ db.socialAccounts.rows,
    ∀ sa' ∈ db.socialAccounts.rows, sa.provider = .identity → sa'.provider = .identity →
      sa.userId = u.id → sa'.userId = u.id → sa = sa'
  password : ∀ u ∈ db.users.table.rows, ∀ sa ∈ db.socialAccounts.rows,
    sa.provider = .identity → sa.userId = u.id → sa.secretKey = u.password

/-- No write of the call was refused by the database. -/
def NotRefused {α : Type} (result : Except Failure α) : Prop := result ≠ .error .rejected

instance {α : Type} [DecidableEq α] (result : Except Failure α) : Decidable (NotRefused result) :=
  inferInstanceAs (Decidable (result ≠ .error .rejected))

theorem NotRefused.of_map {α β : Type} {f : α → β} {result : Except Failure α}
    (h : NotRefused (result.map f)) : NotRefused result := by
  rintro rfl
  exact h rfl

section

variable {db : Accounts} {u old : User} {now : Int}

variable (now) in
/-- A stored user's row is replaced unless it is refused. -/
theorem save_stored_user (hold : old ∈ db.users.table.rows) (hid : u.id = old.id) :
    db.users.save u now = .error .rejected ∨
      ∃ users, db.users.save u now = .ok (users, stamped u now) ∧
      ∀ r, r ∈ users.table.rows ↔ r = stamped u now ∨ (r ∈ db.users.table.rows ∧ r.id ≠ u.id) := by
  have hkey : u.id ≠ 0 := hid ▸ Table.key_ne_zero_of_mem hold
  by_cases hadm : db.users.Admits u
  · obtain ⟨users, hsave⟩ := Users.save_of_admits hadm now
    obtain ⟨-, htable, -⟩ := Users.save_eq_ok hsave
    rw [upsert_old _ now (a := u) hkey] at hsave
    refine Or.inr ⟨users, hsave, fun r => ?_⟩
    rw [htable]
    exact mem_upsert_stored hold hid
  · exact Or.inl (dif_neg hadm)

variable (now) in
/-- So is a stored account. -/
theorem save_stored_account {tb : Table SocialAccount} {saved : SocialAccount} (sa : SocialAccount)
    (hsaved : saved ∈ tb.rows) (hid : sa.id = saved.id) :
    SocialAccount.save tb sa now = .error .rejected ∨ ∃ accounts written,
      SocialAccount.save tb sa now = .ok (accounts, written) ∧
      ∀ x, x ∈ accounts.rows ↔ x = stamped sa now ∨ (x ∈ tb.rows ∧ x.id ≠ sa.id) := by
  unfold SocialAccount.save
  split
  · exact Or.inr ⟨_, _, rfl, fun x => mem_upsert_stored hsaved hid⟩
  · exact Or.inl rfl

/-- What the two writes do: the user's row is replaced, and the password of its identity
account, if there is one. -/
structure Rekeyed (db : Accounts) (u : User) (now : Int) (db' : Accounts) : Prop where
  users : ∀ r, r ∈ db'.users.table.rows ↔
    r = stamped u now ∨ (r ∈ db.users.table.rows ∧ r.id ≠ u.id)
  accounts : ∀ x, x ∈ db'.socialAccounts.rows ↔
    match SocialAccount.getByUserIdAndProvider db.socialAccounts u.id .identity with
    | none => x ∈ db.socialAccounts.rows
    | some sa => x = stamped (sa.withSecretKey u.password) now ∨
        (x ∈ db.socialAccounts.rows ∧ x.id ≠ sa.id)

/-- The two writes are made unless one of them is refused. The account is found by the user's id,
which the first write does not change. -/
theorem saveCredentials_rekeyed (h : NotRefused (User.saveCredentials db u now).2)
    (hold : old ∈ db.users.table.rows) (hid : u.id = old.id) :
    ∃ db' saved, User.saveCredentials db u now = (db', .ok saved) ∧ Rekeyed db u now db' := by
  unfold User.saveCredentials at h ⊢
  rcases save_stored_user now hold hid with hsave | ⟨users, hsave, husers⟩
  · rw [hsave] at h
    exact absurd rfl h
  · have hkept : (stamped u now).id = u.id := rfl
    rw [hsave] at h ⊢
    dsimp only at h ⊢
    rw [hkept] at h ⊢
    cases hsa : SocialAccount.getByUserIdAndProvider db.socialAccounts u.id .identity with
    -- a user without identity account has only one row to write
    | none =>
      refine ⟨_, _, rfl, husers, fun x => ?_⟩
      rw [hsa]
    | some sa =>
      rw [hsa] at h
      dsimp only at h ⊢
      rcases save_stored_account now (sa.withSecretKey (stamped u now).password)
          (Table.mem_of_fetchOne hsa).1 rfl with hrefused | ⟨accounts, written, haccount, hrows⟩
      · rw [hrefused] at h
        exact absurd rfl h
      · rw [haccount]
        refine ⟨_, _, rfl, husers, fun x => ?_⟩
        rw [hsa]
        exact hrows x

variable {db' : Accounts}

/-- No user is new. -/
theorem Rekeyed.stored_user (h : Rekeyed db u now db') (hold : old ∈ db.users.table.rows)
    (hid : u.id = old.id) {r : User} (hr : r ∈ db'.users.table.rows) :
    ∃ r' ∈ db.users.table.rows, r'.id = r.id := by
  rcases (h.users r).mp hr with rfl | ⟨hr, -⟩
  · exact ⟨old, hold, hid.symm⟩
  · exact ⟨r, hr, rfl⟩

/-- The identity account that `getByUserIdAndProvider` finds. -/
theorem identity_of_get {tb : Table SocialAccount} {userId : Int} {sa : SocialAccount}
    (h : SocialAccount.getByUserIdAndProvider tb userId .identity = some sa) :
    sa ∈ tb.rows ∧ sa.userId = userId ∧ sa.provider = .identity := by
  obtain ⟨hrow, hcols⟩ := Table.mem_of_fetchOne h
  rw [Bool.and_eq_true, beq_iff_eq, beq_iff_eq] at hcols
  exact ⟨hrow, hcols⟩

/-- An account afterwards is the one that was written, or an old one and not that one. Without an
identity account all of them are old. -/
theorem Rekeyed.account_cases (h : Rekeyed db u now db') {x : SocialAccount}
    (hx : x ∈ db'.socialAccounts.rows) :
    (∃ sa, SocialAccount.getByUserIdAndProvider db.socialAccounts u.id .identity = some sa ∧
        x = stamped (sa.withSecretKey u.password) now) ∨
      (x ∈ db.socialAccounts.rows ∧ ∀ sa,
        SocialAccount.getByUserIdAndProvider db.socialAccounts u.id .identity = some sa →
          x.id ≠ sa.id) := by
  have hmem := (h.accounts x).mp hx
  cases hsa : SocialAccount.getByUserIdAndProvider db.socialAccounts u.id .identity with
  | none =>
    rw [hsa] at hmem
    exact Or.inr ⟨hmem, fun _ hnone => nomatch hnone⟩
  | some sa =>
    rw [hsa] at hmem
    refine hmem.imp (fun heq => ⟨sa, rfl, heq⟩) fun ⟨hx, hne⟩ => ⟨hx, fun sa' hsa' => ?_⟩
    rwa [← Option.some.inj hsa']

/-- No account is new, or has another owner or provider than before. -/
theorem Rekeyed.stored_account (h : Rekeyed db u now db') {x : SocialAccount}
    (hx : x ∈ db'.socialAccounts.rows) :
    ∃ y ∈ db.socialAccounts.rows, y.id = x.id ∧ y.provider = x.provider ∧ y.userId = x.userId := by
  rcases h.account_cases hx with ⟨sa, hsa, rfl⟩ | ⟨hx, -⟩
  · exact ⟨sa, (identity_of_get hsa).1, rfl, rfl, rfl⟩
  · exact ⟨x, hx, rfl, rfl, rfl⟩

/-- The accounts of the other users are as before. -/
theorem Rekeyed.other_account (h : Rekeyed db u now db') {x : SocialAccount}
    (hx : x ∈ db'.socialAccounts.rows) (hother : x.userId ≠ u.id) :
    x ∈ db.socialAccounts.rows := by
  rcases h.account_cases hx with ⟨sa, hsa, rfl⟩ | ⟨hx, -⟩
  · exact absurd (identity_of_get hsa).2.1 hother
  · exact hx

/-- The identity account of the user has the new password: it was the only one. -/
theorem Rekeyed.own_account (h : Rekeyed db u now db') (hdb : InStep db)
    (hold : old ∈ db.users.table.rows) (hid : u.id = old.id) {x : SocialAccount}
    (hx : x ∈ db'.socialAccounts.rows) (hprovider : x.provider = .identity)
    (howner : x.userId = u.id) : x.secretKey = u.password := by
  rcases h.account_cases hx with ⟨sa, -, rfl⟩ | ⟨hx, hother⟩
  · rfl
  · cases hsa : SocialAccount.getByUserIdAndProvider db.socialAccounts u.id .identity with
    | none =>
      have hno := Table.fetchOne_eq_none.mp hsa x hx
      rw [howner, hprovider] at hno
      simp at hno
    | some sa =>
      obtain ⟨hstored, howner', hprovider'⟩ := identity_of_get hsa
      have heq := hdb.oneIdentity old hold x hx sa hstored hprovider hprovider'
        (howner.trans hid) (howner'.trans hid)
      exact absurd (congrArg SocialAccount.id heq) (hother sa hsa)

/-- The two writes keep the tables in step. -/
theorem InStep.rekeyed (hdb : InStep db) (h : Rekeyed db u now db')
    (hold : old ∈ db.users.table.rows) (hid : u.id = old.id) : InStep db' where
  oneIdentity r hr x hx x' hx' hp hp' ho ho' := by
    obtain ⟨r', hr', hrid⟩ := h.stored_user hold hid hr
    obtain ⟨y, hy, hyid, hyp, hyo⟩ := h.stored_account hx
    obtain ⟨y', hy', hyid', hyp', hyo'⟩ := h.stored_account hx'
    have heq := hdb.oneIdentity r' hr' y hy y' hy' (hyp.trans hp) (hyp'.trans hp')
      (hyo.trans (ho.trans hrid.symm)) (hyo'.trans (ho'.trans hrid.symm))
    exact Table.eq_of_key_eq hx hx' (hyid.symm.trans ((congrArg SocialAccount.id heq).trans hyid'))
  password r hr x hx hprovider howner := by
    rcases (h.users r).mp hr with rfl | ⟨hr, hne⟩
    · exact h.own_account hdb hold hid hx hprovider howner
    · have hx := h.other_account hx fun heq => hne (howner.symm.trans heq)
      exact hdb.password r hr x hx hprovider howner

end

/-! ## Runs -/

/-- A call of the protocol. -/
inductive ResetCall where
  | generate (r : GenerateResetCode)
  | reset (r : ResetPassword)

/-- The store, and the history of the reset codes. -/
structure ResetState where
  db : Accounts
  history : List (CodeEvent Int JString)

/-- The store after a call, and whether it threw. -/
def ResetCall.execute (site : Site) (db : Accounts) : ResetCall → Accounts × Except Failure Unit
  | .generate r => ((User.generateResetCode site db r).1, (User.generateResetCode site db r).2.map
      fun _ => ())
  | .reset r => ((User.resetPassword site db r).1, (User.resetPassword site db r).2.map fun _ => ())

/-- What a call that has returned adds to the history. -/
def ResetCall.event : ResetCall → CodeEvent Int JString
  | .generate r => .issued r.userId r.resetCode
  | .reset r => .redeemed r.resetCode

/-- One call. -/
def resetStep (site : Site) (s : ResetState) (c : ResetCall) : Option ResetState :=
  match c.execute site s.db with
  | (db, .ok _) => some ⟨db, c.event :: s.history⟩
  | (db, .error _) => some ⟨db, s.history⟩

/-- A generated code is a new one. -/
def ResetCall.Fresh (history : List (CodeEvent Int JString)) : ResetCall → Prop
  | .generate r => r.resetCode ∉ codes history
  | .reset _ => True

/-- No write fails, and a generated code is a new one. -/
def Orderly (site : Site) (s : ResetState) (c : ResetCall) : Prop :=
  NotRefused (c.execute site s.db).2 ∧ c.Fresh s.history

instance (history : List (CodeEvent Int JString)) : ∀ c : ResetCall, Decidable (c.Fresh history)
  | .generate r => inferInstanceAs (Decidable (r.resetCode ∉ codes history))
  | .reset _ => .isTrue trivial

instance (site : Site) (s : ResetState) (c : ResetCall) : Decidable (Orderly site s c) :=
  inferInstanceAs (Decidable (NotRefused (c.execute site s.db).2 ∧ c.Fresh s.history))

/-- Where a run may start. -/
structure ResetInit (db : Accounts) : Prop where
  inStep : InStep db
  noCode : ∀ u ∈ db.users.table.rows, u.resetCode = none

/-- The invariant of a run. -/
structure ResetInv (s : ResetState) : Prop where
  inStep : InStep s.db
  fair : Fair s.history
  /-- A row holds a code exactly when it is pending. -/
  stored : ∀ u ∈ s.db.users.table.rows, ∀ code, u.resetCode = some code ↔
    Pending s.history u.id code
  owner : ∀ userId code, Pending s.history userId code → ∃ u ∈ s.db.users.table.rows, u.id = userId

theorem ResetInit.inv {db : Accounts} (h : ResetInit db) : ResetInv ⟨db, []⟩ where
  inStep := h.inStep
  fair := ⟨List.nodup_nil, fun _ hc => nomatch hc⟩
  stored u hu code := by
    rw [h.noCode u hu]
    exact iff_of_false (fun heq => nomatch heq) fun hp => nomatch hp.1
  owner _ _ hp := nomatch hp.1

section

variable {site : Site} {s : ResetState}

/-- The user who waits for a code. -/
theorem getByResetCode_iff (hs : ResetInv s) {code : JString} {u : User} :
    User.getByResetCode s.db.users.table code = some u ↔
      u ∈ s.db.users.table.rows ∧ Pending s.history u.id code := by
  constructor
  · intro h
    obtain ⟨hu, hcode⟩ := Table.mem_of_fetchOne h
    rw [beq_iff_eq] at hcode
    exact ⟨hu, (hs.stored u hu code).mp hcode⟩
  · rintro ⟨hu, hp⟩
    refine Table.fetchOne_of_unique hu (beq_iff_eq.mpr ((hs.stored u hu code).mpr hp)) ?_
    intro u' hu' hcode
    rw [beq_iff_eq] at hcode
    exact Table.eq_of_key_eq hu' hu (Pending.owner_eq hs.fair ((hs.stored u' hu' code).mp hcode) hp)

/-- What `generateResetCode` does when no write is refused: nothing, or lock the user out under
the new code. -/
theorem generateResetCode_cases {db : Accounts} {r : GenerateResetCode}
    (h : NotRefused (User.generateResetCode site db r).2) :
    User.generateResetCode site db r = (db, .error .noUser) ∨
    ∃ u ∈ db.users.table.rows, u.id = r.userId ∧ ∃ db',
      User.generateResetCode site db r = (db', .ok r.resetCode) ∧
      Rekeyed db (u.locked site r) r.now db' := by
  unfold User.generateResetCode at h ⊢
  cases hget : User.get db.users.table r.userId with
  | none => exact Or.inl rfl
  | some u =>
    obtain ⟨hu, hid⟩ := Table.mem_of_fetchOne hget
    rw [Bool.and_eq_true, beq_iff_eq] at hid
    rw [hget] at h
    dsimp only at h ⊢
    -- the call throws what the writes throw
    have hsave : NotRefused (User.saveCredentials db (u.locked site r) r.now).2 := by
      intro hrejected
      refine h ?_
      split
      · next heq =>
        rw [heq] at hrejected
        cases hrejected
        rfl
      · next heq =>
        rw [heq] at hrejected
        cases hrejected
    obtain ⟨db', saved, heq, hrekeyed⟩ := saveCredentials_rekeyed hsave hu rfl
    rw [heq]
    exact Or.inr ⟨u, hu, hid.1, db', rfl, hrekeyed⟩

/-- What `resetPassword` does when no write is refused: nothing, because nobody waits for the
code or the password is not a proper one, or let the user who waits in again. -/
theorem resetPassword_cases {db : Accounts} {r : ResetPassword}
    (h : NotRefused (User.resetPassword site db r).2) :
    (∃ e, User.resetPassword site db r = (db, .error e) ∧
      ((∀ u, User.getByResetCode db.users.table r.resetCode ≠ some u) ∨
        ¬ (4 ≤ r.newPassword.length ∧ r.newPassword.length ≤ 20))) ∨
    ∃ u, User.getByResetCode db.users.table r.resetCode = some u ∧
      (4 ≤ r.newPassword.length ∧ r.newPassword.length ≤ 20) ∧ ∃ db' saved,
      User.resetPassword site db r = (db', .ok saved) ∧
      Rekeyed db (u.unlocked site r) r.now db' := by
  unfold User.resetPassword at h ⊢
  cases hget : User.getByResetCode db.users.table r.resetCode with
  | none => exact Or.inl ⟨_, rfl, Or.inl fun u heq => nomatch heq⟩
  | some u =>
    rw [hget] at h
    dsimp only at h ⊢
    cases hvalid : User.validatePassword r.newPassword with
    | error e =>
      refine Or.inl ⟨e, rfl, Or.inr fun hlength => ?_⟩
      cases (User.validatePassword_eq_ok_iff.mpr hlength).symm.trans hvalid
    | ok p =>
      obtain rfl := User.validatePassword_eq_ok hvalid
      rw [hvalid] at h
      dsimp only at h ⊢
      obtain ⟨db', saved, heq, hrekeyed⟩ :=
        saveCredentials_rekeyed h (Table.mem_of_fetchOne hget).1 rfl
      exact Or.inr ⟨u, rfl, User.validatePassword_eq_ok_iff.mp hvalid, db', saved, heq, hrekeyed⟩

/-- A new code keeps the invariant: it is pending for its user, in the history and in the row, and
no other user's code is touched. -/
theorem ResetInv.issue (hs : ResetInv s) {r : GenerateResetCode} {u : User} {db' : Accounts}
    (hfresh : r.resetCode ∉ codes s.history) (hu : u ∈ s.db.users.table.rows)
    (hid : u.id = r.userId) (hrekeyed : Rekeyed s.db (u.locked site r) r.now db') :
    ResetInv ⟨db', .issued r.userId r.resetCode :: s.history⟩ := by
  refine ⟨hs.inStep.rekeyed hrekeyed hu rfl, hs.fair.issue _ hfresh, fun v hv code => ?_,
    fun userId code hp => ?_⟩
  · rw [pending_issue hs.fair hfresh]
    rcases (hrekeyed.users v).mp hv with rfl | ⟨hv, hne⟩
    · have hown : r.userId = (stamped (u.locked site r) r.now).id := hid.symm
      rw [if_pos hown]
      exact Option.some_inj
    · -- the others have the codes they had
      have hother : r.userId ≠ v.id := fun heq => hne (heq.symm.trans hid.symm)
      rw [if_neg hother]
      exact hs.stored v hv code
  · rw [pending_issue hs.fair hfresh] at hp
    by_cases hown : r.userId = userId
    · exact ⟨_, (hrekeyed.users _).mpr (Or.inl rfl), hid.trans hown⟩
    · rw [if_neg hown] at hp
      obtain ⟨v, hv, hvid⟩ := hs.owner userId code hp
      refine ⟨v, (hrekeyed.users v).mpr (Or.inr ⟨hv, fun heq => hown ?_⟩), hvid⟩
      exact hid.symm.trans (heq.symm.trans hvid)

/-- A redeemed code keeps the invariant: nothing is pending for its user any more, and the row has
no code. -/
theorem ResetInv.redeem (hs : ResetInv s) {r : ResetPassword} {u : User} {db' : Accounts}
    (hget : User.getByResetCode s.db.users.table r.resetCode = some u)
    (hrekeyed : Rekeyed s.db (u.unlocked site r) r.now db') :
    ResetInv ⟨db', .redeemed r.resetCode :: s.history⟩ := by
  obtain ⟨hu, hpending⟩ := (getByResetCode_iff hs).mp hget
  refine ⟨hs.inStep.rekeyed hrekeyed hu rfl, hs.fair.redeem hpending.mem_codes,
    fun v hv code => ?_, fun userId code hp => ?_⟩
  · rw [pending_redeem hs.fair hpending]
    rcases (hrekeyed.users v).mp hv with rfl | ⟨hv, hne⟩
    · exact iff_of_false (fun heq => nomatch heq) fun hp => hp.1 rfl
    · rw [hs.stored v hv code]
      exact ⟨fun hp => ⟨fun heq => hne heq.symm, hp⟩, fun hp => hp.2⟩
  · rw [pending_redeem hs.fair hpending] at hp
    obtain ⟨v, hv, hvid⟩ := hs.owner userId code hp.2
    refine ⟨v, (hrekeyed.users v).mpr (Or.inr ⟨hv, fun heq => hp.1 ?_⟩), hvid⟩
    exact heq.symm.trans hvid

/-- A call that throws has changed nothing. -/
theorem execute_error {db : Accounts} {c : ResetCall} (hc : NotRefused (c.execute site db).2)
    {e : Failure} (h : (c.execute site db).2 = .error e) : (c.execute site db).1 = db := by
  cases c with
  | generate r =>
    rcases generateResetCode_cases (NotRefused.of_map hc) with heq | ⟨u, -, -, db', heq, -⟩
    · exact congrArg Prod.fst heq
    · cases (congrArg (Except.map _ ∘ Prod.snd) heq).symm.trans h
  | reset r =>
    rcases resetPassword_cases (NotRefused.of_map hc) with
      ⟨e, heq, -⟩ | ⟨u, -, -, db', saved, heq, -⟩
    · exact congrArg Prod.fst heq
    · cases (congrArg (Except.map _ ∘ Prod.snd) heq).symm.trans h

/-- One call keeps the invariant. An orderly call is refused nothing by the database, so it has
changed nothing, or it has issued a code or redeemed one. -/
theorem ResetInv.step {s' : ResetState} {c : ResetCall} (hs : ResetInv s)
    (hc : Orderly site s c) (hstep : resetStep site s c = some s') : ResetInv s' := by
  obtain ⟨hrefused, hfresh⟩ := hc
  cases c with
  | generate r =>
    dsimp only [resetStep, ResetCall.execute] at hstep
    rcases generateResetCode_cases (NotRefused.of_map hrefused) with
      heq | ⟨u, hu, hid, db', heq, hrekeyed⟩
    · rw [heq] at hstep
      cases hstep
      exact hs
    · rw [heq] at hstep
      cases hstep
      exact hs.issue hfresh hu hid hrekeyed
  | reset r =>
    dsimp only [resetStep, ResetCall.execute] at hstep
    rcases resetPassword_cases (NotRefused.of_map hrefused) with
      ⟨e, heq, -⟩ | ⟨u, hget, -, db', saved, heq, hrekeyed⟩
    · rw [heq] at hstep
      cases hstep
      exact hs
    · rw [heq] at hstep
      cases hstep
      exact hs.redeem hget hrekeyed

/-- A used code stays used. -/
theorem used_step {s' : ResetState} {c : ResetCall} (hc : Orderly site s c)
    (hstep : resetStep site s c = some s') {code : JString} (hu : Used s.history code) :
    Used s'.history code := by
  obtain ⟨-, hfresh⟩ := hc
  unfold resetStep at hstep
  split at hstep
  · cases hstep
    cases c with
    | generate r => exact hu.issue hfresh
    | reset r => exact hu.redeem
  · cases hstep
    exact hu

/-- When a reset is accepted. -/
theorem resetPassword_ok_iff (hs : ResetInv s) {r : ResetPassword}
    (h : NotRefused (User.resetPassword site s.db r).2) :
    (∃ u, (User.resetPassword site s.db r).2 = .ok u) ↔
      (∃ userId, Pending s.history userId r.resetCode) ∧
        4 ≤ r.newPassword.length ∧ r.newPassword.length ≤ 20 := by
  rcases resetPassword_cases h with ⟨e, heq, hwhy⟩ | ⟨u, hget, hlength, db', saved, heq, -⟩
  · rw [heq]
    refine iff_of_false (fun ⟨_, hok⟩ => nomatch hok) ?_
    rintro ⟨⟨userId, hp⟩, hlength⟩
    rcases hwhy with hnone | hno
    · obtain ⟨u, hu, rfl⟩ := hs.owner userId _ hp
      exact hnone u ((getByResetCode_iff hs).mpr ⟨hu, hp⟩)
    · exact hno hlength
  · rw [heq]
    refine iff_of_true ⟨saved, rfl⟩ ⟨⟨u.id, ?_⟩, hlength⟩
    exact ((getByResetCode_iff hs).mp hget).2

/-- A used code is not accepted, whether or not a write would be refused. -/
theorem resetPassword_used (hs : ResetInv s) {r : ResetPassword} (hu : Used s.history r.resetCode) :
    (User.resetPassword site s.db r).2 = .error .invalidPasswordResetCode := by
  unfold User.resetPassword
  cases hget : User.getByResetCode s.db.users.table r.resetCode with
  | none => rfl
  | some u => exact absurd ((getByResetCode_iff hs).mp hget).2 (hu.not_pending hs.fair)

end

/-! ## The protocol -/

/-- What holds in every state of the protocol. -/
structure ResetLaw (site : Site) (s : ResetState) : Prop where
  /-- The login compares the password that was set last. -/
  inStep : InStep s.db
  /-- The latest code of a user is accepted, once, with a proper password. -/
  accepted : ∀ r, NotRefused (User.resetPassword site s.db r).2 →
    ((∃ u, (User.resetPassword site s.db r).2 = .ok u) ↔
      (∃ userId, Pending s.history userId r.resetCode) ∧
        4 ≤ r.newPassword.length ∧ r.newPassword.length ≤ 20)
  /-- A code that was consumed or superseded is not accepted now or later. -/
  used : ∀ r : ResetPassword, Used s.history r.resetCode → ∀ calls s',
    Run.Meets (resetStep site) (Orderly site) s calls →
    Run.exec (resetStep site) s calls = some s' →
      (User.resetPassword site s'.db r).2 = .error .invalidPasswordResetCode
  /-- A call that throws has changed nothing. -/
  unchanged : ∀ c : ResetCall, NotRefused (c.execute site s.db).2 →
    ∀ e, (c.execute site s.db).2 = .error e → (c.execute site s.db).1 = s.db

/-- **The password reset protocol.** From every store that is in step and has no codes, through
every sequence of calls on any users, codes and passwords, with new codes and no refused
writes, the law holds after every call. -/
theorem passwordReset (site : Site) {db : Accounts} (h : ResetInit db) {calls : List ResetCall}
    (hcalls : Run.Meets (resetStep site) (Orderly site) ⟨db, []⟩ calls) :
    Run.Throughout (resetStep site) (ResetLaw site) ⟨db, []⟩ calls := by
  refine Run.throughout_of_meets (fun s c s' hstep hc hs => hs.step hc hstep) (fun s hs => ?_)
    h.inv hcalls
  refine ⟨hs.inStep, fun r hr => resetPassword_ok_iff hs hr, ?_, fun c hc e => execute_error hc⟩
  intro r hu calls s' hmeets hexec
  have hlater := Run.invariant_of_meets
    (I := fun s => ResetInv s ∧ Used s.history r.resetCode)
    (fun s c s' hstep hc hs => ⟨hs.1.step hc hstep, used_step hc hstep hs.2⟩)
    ⟨hs, hu⟩ hmeets hexec
  exact resetPassword_used hlater.1 hlater.2

/-- Ann asks for a code, asks again, and uses the first and then the second one. -/
def annForgets : List ResetCall :=
  [.generate ⟨1, js ['x'], js ['p'], js ['t'], js ['k'], 1⟩,
    .generate ⟨1, js ['y'], js ['p'], js ['t'], js ['k'], 2⟩,
    .reset ⟨js ['x'], js ['n', 'e', 'w', '1'], js ['t'], js ['k'], 3⟩,
    .reset ⟨js ['y'], js ['n', 'e', 'w', '2'], js ['t'], js ['k'], 4⟩]

theorem passwordReset_ann :
    annRegistered.users.table.rows.length = 1 ∧ annRegistered.socialAccounts.rows.length = 1 ∧
      Run.Throughout (resetStep plainSite) (ResetLaw plainSite) ⟨annRegistered, []⟩ annForgets := by
  have hinit : ResetInit annRegistered := ⟨⟨by decide, by decide⟩, by decide⟩
  have hmeets : Run.Meets (resetStep plainSite) (Orderly plainSite) ⟨annRegistered, []⟩
      annForgets := by decide
  exact ⟨by decide, by decide, passwordReset plainSite hinit hmeets⟩

end Maiden
