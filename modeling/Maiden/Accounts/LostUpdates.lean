import Maiden.Accounts.Overlaps

/-!
# Updates that undo a reset

One request after the other, a token that has been replaced is dead for good
(`Accounts/Sessions.lean`). Not so when they overlap. A profile update reads its caller's row and
identity account, and writes both back at the end. The ids and the email of a user never change,
and nobody else can have got the token (`Accounts/Overlaps.lean`), so the database has no reason
to refuse the write: `update_undoes_reset`. What was done to the user in between is lost, be it a
reset of the password by somebody who knew that it had been stolen.
-/

namespace Maiden

open JString Threads Thread AccountThread

/-! ## What nobody can change meanwhile -/

theorem AccountInvariant.and {I J : Accounts → Prop} {Sound Sound' : User → Prop}
    (hI : AccountInvariant I Sound) (hJ : AccountInvariant J Sound') :
    AccountInvariant (fun db => I db ∧ J db) fun u => Sound u ∧ Sound' u where
  read db u hdb hu := ⟨hI.read db u hdb.1 hu, hJ.read db u hdb.2 hu⟩
  saveUser db u now users saved hdb hu hsave :=
    ⟨hI.saveUser db u now users saved hdb.1 hu.1 hsave,
      hJ.saveUser db u now users saved hdb.2 hu.2 hsave⟩
  saveAccount db sa now hdb := ⟨hI.saveAccount db sa now hdb.1, hJ.saveAccount db sa now hdb.2⟩
  saveProfile db profiles hdb :=
    ⟨hI.saveProfile db profiles hdb.1, hJ.saveProfile db profiles hdb.2⟩
  saveFriendlyId db friendlyIds hdb :=
    ⟨hI.saveFriendlyId db friendlyIds hdb.1, hJ.saveFriendlyId db friendlyIds hdb.2⟩

/-- What does not look at the Users table comes for nothing. -/
theorem AccountInvariant.and_right {I J : Accounts → Prop} {Sound : User → Prop}
    (hI : AccountInvariant I Sound) (hJ : AccountInvariant J fun _ => True) :
    AccountInvariant (fun db => I db ∧ J db) Sound := by
  simpa only [and_true] using hI.and hJ

theorem AccountRequest.Writes.and {site : Site} {Sound Sound' : User → Prop} {r : AccountRequest}
    (h : r.Writes site Sound) (h' : r.Writes site Sound') :
    r.Writes site fun u => Sound u ∧ Sound' u := by
  cases r with
  | createAccount r => exact fun n p e => ⟨h n p e, h' n p e⟩
  | login r =>
    cases r with
    | identity username password now => exact fun u hu => ⟨h u hu.1, h' u hu.2⟩
    | facebook l =>
      exact fun n ex hex => ⟨h n ex fun u hu => (hex u hu).1, h' n ex fun u hu => (hex u hu).2⟩
    | facebookFails => trivial
    | other => trivial
    | noToken => trivial
  | generateReset r => exact fun u i hu => ⟨h u i hu.1, h' u i hu.2⟩
  | reset r => exact fun u hu => ⟨h u hu.1, h' u hu.2⟩
  | updateProfile who r => exact fun u hu => ⟨h u hu.1, h' u hu.2⟩

/-- The user is there, with the email. -/
def HasMail (i : Int) (email : JString) (db : Accounts) : Prop :=
  ∃ row, db.users.table.get i = some row ∧ row.email = email

theorem hasMail_invariant (i : Int) (email : JString) :
    AccountInvariant (HasMail i email) fun u => u.id = i → u.email = email where
  read db u hdb hu hid := by
    obtain ⟨row, hrow, hemail⟩ := hdb
    rw [Table.eq_of_key_eq hu (Table.mem_of_get hrow) (hid.trans (Table.key_of_get hrow).symm)]
    exact hemail
  saveUser db u now users saved hdb hu hsave := by
    obtain ⟨-, htable, -⟩ := Users.save_eq_ok hsave
    show ∃ row, users.table.get i = some row ∧ row.email = email
    rw [htable]
    exact exists_get_upsert hdb fun hid => (Users.saved_email _ u now).trans (hu hid)
  saveAccount _ _ _ hdb := hdb
  saveProfile _ _ hdb := hdb
  saveFriendlyId _ _ hdb := hdb

/-- No request changes the email of a user. -/
theorem writes_email (site : Site) (r : AccountRequest) {i : Int} {email : JString} (hi : i ≠ 0) :
    r.Writes site fun u => u.id = i → u.email = email := by
  cases r with
  | createAccount r => exact fun _ _ _ hid => absurd hid.symm hi
  | login r =>
    cases r with
    | identity username password now => exact fun u hu => hu
    | facebook l =>
      intro _ existing hex hid
      cases existing with
      | none => exact absurd hid.symm hi
      | some x => exact hex x rfl hid
    | facebookFails => trivial
    | other => trivial
    | noToken => trivial
  | generateReset r => exact fun u _ hu => hu
  | reset r => exact fun u hu => hu
  | updateProfile who r => exact fun u hu => hu

/-- The account is there. -/
def HasAccount (i : Int) (db : Accounts) : Prop := ∃ sa, db.socialAccounts.get i = some sa

theorem hasAccount_invariant (i : Int) : AccountInvariant (HasAccount i) fun _ => True where
  read _ _ _ _ := trivial
  saveUser _ _ _ _ _ hdb _ _ := hdb
  saveAccount db sa now hdb := by
    obtain ⟨old, hold⟩ := hdb
    obtain ⟨sa', hsa', -⟩ := exists_get_upsert (P := fun _ => True) ⟨old, hold, trivial⟩
      fun _ => trivial
    exact ⟨sa', hsa'⟩
  saveProfile _ _ hdb := hdb
  saveFriendlyId _ _ hdb := hdb

/-! ## An update that has read -/

/-- A profile update up to its writes to the user and the account: it finds its caller, looks for
the profile, writes it, and finds the account. -/
def UpdateUserProfile.reading (who : Presented) (r : UpdateUserProfile) :
    List (Move AccountRequest) :=
  .start (.updateProfile who r) :: List.replicate 4 (.turn 0)

section

variable {site : Site} {start : Accounts} {who : Presented} {r : UpdateUserProfile} {u : User}
  {sa : SocialAccount} {p : Pool Accounts ActionFailure AccountReply}

theorem of_steps_saving_bind {α β τ : Type} {save : Accounts → Except Failure (τ × α)}
    {set : Accounts → τ → Accounts} {f : α → AccountThread β} {n : Nat} {db : Accounts}
    {q : Accounts × AccountThread β} (h : (saving save set >>= f).steps (n + 2) db = some q) :
    ∃ t a, save db = .ok (t, a) ∧ (f a).steps (n + 1) (set db t) = some q := by
  obtain ⟨db', a, hok, h⟩ := of_steps_commit_bind h
  obtain ⟨t, hsave, rfl⟩ := saving_eq_ok save set hok
  exact ⟨t, a, hsave, h⟩

/-- What it has found stays with it: after four steps the user and the account are in its hands,
and all that is left to do is to write them. -/
theorem steps_updateProfile {db : Accounts} {t : AccountThread User}
    (hcaller : caller start who = some u)
    (haccount : SocialAccount.getByUserIdAndProvider start.socialAccounts u.id .identity = some sa)
    (h : (r.code site who).steps 4 start = some (db, t)) :
    (∃ profiles, db = { start with profiles }) ∧
      t = UpdateUserProfile.writeBackCode site (r.flagged u) (some sa) r.now := by
  unfold UpdateUserProfile.code at h
  rw [steps_fetch_bind, hcaller] at h
  obtain ⟨u', hu', h⟩ := of_steps_lift_bind h
  cases hu'
  obtain ⟨email, -, h⟩ := of_steps_lift_bind h
  obtain ⟨username, -, h⟩ := of_steps_lift_bind h
  obtain ⟨password, -, h⟩ := of_steps_lift_bind h
  unfold createOrUpdateProfile at h
  rw [bind_bind, steps_fetch_bind] at h
  obtain ⟨profiles, _, -, h⟩ := of_steps_saving_bind h
  rw [steps_fetch_bind, haccount, UpdateUserProfile.changed_eq] at h
  cases h
  exact ⟨⟨profiles, rfl⟩, rfl⟩

theorem exec_reading (hcaller : caller start who = some u)
    (haccount : SocialAccount.getByUserIdAndProvider start.socialAccounts u.id .identity = some sa)
    (h : Run.exec (Pool.step (AccountRequest.code site)) { store := start } (r.reading who) =
      some p) :
    ∃ profiles, p = ⟨{ start with profiles },
      [.user <$> UpdateUserProfile.writeBackCode site (r.flagged u) (some sa) r.now]⟩ := by
  obtain ⟨p₀, hstart, h⟩ := Run.exec_cons.mp h
  cases hstart
  obtain ⟨db, t, hsteps, rfl⟩ := (exec_replicate (k := 0) 4 rfl).mp h
  rw [AccountRequest.code, steps_map] at hsteps
  obtain ⟨⟨db', t'⟩, hsteps, heq⟩ := Option.map_eq_some_iff.mp hsteps
  obtain ⟨⟨profiles, rfl⟩, rfl⟩ := steps_updateProfile hcaller haccount hsteps
  cases heq
  exact ⟨profiles, rfl⟩

/-- What the update relies on when it writes. -/
def Restorable (u : User) (sa : SocialAccount) (db : Accounts) : Prop :=
  BelongsTo .accessToken u.accessToken u.id db ∧ HasMail u.id u.email db ∧ HasAccount sa.id db

theorem restorable_invariant (u : User) (sa : SocialAccount) :
    AccountInvariant (Restorable u sa) fun u' =>
      (Credential.accessToken.of u' = some u.accessToken → u'.id = u.id ∧ u'.id ≠ 0) ∧
        (u'.id = u.id → u'.email = u.email) :=
  (belongsTo_invariant _ _ _).and ((hasMail_invariant _ _).and_right (hasAccount_invariant _))

theorem restorable_of_mem {db : Accounts} (hu : u ∈ db.users.table.rows)
    (hsa : sa ∈ db.socialAccounts.rows) : Restorable u sa db := by
  refine ⟨fun r hr hcol => ?_, ⟨u, Table.get_of_mem hu, rfl⟩, sa, Table.get_of_mem hsa⟩
  rw [db.users.accessToken_unique r hr u hu (Option.some.inj hcol)]

/-- The row it has read can be saved. -/
theorem Restorable.admits {db : Accounts} (h : Restorable u sa db) (hfits : u.fits = true) :
    db.users.Admits (r.flagged u) := by
  obtain ⟨htoken, ⟨row, hrow, hemail⟩, -⟩ := h
  refine ⟨hfits, fun r' hr' hne => ⟨fun heq => hne ?_, fun heq => hne ?_⟩⟩
  · have hmem := Table.mem_of_get hrow
    rw [db.users.email_unique r' hr' row hmem (heq.trans hemail.symm)]
    exact Table.key_of_get hrow
  · exact htoken r' hr' (congrArg some heq)

/-- Its writes then go through, as if nothing had happened in between: the rows in its hands are
older than the stored ones, but nothing compares them. -/
theorem Restorable.writeBack {db : Accounts} (h : Restorable u sa db)
    (hfits : u.fits = true) (hsafits : sa.fits = true) :
    ∃ users socialAccounts friendlyIds saved,
      UpdateUserProfile.writeBack site db (r.flagged u) (some sa) r.now =
        ({ db with users, socialAccounts, friendlyIds }, .ok saved) ∧
      users.table.get u.id = some (stamped (r.flagged u) r.now) ∧
      socialAccounts.get sa.id = some (stamped sa r.now) := by
  obtain ⟨users, hsave⟩ := Users.save_of_admits (h.admits (r := r) hfits) r.now
  obtain ⟨-, htable, -⟩ := Users.save_eq_ok hsave
  obtain ⟨-, ⟨row, hrow, -⟩, account, haccount⟩ := h
  have hlink : SocialAccount.save db.socialAccounts sa r.now =
      .ok (upsert db.socialAccounts sa r.now) := if_pos hsafits
  have hwritten : ∃ friendlyIds saved,
      UpdateUserProfile.writeBack site db (r.flagged u) (some sa) r.now =
        ({ db with users, socialAccounts := (upsert db.socialAccounts sa r.now).1, friendlyIds },
          .ok saved) := by
    unfold UpdateUserProfile.writeBack
    rw [hsave]
    dsimp only
    rw [hlink]
    exact ⟨_, _, rfl⟩
  obtain ⟨friendlyIds, saved, hwritten⟩ := hwritten
  refine ⟨users, _, friendlyIds, saved, hwritten, ?_, ?_⟩
  · rw [htable]
    exact get_upsert_stored (Table.mem_of_get hrow) (Table.key_of_get hrow)
  · exact get_upsert_stored (Table.mem_of_get haccount) (Table.key_of_get haccount)

/-- What is relied on holds when the update comes to write, whatever the others have done. -/
theorem restorable_exec {profiles : Table Profile} {mid : List (Move AccountRequest)}
    (hu : u ∈ start.users.table.rows) (hsa : sa ∈ start.socialAccounts.rows)
    (hmid : Run.exec (Pool.step (AccountRequest.code site))
      ⟨{ start with profiles },
        [.user <$> UpdateUserProfile.writeBackCode site (r.flagged u) (some sa) r.now]⟩ mid =
      some p)
    (hfresh : ∀ r', .start r' ∈ mid → r'.draws .accessToken ≠ some u.accessToken) :
    Restorable u sa p.store := by
  have inv := restorable_invariant u sa
  have hid : u.id ≠ 0 := Table.key_ne_zero_of_mem hu
  have hcode : ∀ r', .start r' ∈ mid → (r'.code site).Keeps (Restorable u sa) fun _ => True :=
    fun r' hr' => inv.keeps_code site
      ((writes_of_draws_ne site (hfresh r' hr')).and (writes_email site r' hid))
  -- the update itself is one of the threads, and keeps what it relies on
  have hown : (UpdateUserProfile.writeBackCode site (r.flagged u) (some sa) r.now).Keeps
      (Restorable u sa) fun _ => True :=
    inv.keeps_storeUser ⟨fun _ => ⟨rfl, hid⟩, fun _ => rfl⟩
      (inv.keeps_finishCode site (some sa) r.now)
  refine (exec_keeps ⟨restorable_of_mem hu hsa, fun t ht => ?_⟩ hcode).last hmid
  rw [List.mem_singleton.mp ht]
  exact keeps_map hown fun _ h => h

end

/-- **A reset can be undone.** A profile update has read its caller's row and identity account.
Any requests follow and overlap in any way, resets of this user among them; only the old token is
not drawn again. When the update goes on, it ends with the row and the account as it has read
them: the old token is the one that is good for the user, and the old password is that of the
account. -/
theorem update_undoes_reset (site : Site) {start : Accounts} {who : Presented}
    {r : UpdateUserProfile} {u : User} {sa : SocialAccount} {mid : List (Move AccountRequest)}
    {p : Pool Accounts ActionFailure AccountReply} (hcaller : caller start who = some u)
    (haccount : SocialAccount.getByUserIdAndProvider start.socialAccounts u.id .identity = some sa)
    (hfits : sa.fits = true)
    (hrun : Run.exec (Pool.step (AccountRequest.code site)) { store := start }
      (r.reading who ++ mid) = some p)
    (hmid : .turn 0 ∉ mid)
    (hfresh : ∀ r', .start r' ∈ mid → r'.draws .accessToken ≠ some u.accessToken) :
    ∃ n p', Run.exec (Pool.step (AccountRequest.code site)) p (List.replicate n (.turn 0)) =
        some p' ∧
      (∃ saved, p'.threads[0]? = some (.ret (.user saved))) ∧
      p'.store.users.table.get u.id = some (stamped (r.flagged u) r.now) ∧
      p'.store.socialAccounts.get sa.id = some (stamped sa r.now) ∧
      ∀ token, (∃ u', caller p'.store { parameter := some token } = some u' ∧ u'.id = u.id) ↔
        token = u.accessToken := by
  have hu : u ∈ start.users.table.rows := caller_mem hcaller
  have hsa : sa ∈ start.socialAccounts.rows := (Table.mem_of_fetchOne haccount).1
  obtain ⟨p₁, hreading, hrest⟩ := Run.exec_append.mp hrun
  obtain ⟨profiles, rfl⟩ := exec_reading hcaller haccount hreading
  have hthread := getElem?_exec hmid (k := 0) rfl hrest
  obtain ⟨users, socialAccounts, friendlyIds, saved, hwritten, hrow, hlinked⟩ :=
    (restorable_exec hu hsa hrest hfresh).writeBack (r := r)
      (start.users.fits u hu) hfits
  -- the update goes on alone
  obtain ⟨n, hsteps⟩ := exists_steps_run
    (AccountReply.user <$> UpdateUserProfile.writeBackCode site (r.flagged u) (some sa) r.now)
    p.store
  rw [run_map, run_writeBack, hwritten] at hsteps
  have hlt := (List.getElem?_eq_some_iff.mp hthread).1
  refine ⟨n, ⟨{ p.store with users, socialAccounts, friendlyIds },
    p.threads.set 0 (.ret (.user saved))⟩, (exec_replicate n hthread).mpr ⟨_, _, hsteps, rfl⟩,
    ⟨saved, List.getElem?_set_self hlt⟩, hrow, hlinked, fun token => ?_⟩
  rw [caller_iff_tokens]
  show (users.table.get u.id).map User.accessToken = some token ↔ _
  rw [hrow]
  exact Option.some_inj.trans eq_comm

theorem update_undoes_reset_carol :
    ∃ p n p', Run.exec (Pool.step (AccountRequest.code plainSite)) { store := carolRegistered }
        (UpdateUserProfile.reading { parameter := some carol.accessToken } { now := 5 } ++
          carolResets) = some p ∧
      caller p.store { parameter := some carol.accessToken } = none ∧
      Run.exec (Pool.step (AccountRequest.code plainSite)) p (List.replicate n (.turn 0)) =
        some p' ∧
      ∃ u, caller p'.store { parameter := some carol.accessToken } = some u ∧ u.id = 1 := by
  have hcarol : ∃ u, caller carolRegistered { parameter := some carol.accessToken } = some u ∧
      u.id = 1 ∧ u.accessToken = carol.accessToken := ⟨_, rfl, rfl, rfl⟩
  obtain ⟨u, hu, hid, htoken⟩ := hcarol
  have hsa : ∃ sa, SocialAccount.getByUserIdAndProvider carolRegistered.socialAccounts 1 .identity =
      some sa ∧ sa.fits = true := ⟨_, rfl, by decide⟩
  obtain ⟨sa, hsa, hfits⟩ := hsa
  have hrun : (Run.exec (Pool.step (AccountRequest.code plainSite)) { store := carolRegistered }
      (UpdateUserProfile.reading { parameter := some carol.accessToken } { now := 5 } ++
        carolResets)).any
        (fun p => (caller p.store { parameter := some carol.accessToken }).isNone) = true := by
    decide
  obtain ⟨p, hp, hnone⟩ := (Option.any_eq_true _ _).mp hrun
  have hfresh : ∀ r', .start r' ∈ carolResets → r'.draws .accessToken ≠ some u.accessToken := by
    rw [htoken]
    intro r' hr'
    simp only [carolResets, List.mem_append, List.mem_cons, List.mem_replicate] at hr'
    rcases hr' with (heq | ⟨-, heq⟩) | heq | ⟨-, heq⟩ <;> cases heq <;> decide
  obtain ⟨n, p', hp', -, -, -, hgood⟩ := update_undoes_reset plainSite hu (hid.symm ▸ hsa) hfits hp
    (by simp [carolResets]) hfresh
  obtain ⟨u', hu', hid'⟩ := (hgood u.accessToken).mpr rfl
  exact ⟨p, n, p', hp, Option.isNone_iff_eq_none.mp hnone, hp', u', htoken ▸ hu', hid'.trans hid⟩

end Maiden
