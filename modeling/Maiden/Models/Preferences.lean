import Maiden.Base.CheckThenAct
import Maiden.Base.Varchar
import Maiden.Common.Exceptions
import Maiden.Models.Schema

/-!
# Settings, notifications and tags (`Setting.scala`, `Notification.scala`, `Taggable.scala`)

Three tables with one row per key: a user's setting of a name, a user's device, and what an
actor did to a row of some model. `Setting.createOrUpdate`, `Notification.create` and
`Taggable.create` look for the row in a transaction of their own and write in another. Each is
given here as the code runs it when nothing comes in between, and as a `Protocol`, whose
transactions can be run apart; `createOrUpdate_eq` and the two `create_eq` say that the table
is the same.

The rows are written as the columns keep them (`Base/Varchar.lean`), while the look is for the
text as it was given. A text that is cut is therefore never found again.
-/

namespace Maiden

open Keyed Stamped CheckThenAct

/-- A write transaction, which the database may refuse. -/
def guarded {α : Type} [Keyed α] (tb : Table α) (fits : Bool) (written : Table α × α) :
    Table α × Except Failure α :=
  if fits then (written.1, .ok written.2) else (tb, .error .rejected)

section

variable {Req α K : Type} [Stamped α] {P : Protocol Req α K} {tb : Table α} {a : α} {now : Int}

/-- A refused write leaves the table. -/
theorem guarded_fst (tb : Table α) (fits : Bool) (written : Table α × α) :
    (guarded tb fits written).1 = if fits then written.1 else tb := by
  unfold guarded
  split <;> rfl

/-- `upsert` of a new row is an insert. -/
theorem guarded_upsert_new (hfits : P.fits (stamped a now) = P.fits a) (hkey : key a = 0) :
    (guarded tb (P.fits a) (upsert tb a now)).1 = P.commit tb now (.insert (stamped a)) := by
  rw [guarded_fst, upsert_new tb now hkey, Protocol.commit, hfits]

/-- `upsert` of a stored row is an update. -/
theorem guarded_upsert_old (hfits : P.fits (stamped a now) = P.fits a) (hkey : key a ≠ 0) :
    (guarded tb (P.fits a) (upsert tb a now)).1 = P.commit tb now (.update (stamped a)) := by
  rw [guarded_fst, upsert_old tb now hkey, Protocol.commit, hfits]

end

/-! ## Settings -/

/-- A row of the Settings table (`Setting.scala:12–18`). -/
structure Setting where
  id : Int := 0
  userId : Int := 0
  name : JString := []
  value : JString := []
  createdAt : Option Int
  updatedAt : Option Int
deriving DecidableEq

instance : Stamped Setting where
  key s := s.id
  withKey s k := { s with id := k }
  key_withKey _ _ := rfl
  createdAt s := s.createdAt
  stamp s c m := { s with createdAt := some c, updatedAt := some m }
  key_stamp _ _ _ := rfl

/-- A call of `createOrUpdate`, with the time at which it makes a new row. -/
structure CreateSetting where
  userId : Int
  name : JString
  value : JString
  made : Int

namespace Setting

/-- The columns take the texts of the row. -/
def fits (s : Setting) : Bool := Varchar.accepts 128 s.name && Varchar.accepts 128 s.value

/-- What the columns keep of a new row. -/
def kept (s : Setting) : Setting :=
  { s with name := Varchar.kept 128 s.name, value := Varchar.kept 128 s.value }

/-- `Setting.scala:27–31`. -/
def getSettingForUser (db : Table Setting) (userId : Int) (name : JString) : Option Setting :=
  db.fetchOne fun s => s.userId == userId && s.name == Varchar.sent name

/-- The row of a new setting. -/
def new (r : CreateSetting) : Setting where
  userId := r.userId
  name := r.name
  value := r.value
  createdAt := some r.made
  updatedAt := some r.made

/-- The setting with another value. -/
def withValue (s : Setting) (value : JString) : Setting := { s with value }

/-- The stored setting with what the column keeps of another value. -/
def withKeptValue (s : Setting) (value : JString) : Setting := s.withValue (Varchar.kept 128 value)

/-- Cutting blanks off at the limit does not change whether a text is taken. -/
theorem fits_withKeptValue (s : Setting) (value : JString) :
    (s.withKeptValue value).fits = (s.withValue value).fits := by
  simp [fits, withKeptValue, withValue, Varchar.accepts_kept]

theorem fits_kept (s : Setting) : s.kept.fits = s.fits := by
  simp [fits, kept, Varchar.accepts_kept]

/-- `Setting.scala:39–57`. A new row is inserted as it is, without `upsert`. -/
def createOrUpdate (db : Table Setting) (r : CreateSetting) (now : Int) :
    Table Setting × Except Failure Setting :=
  match getSettingForUser db r.userId r.name with
  | some s => guarded db (s.withValue r.value).fits (upsert db (s.withKeptValue r.value) now)
  | none => guarded db (new r).fits (db.insert (new r).kept, withKey (new r) db.nextKey)

/-- The two transactions of `createOrUpdate`. -/
def protocol : Protocol CreateSetting Setting (Int × JString) where
  column s := (s.userId, s.name)
  fits := fits
  check r db :=
    match getSettingForUser db r.userId r.name with
    | some s => some (.update (stamped (s.withKeptValue r.value)))
    | none => some (.insert fun _ => (new r).kept)
  column_withKey _ _ := rfl
  check_update r db row h := by
    split at h
    · next s hs =>
      cases h
      exact ⟨s, (Table.mem_of_fetchOne hs).1, fun _ => ⟨rfl, rfl⟩⟩
    · cases h

/-- The method is an instance of check-then-act: look for the row of the key, then update or
insert. -/
theorem createOrUpdate_eq (db : Table Setting) (r : CreateSetting) (now : Int) :
    (createOrUpdate db r now).1 = protocol.call db now r := by
  unfold createOrUpdate Protocol.call
  cases hget : getSettingForUser db r.userId r.name with
  | none =>
    simp only [protocol, hget, Protocol.commit, fits_kept]
    exact guarded_fst ..
  | some s =>
    have hold : s.id ≠ 0 := Table.key_ne_zero_of_mem (Table.mem_of_fetchOne hget).1
    simp only [protocol, hget, ← fits_withKeptValue]
    exact guarded_upsert_old (P := protocol) rfl hold

/-- A name that its column keeps as it is is looked for as it is stored. -/
theorem looks {r : CreateSetting} (hname : Varchar.fits 128 r.name = true) : protocol.Looks r := by
  intro db row h now
  simp only [protocol] at h
  split at h
  · cases h
  · next hnone =>
    cases h
    refine Table.not_mem_map_of_fetchOne (fun s heq => ?_) hnone
    simp only [protocol, Prod.mk.injEq] at heq
    obtain ⟨huser, hcolumn⟩ := heq
    simp [huser, hcolumn, new, kept, Varchar.kept_of_fits hname, Varchar.sent_of_fits hname]

end Setting

/-! ## Notifications -/

/-- A row of the Notifications table (`Notification.scala:16–23`). -/
structure Notification where
  id : Int := 0
  userId : Int := 0
  token : JString := []
  deviceType : JString := []
  uuid : JString := []
  createdAt : Option Int
  updatedAt : Option Int
deriving DecidableEq

instance : Stamped Notification where
  key n := n.id
  withKey n k := { n with id := k }
  key_withKey _ _ := rfl
  createdAt n := n.createdAt
  stamp n c m := { n with createdAt := some c, updatedAt := some m }
  key_stamp _ _ _ := rfl

/-- A call of `Notification.create`, with the time at which it makes a new row. -/
structure CreateNotification where
  userId : Int
  token : JString
  deviceType : JString
  uuid : JString
  made : Int

namespace Notification

/-- The columns take the texts of the row; `uuid` has no limit. -/
def fits (n : Notification) : Bool :=
  Varchar.accepts 255 n.token && Varchar.accepts 255 n.deviceType && Varchar.acceptsAny n.uuid

/-- What the columns keep of a new row. -/
def kept (n : Notification) : Notification :=
  { n with
    token := Varchar.kept 255 n.token
    deviceType := Varchar.kept 255 n.deviceType
    uuid := Varchar.sent n.uuid }

/-- `Notification.scala:31–35`. -/
def exists? (db : Table Notification) (userId : Int) (deviceType uuid : JString) :
    Option Notification :=
  db.fetchOne fun n => n.userId == userId && n.deviceType == Varchar.sent deviceType &&
    n.uuid == Varchar.sent uuid

/-- The row of a new device. -/
def new (r : CreateNotification) : Notification where
  userId := r.userId
  token := r.token
  deviceType := r.deviceType
  uuid := r.uuid
  createdAt := some r.made
  updatedAt := some r.made

/-- The device with another token. -/
def withToken (n : Notification) (token : JString) : Notification := { n with token }

/-- The stored device with what the column keeps of another token. -/
def withKeptToken (n : Notification) (token : JString) : Notification :=
  n.withToken (Varchar.kept 255 token)

theorem fits_withKeptToken (n : Notification) (token : JString) :
    (n.withKeptToken token).fits = (n.withToken token).fits := by
  simp [fits, withKeptToken, withToken, Varchar.accepts_kept]

theorem fits_kept (n : Notification) : n.kept.fits = n.fits := by
  simp [fits, kept, Varchar.accepts_kept, Varchar.acceptsAny_sent]

/-- `Notification.scala:37–56`. -/
def create (db : Table Notification) (r : CreateNotification) (now : Int) :
    Table Notification × Except Failure Notification :=
  match exists? db r.userId r.deviceType r.uuid with
  | some x => guarded db (x.withToken r.token).fits (upsert db (x.withKeptToken r.token) now)
  | none => guarded db (new r).fits (upsert db (new r).kept now)

/-- The two transactions of `create`. -/
def protocol : Protocol CreateNotification Notification (Int × JString × JString) where
  column n := (n.userId, n.deviceType, n.uuid)
  fits := fits
  check r db :=
    match exists? db r.userId r.deviceType r.uuid with
    | some x => some (.update (stamped (x.withKeptToken r.token)))
    | none => some (.insert (stamped (new r).kept))
  column_withKey _ _ := rfl
  check_update r db row h := by
    split at h
    · next x hx =>
      cases h
      exact ⟨x, (Table.mem_of_fetchOne hx).1, fun _ => ⟨rfl, rfl⟩⟩
    · cases h

theorem create_eq (db : Table Notification) (r : CreateNotification) (now : Int) :
    (create db r now).1 = protocol.call db now r := by
  unfold create Protocol.call
  cases hget : exists? db r.userId r.deviceType r.uuid with
  | none =>
    simp only [protocol, hget, ← fits_kept (new r)]
    exact guarded_upsert_new (P := protocol) rfl rfl
  | some x =>
    have hold : x.id ≠ 0 := Table.key_ne_zero_of_mem (Table.mem_of_fetchOne hget).1
    simp only [protocol, hget, ← fits_withKeptToken]
    exact guarded_upsert_old (P := protocol) rfl hold

/-- A device type that its column keeps as it is is looked for as it is stored. -/
theorem looks {r : CreateNotification} (hdevice : Varchar.fits 255 r.deviceType = true) :
    protocol.Looks r := by
  intro db row h now
  simp only [protocol] at h
  split at h
  · cases h
  · next hnone =>
    cases h
    refine Table.not_mem_map_of_fetchOne (fun n heq => ?_) hnone
    simp only [protocol, Prod.mk.injEq] at heq
    obtain ⟨huser, hcolumn, huuid⟩ := heq
    simp [huser, hcolumn, huuid, new, kept, stamped, stamp, Varchar.kept_of_fits hdevice,
      Varchar.sent_of_fits hdevice]

end Notification

/-! ## Tags -/

/-- A row of the Taggables table (`Taggable.scala:6–15`). -/
structure Taggable where
  id : Int := 0
  model : JString
  modelId : Int
  action : JString
  actorId : Int
  extra : JString := []
  createdAt : Option Int
  updatedAt : Option Int
deriving DecidableEq

instance : Stamped Taggable where
  key t := t.id
  withKey t k := { t with id := k }
  key_withKey _ _ := rfl
  createdAt t := t.createdAt
  stamp t c m := { t with createdAt := some c, updatedAt := some m }
  key_stamp _ _ _ := rfl

/-- A call of `Taggable.create`, with the time at which it makes a new row. -/
structure CreateTaggable where
  model : JString
  modelId : Int
  actorId : Int
  action : JString
  extra : JString := []
  made : Int

namespace Taggable

/-- The columns take the texts of the row. -/
def fits (t : Taggable) : Bool :=
  Varchar.accepts 50 t.model && Varchar.accepts 128 t.action && Varchar.accepts 2048 t.extra

/-- What the columns keep of a new row. -/
def kept (t : Taggable) : Taggable :=
  { t with
    model := Varchar.kept 50 t.model
    action := Varchar.kept 128 t.action
    extra := Varchar.kept 2048 t.extra }

theorem fits_kept (t : Taggable) : t.kept.fits = t.fits := by
  simp [fits, kept, Varchar.accepts_kept]

/-- `Taggable.scala:83–94`. -/
def get (db : Table Taggable) (model : JString) (modelId actor : Int) (action extra : JString) :
    Option Taggable :=
  db.fetchOne fun t => t.model == Varchar.sent model && t.modelId == modelId &&
    t.actorId == actor && t.action == Varchar.sent action && t.extra == Varchar.sent extra

/-- `Taggable.scala:96–101`. -/
def exists? (db : Table Taggable) (model : JString) (modelId actor : Int)
    (action extra : JString) : Bool :=
  match get db model modelId actor action extra with
  | some _ => true
  | none => false

/-- `exists` and `get` ask for the same row. -/
theorem get_eq_none_of_exists {db : Table Taggable} {model : JString} {modelId actor : Int}
    {action extra : JString} (h : (!exists? db model modelId actor action extra) = true) :
    get db model modelId actor action extra = none := by
  unfold exists? at h
  cases hget : get db model modelId actor action extra with
  | none => rfl
  | some t =>
    rw [hget] at h
    cases h

/-- The row of a new tag. -/
def new (r : CreateTaggable) : Taggable where
  model := r.model
  modelId := r.modelId
  action := r.action
  actorId := r.actorId
  extra := r.extra
  createdAt := some r.made
  updatedAt := some r.made

/-- `Taggable.scala:103–113`. A tag that is there already is left alone. -/
def create (db : Table Taggable) (r : CreateTaggable) (now : Int) :
    Table Taggable × Except Failure (Option Taggable) :=
  if !exists? db r.model r.modelId r.actorId r.action r.extra then
    let saved := guarded db (new r).fits (upsert db (new r).kept now)
    (saved.1, saved.2.map some)
  else (db, .ok none)

/-- The columns that tell tags apart. -/
structure Columns where
  model : JString
  modelId : Int
  actorId : Int
  action : JString
  extra : JString
deriving DecidableEq

/-- The two transactions of `create`. -/
def protocol : Protocol CreateTaggable Taggable Columns where
  column t := ⟨t.model, t.modelId, t.actorId, t.action, t.extra⟩
  fits := fits
  check r db :=
    if !exists? db r.model r.modelId r.actorId r.action r.extra then
      some (.insert (stamped (new r).kept))
    else none
  column_withKey _ _ := rfl
  check_update r db row h := by
    split at h
    · cases h
    · cases h

theorem create_eq (db : Table Taggable) (r : CreateTaggable) (now : Int) :
    (create db r now).1 = protocol.call db now r := by
  unfold create Protocol.call
  cases hexists : exists? db r.model r.modelId r.actorId r.action r.extra with
  | true => simp [protocol, hexists]
  | false =>
    simp only [protocol, hexists, Bool.not_false, if_true, ← fits_kept (new r)]
    exact guarded_upsert_new (P := protocol) rfl rfl

/-- Texts that their columns keep as they are are looked for as they are stored. -/
theorem looks {r : CreateTaggable} (hmodel : Varchar.fits 50 r.model = true)
    (haction : Varchar.fits 128 r.action = true) (hextra : Varchar.fits 2048 r.extra = true) :
    protocol.Looks r := by
  intro db row h now
  simp only [protocol] at h
  split at h
  · next hno =>
    cases h
    refine Table.not_mem_map_of_fetchOne (fun t heq => ?_) (get_eq_none_of_exists hno)
    simp only [protocol, Columns.mk.injEq] at heq
    obtain ⟨hm, hid, hactor, ha, he⟩ := heq
    simp [hm, hid, hactor, ha, he, new, kept, stamped, stamp, Varchar.kept_of_fits, hmodel, haction,
      hextra, Varchar.sent_of_fits hmodel, Varchar.sent_of_fits haction,
      Varchar.sent_of_fits hextra]
  · cases h

end Taggable

end Maiden
