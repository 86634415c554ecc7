import Maiden.Accounts.Atomicity
import Maiden.Accounts.FacebookFrame
import Maiden.Accounts.FacebookIdentity
import Maiden.Accounts.FriendlyIds
import Maiden.Accounts.LoginIsolation
import Maiden.Accounts.LostUpdates
import Maiden.Accounts.ModelIds
import Maiden.Accounts.PasswordReset
import Maiden.Accounts.ProfileUpdate
import Maiden.Accounts.Profiles
import Maiden.Accounts.References
import Maiden.Accounts.Takeover
import Maiden.Accounts.UserNames
import Maiden.Api.Trip
import Maiden.Base.Decimal
import Maiden.Routes.Bearings
import Maiden.Routes.ClosestStop
import Maiden.Routes.CyclicWalk
import Maiden.Routes.Insertion
import Maiden.Routes.Operating
import Maiden.Routes.PathCodec
import Maiden.Routes.Positions
import Maiden.Routes.Rotation
import Maiden.Routes.StopOrders
import Maiden.Routes.ToPickup
import Maiden.Safety.Assigned
import Maiden.Safety.BookingLog
import Maiden.Safety.Channel
import Maiden.Safety.LostUpdate
import Maiden.Safety.OneRowPerKey
import Maiden.Safety.OneTrip
import Maiden.Safety.Overbooking
import Maiden.Safety.TakenUp
import Maiden.Schedules.Chronology
import Maiden.Schedules.Cycles
import Maiden.Schedules.DriverEta
import Maiden.Schedules.Generated
import Maiden.Schedules.StopTimetable
import Maiden.Seats.ByDriver
import Maiden.Seats.Exact
import Maiden.Texts.HttpBodies
import Maiden.Texts.Names
import Maiden.Texts.SearchTerms
import Maiden.Texts.Slugs
import Maiden.Tick.Independence
import Maiden.Tick.Stranded
import Maiden.Tick.Termination
