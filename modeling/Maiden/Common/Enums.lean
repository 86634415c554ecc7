import Mathlib.Tactic.Common

/-!
# Enumerations (`common/Enums.scala`)

The Scala enumerations whose numbers reach the tables. A column holds the bare
number (`rideState: Int`), and nothing stops a writer from storing a number that
names no value, so rows carry `Int` and the enumeration is what the code compares
them with.
-/

namespace Maiden

/-- The days of the week (`Enums.scala:6–16`). -/
inductive DayOfWeek where
  | sunday | monday | tuesday | wednesday | thursday | friday | saturday
deriving DecidableEq, Repr

namespace DayOfWeek

def id : DayOfWeek → Int
  | .sunday => 0
  | .monday => 1
  | .tuesday => 2
  | .wednesday => 3
  | .thursday => 4
  | .friday => 5
  | .saturday => 6

def values : List DayOfWeek :=
  [.sunday, .monday, .tuesday, .wednesday, .thursday, .friday, .saturday]

/-- `DayOfWeek(id)`, which throws for a number that names no day. -/
def ofId (n : Int) : Option DayOfWeek := values.find? fun d => d.id == n

end DayOfWeek

/-- The states of a ride (`Enums.scala:50–82`). -/
inductive RideStateType where
  | initial
  | findingVehicle
  | vehicleAccepted
  | vehicleOnWay
  | rideUnderway
  | rideCompleted
  | rideRebooked
  | driverCancelled
  | passengerCancelled
  | passengerCancelledWithPenalty
  | passengerNoShow
  | passengerNoShowWithPenalty
  | driverNoShow
  | noDriverFound
  | outOfServiceArea
  | reservationTimeout
  | noAvailableVehicles
  | alreadyBooked
  | rideTerminatedNoCharge
  | rideTerminatedWithPenalty
  | outsideOperatingHours
deriving DecidableEq, Repr

namespace RideStateType

/-- The number stored for a ride state. -/
def id : RideStateType → Int
  | .initial => 1
  | .findingVehicle => 2
  | .vehicleAccepted => 3
  | .vehicleOnWay => 4
  | .rideUnderway => 5
  | .rideCompleted => 6
  | .rideRebooked => 7
  | .driverCancelled => -1
  | .passengerCancelled => -2
  | .passengerCancelledWithPenalty => -3
  | .passengerNoShow => -4
  | .passengerNoShowWithPenalty => -5
  | .driverNoShow => -6
  | .noDriverFound => -7
  | .outOfServiceArea => -8
  | .reservationTimeout => -9
  | .noAvailableVehicles => -10
  | .alreadyBooked => -11
  | .rideTerminatedNoCharge => -12
  | .rideTerminatedWithPenalty => -13
  | .outsideOperatingHours => -14

/-- All ride states, as `RideStateType.values` lists them. -/
def values : List RideStateType :=
  [.initial, .findingVehicle, .vehicleAccepted, .vehicleOnWay, .rideUnderway,
   .rideCompleted, .rideRebooked, .driverCancelled, .passengerCancelled,
   .passengerCancelledWithPenalty, .passengerNoShow, .passengerNoShowWithPenalty,
   .driverNoShow, .noDriverFound, .outOfServiceArea, .reservationTimeout,
   .noAvailableVehicles, .alreadyBooked, .rideTerminatedNoCharge,
   .rideTerminatedWithPenalty, .outsideOperatingHours]

theorem mem_values (s : RideStateType) : s ∈ values := by
  cases s <;> decide

/-- Different states are stored as different numbers. -/
theorem id_injective : Function.Injective id := by
  intro a b h
  cases a <;> cases b <;> first | rfl | (exact absurd h (by decide))

end RideStateType

/-- How a trip was reserved (`Enums.scala:44–48`). -/
inductive ReservationType where
  | onDemand
  | reserved
deriving DecidableEq, Repr

def ReservationType.id : ReservationType → Int
  | .onDemand => 1
  | .reserved => 2

/-- `PaymentStateType.Pending`, the payment state every trip starts in. -/
def paymentPending : Int := 1

/-- `DiscountType.NoDiscount`, the discount every trip starts with. -/
def noDiscount : Int := 5

end Maiden
