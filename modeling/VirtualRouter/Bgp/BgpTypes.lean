/-
  The BGP types and constants shared by the receive and the transmit side
  (`routing/bgp/BgpTypes.hpp`, `packet/headers/BgpHeader.hpp`).
-/
import VirtualRouter.Utils.ByteUtils

namespace VirtualRouter.Bgp

open Bytes Utils

/-- `BgpHeader::fixedSize`: marker, length and type. -/
def headerSize : ℕ := 19

def kMaxMessageLen : UInt16 := 4096

def kExtendedMessageLen : UInt16 := 65535

def BGP_MARKER : List UInt8 := List.replicate 16 0xFF

/-- The message types `handleIncoming` dispatches on. -/
inductive MessageType where
  | OPEN
  | UPDATE
  | NOTIFICATION
  | KEEPALIVE
  | ROUTE_REFRESH
  deriving DecidableEq, Repr

def MessageType.code : MessageType → UInt8
  | OPEN => 0x01
  | UPDATE => 0x02
  | NOTIFICATION => 0x03
  | KEEPALIVE => 0x04
  | ROUTE_REFRESH => 0x05

def MessageType.ofCode (c : UInt8) : Option MessageType :=
  if c = 0x01 then some OPEN
  else if c = 0x02 then some UPDATE
  else if c = 0x03 then some NOTIFICATION
  else if c = 0x04 then some KEEPALIVE
  else if c = 0x05 then some ROUTE_REFRESH
  else none

/-- `Notification`: error code and subcode in one word, and diagnostic data. -/
structure Notification where
  code : UInt16 := 0
  data : List UInt8 := []
  deriving DecidableEq, Repr

/-- `FsmEvent`: the events of the session's state machine. -/
inductive FsmEvent where
  -- administrative events
  | MANUAL_START
  | MANUAL_STOP
  | AUTOMATIC_START
  | MANUAL_START_PASSIVE_TCP
  | AUTOMATIC_START_PASSIVE_TCP
  | AUTOMATIC_START_DAMP
  | AUTOMATIC_START_DAMP_PASSIVE_TCP
  | AUTOMATIC_STOP
  -- timers
  | CONNECTION_RETRY_TIMER_EXPIRES
  | HOLD_TIMER_EXPIRES
  | KEEPALIVE_TIMER_EXPIRES
  | DELAY_OPEN_TIMER_EXPIRES
  | IDLE_HOLD_TIMER_EXPIRES
  -- connections
  | TCP_CONNECTION_VALID
  | TCP_CR_INVALID
  | TCP_CR_ACKED
  | TCP_CONNECTION_CONFIRMED
  | TCP_CONNECTION_FAILS
  -- messages
  | BGP_OPEN
  | BGP_OPEN_DELAY_OPEN_TIMER
  | BGP_HEADER_ERR
  | BGP_OPEN_MSG_ERR
  | OPEN_COLLISION_DUMP
  | NOTIF_MSG_VER_ERR
  | NOTIF_MSG
  | KEEPALIVE_MSG
  | UPDATE_MSG
  | UPDATE_MSG_ERR
  -- local extensions
  | ROUTE_REFRESH
  | BFD_DOWN
  | BFD_UP
  | MAX_PREFIX_REACHED
  deriving DecidableEq, Repr

structure AfiSafi where
  afi : UInt16
  safi : UInt8
  deriving DecidableEq, Repr

def BGP_NOTIFICATION_HEADER_CONNECTION_NOT_SYNCED : UInt16 := 0x0101

def BGP_NOTIFICATION_HEADER_BAD_MESSAGE_LENGTH : UInt16 := 0x0102

def BGP_NOTIFICATION_HEADER_BAD_MESSAGE_TYPE : UInt16 := 0x0103

end VirtualRouter.Bgp
