import Omnipresent.Protocol.Ids

/-! The out-of-band signalling that sets up, maintains and tears down sessions,
and the clipboard payloads that travel beside it. -/
namespace Omnipresent

structure ScreenSize where
  width : UInt32
  height : UInt32
deriving DecidableEq, Repr

inductive RejectReason where
  | notAllowed
  | fingerprintChanged
  | declined
  | busy
deriving DecidableEq, Repr

inductive ControlMessage where
  | connectRequest (machine : MachineId) (fingerprint : Fingerprint) (screen : ScreenSize)
  | accept (session : SessionId) (machine : MachineId) (screen : ScreenSize)
  | reject (reason : RejectReason)
  | disconnect (session : SessionId)
  /-- "You have the cursor now", at this place on your screen. -/
  | cursorWarp (session : SessionId) (x y : Int32)
  | heartbeat (session : SessionId)
  /-- "I have the cursor again", at this place on my screen. -/
  | cursorReturned (session : SessionId) (x y : Int32)
deriving DecidableEq

structure ClipboardImage where
  width : UInt32
  height : UInt32
  bytes : List UInt8
deriving DecidableEq, Repr

inductive ClipboardData where
  | text (text : String)
  | image (image : ClipboardImage)
deriving DecidableEq, Repr

end Omnipresent
