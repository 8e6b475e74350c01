import StatsX.Lib.CString
import StatsX.Lib.Run
import StatsX.Model.Game

/-!
# Messages

The messages that the plugin prints on the console of the server and sends to the players
(Util.cpp). Both are formatted into arrays on the stack by functions of the C library. The text of
a message is what its format and arguments come to.

## Main definitions

* `serverPrint`: a line on the console
* `Receiver`, `MessageEngine`: the entities, and what the engine tells about them
* `sayTextBuffers`, `sayText`: a text to one player or to all of them
-/

namespace StatsX

/-- The bytes of a string literal. -/
def bytes (s : String) : List UInt8 := s.toList.map fun c => c.toNat.toUInt8

/-! ## The console -/

/-- `'\n'` -/
abbrev newline : UInt8 := 10

/-- `CUtil::ServerPrint`: the string that `SERVER_PRINT` gets. -/
def serverPrint (vsnprintf : Printf) (text : List UInt8) : Except OutOfBounds (List UInt8) := do
  let (buffer, length) ← vsnprintf.print (fun _ => 0 : CArray UInt8 255) text
  let length := if length > 254 then 254 else length
  let buffer ← store buffer length newline
  let buffer ← store buffer (length + 1) 0
  readString buffer

/-! ## Messages to players -/

/-- `PRINT_TEAM_DEFAULT` (Util.h). -/
abbrev printTeamDefault : ℤ := 0

/-- `PRINT_TEAM_BLUE` (Util.h). -/
abbrev printTeamBlue : ℤ := -3

/-- `FL_FAKECLIENT` (const.h). -/
abbrev flFakeclient : CInt := 1 <<< 13

/-- What `CUtil::SayText` reads of an `edict_t`. -/
structure Receiver where
  /-- `OFFSET(pent)` -/
  offset : ℤ
  /-- `ENTINDEX(pent)` -/
  entindex : ℤ
  flags : CInt := 0
  deriving DecidableEq, Repr

/-- The entity behind a pointer, unless `FNullEnt` (util.h) is true of it. -/
def notNullEnt (pent : Option Receiver) : Option Receiver := pent.filter (·.offset ≠ 0)

/-- What `CUtil::SayText` asks the engine. -/
structure MessageEngine where
  /-- `GET_USER_MSG_ID(PLID, "SayText", NULL)` -/
  userMsgId : ℤ
  /-- `INDEXENT(i)` -/
  indexent : ℤ → Option Receiver

/-- A message `MSG_ONE` to an entity: its type, the byte and the two strings written. -/
structure TextMessage where
  receiver : Receiver
  msgType : ℤ
  sender : ℤ
  format : List UInt8
  text : List UInt8
  deriving DecidableEq, Repr

/-- `"\4[%s]\1 "`, with `Plugin_info.logtag` -/
def sayTextTag : List UInt8 := 4 :: bytes "[" ++ bytes "STATS" ++ bytes "]" ++ 1 :: bytes " "

/-- The arrays `Buffer` and `SayText` of `CUtil::SayText`, once both are printed into. -/
def sayTextBuffers (vsnprintf snprintf : Printf) (text : List UInt8) :
    Except OutOfBounds (CArray UInt8 191 × CArray UInt8 191) := do
  let (buffer, _) ← vsnprintf.print (fun _ => 0 : CArray UInt8 191) text
  let shown ← readString buffer
  let (sayText, _) ← snprintf.print (fun _ => 0 : CArray UInt8 191) (sayTextTag ++ shown)
  return (buffer, sayText)

/-- The argument `Sender` of `CUtil::SayText`, as the message shows it: a player's index, or a
colour above those. -/
def normalizeSender (maxClients sender : ℤ) : ℤ :=
  if sender < printTeamBlue ∨ sender > maxClients then printTeamDefault
  else if sender < printTeamDefault then |sender| + 32
  else sender

/-- The message of `CUtil::SayText` to an entity, unless it is a fake client. A message without a
sender is shown as the receiver's own, by the index `own`. -/
def sayTextTo (msgType sender : ℤ) (sayText : CArray UInt8 191) (receiver : Receiver) (own : ℤ) :
    Except OutOfBounds (List TextMessage) :=
  if receiver.flags &&& flFakeclient = 0 then do
    let text ← readString sayText
    return [⟨receiver, msgType, if sender ≠ 0 then sender else own, bytes "%s", text⟩]
  else return []

/-- One turn of the loop of `CUtil::SayText`, on the messages sent so far. -/
def sayTextTurn (e : MessageEngine) (msgType sender : ℤ) (sayText : CArray UInt8 191) (i : ℤ)
    (sent : List TextMessage) : Except OutOfBounds (List TextMessage) :=
  match notNullEnt (e.indexent i) with
  | some pTempEntity => do return sent ++ (← sayTextTo msgType sender sayText pTempEntity i)
  | none => return sent

/-- `CUtil::SayText`: its static `iMsgSayText` after the call, and the messages sent. -/
def sayText (vsnprintf snprintf : Printf) (g : Server) (e : MessageEngine) (iMsgSayText : ℤ)
    (pEntity : Option Receiver) (sender : ℤ) (text : List UInt8) :
    Except OutOfBounds (ℤ × List TextMessage) :=
  let iMsgSayText := if iMsgSayText ≠ 0 then iMsgSayText else e.userMsgId
  if iMsgSayText ≠ 0 then do
    let (_, sayText) ← sayTextBuffers vsnprintf snprintf text
    let sender := normalizeSender g.maxClients sender
    match notNullEnt pEntity with
    | some pEntity =>
      return (iMsgSayText, ← sayTextTo iMsgSayText sender sayText pEntity pEntity.entindex)
    | none =>
      return (iMsgSayText, ← run (sayTextTurn e iMsgSayText sender sayText) g.clients [])
  else return (0, [])

end StatsX
