import StatsX.Lib.History
import StatsX.Properties.Messages

/-!
# What the players are told

`SayText` keeps the type of its message in a static variable, which it asks the engine for until it
gets one. All the requests of a session together send what each of them describes on its own, once
the type is known: one message for each addressee that is not a fake client, in the order of their
indices, with the text as the library has formatted it.

## Main definitions

* `SayRequest`, `Said`: the requests, and what a session of them leaves
* `msgTypeOf`: the type of the messages, as a session has asked for it
* `SayRequest.addressees`, `SayRequest.messages`: what a request describes

## Main results

* `sayText_eq`: what one request sends
* `run_sayRequest`: what a session sends
* `sender_bounds`: the byte that is written for the sender
-/

namespace StatsX

/-- A request to `CUtil::SayText`, with the server and the engine as they are then. -/
structure SayRequest where
  server : Server
  engine : MessageEngine
  pEntity : Option Receiver
  sender : ℤ
  text : List UInt8

/-- What the requests have left: the static `iMsgSayText`, and the messages sent. -/
structure Said where
  iMsgSayText : ℤ
  sent : List TextMessage

/-- Nothing has been said yet. -/
def Said.initial : Said := ⟨0, []⟩

namespace SayRequest

variable (vsnprintf snprintf : Printf) (r : SayRequest)

/-- What is left after a request. -/
def exec (s : Said) : Except OutOfBounds Said := do
  let (iMsgSayText, sent) ←
    sayText vsnprintf snprintf r.server r.engine s.iMsgSayText r.pEntity r.sender r.text
  return ⟨iMsgSayText, s.sent ++ sent⟩

/-! ## What a request describes -/

/-- The entities that the request is for, with the index of each: the one that it names, or all the
clients there are. -/
def addressees : List (Receiver × ℤ) :=
  match notNullEnt r.pEntity with
  | some receiver => [(receiver, receiver.entindex)]
  | none => r.server.clients.filterMap fun i => (notNullEnt (r.engine.indexent i)).map (·, i)

/-- The addressee is a player at a screen. -/
def isReal (a : Receiver × ℤ) : Bool := a.1.flags &&& flFakeclient = 0

/-- The message to an addressee. -/
def message (msgType : ℤ) (a : Receiver × ℤ) : TextMessage where
  receiver := a.1
  msgType := msgType
  sender :=
    if normalizeSender r.server.maxClients r.sender ≠ 0 then
      normalizeSender r.server.maxClients r.sender
    else a.2
  format := bytes "%s"
  text := saidText vsnprintf snprintf r.text

/-- **The messages of a request**, when `msgType` is the type of the messages. -/
def messages (msgType : ℤ) : List TextMessage :=
  if msgType = 0 then []
  else (r.addressees.filter isReal).map (r.message vsnprintf snprintf msgType)

end SayRequest

/-- The type of the messages that the requests have asked the engine for: the first that it gave. -/
def msgTypeOf (requests : List SayRequest) : ℤ :=
  ((requests.map (·.engine.userMsgId)).find? (· ≠ 0)).getD 0

theorem msgTypeOf_concat (requests : List SayRequest) (r : SayRequest) :
    msgTypeOf (requests ++ [r]) =
      if msgTypeOf requests ≠ 0 then msgTypeOf requests else r.engine.userMsgId := by
  unfold msgTypeOf
  rw [List.map_append, List.find?_append]
  cases h : (requests.map (·.engine.userMsgId)).find? (· ≠ 0) with
  | some i =>
    have hi : i ≠ 0 := by simpa using List.find?_some h
    simp [hi]
  | none =>
    -- nothing has been given before
    by_cases hr : r.engine.userMsgId = 0 <;> simp [hr]

/-! ## One request -/

section Request

variable {vsnprintf snprintf : Printf} {sayText : CArray UInt8 191} {r : SayRequest}

theorem sayTextTo_eq (h : readString sayText = .ok (saidText vsnprintf snprintf r.text))
    (msgType : ℤ) (a : Receiver × ℤ) :
    sayTextTo msgType (normalizeSender r.server.maxClients r.sender) sayText a.1 a.2 =
      .ok (([a].filter SayRequest.isReal).map (r.message vsnprintf snprintf msgType)) := by
  unfold sayTextTo
  by_cases hreal : a.1.flags &&& flFakeclient = 0
  · rw [if_pos hreal, h, ok_bind, List.filter_singleton, SayRequest.isReal, decide_eq_true hreal]
    rfl
  · rw [if_neg hreal, List.filter_singleton, SayRequest.isReal, decide_eq_false hreal]
    rfl

/-- **The loop** sends to the clients that it finds, one after the other. -/
theorem run_sayTextTurn (h : readString sayText = .ok (saidText vsnprintf snprintf r.text))
    (msgType : ℤ) (clients : List ℤ) (sent : List TextMessage) :
    run (sayTextTurn r.engine msgType (normalizeSender r.server.maxClients r.sender) sayText)
      clients sent = .ok (sent ++ ((clients.filterMap fun i =>
        (notNullEnt (r.engine.indexent i)).map (·, i)).filter SayRequest.isReal).map
          (r.message vsnprintf snprintf msgType)) := by
  induction clients generalizing sent with
  | nil => simp
  | cons i clients ih =>
    rw [run_cons, sayTextTurn]
    cases hi : notNullEnt (r.engine.indexent i) with
    | none =>
      rw [pure_eq_ok, ok_bind, ih, List.filterMap_cons_none (by rw [hi]; rfl)]
    | some receiver =>
      have hsent := sayTextTo_eq h msgType (receiver, i)
      simp only [hsent, ok_bind, pure_eq_ok]
      rw [ih, List.filterMap_cons_some (by rw [hi]; rfl), List.append_assoc, ← List.map_append,
        ← List.filter_append, List.singleton_append]

/-- **What one request sends**, and the type that it leaves in the static variable. -/
theorem sayText_eq (hv : vsnprintf.Documented) (hs : snprintf.Documented) (r : SayRequest)
    (iMsgSayText : ℤ) :
    StatsX.sayText vsnprintf snprintf r.server r.engine iMsgSayText r.pEntity r.sender r.text =
      .ok (if iMsgSayText ≠ 0 then iMsgSayText else r.engine.userMsgId,
        r.messages vsnprintf snprintf
          (if iMsgSayText ≠ 0 then iMsgSayText else r.engine.userMsgId)) := by
  obtain ⟨buffer, array, hbuffers, -, harray⟩ := exists_sayTextBuffers hv hs r.text
  unfold StatsX.sayText SayRequest.messages
  extract_lets msgType shownSender
  by_cases hmsg : msgType = 0
  · rw [if_neg (not_not.mpr hmsg), if_pos hmsg]
    show Except.ok (0, _) = Except.ok (msgType, _)
    rw [hmsg]
  rw [if_pos hmsg, if_neg hmsg, hbuffers, ok_bind, SayRequest.addressees]
  cases notNullEnt r.pEntity with
  | some receiver =>
    have hsent := sayTextTo_eq harray msgType (receiver, receiver.entindex)
    simp only [shownSender, hsent, ok_bind, pure_eq_ok]
    rfl
  | none =>
    have hsent := run_sayTextTurn harray msgType r.server.clients []
    simp only [shownSender, hsent, ok_bind, pure_eq_ok, List.nil_append]
    rfl

end Request

/-- The byte that is written for the sender is one of a player or one of the three colours above
those, when the index of the addressee is one of a player. -/
theorem sender_bounds {vsnprintf snprintf : Printf} {r : SayRequest} {msgType : ℤ} {m : TextMessage}
    (hm : m ∈ r.messages vsnprintf snprintf msgType)
    (hindex : ∀ a ∈ r.addressees, 1 ≤ a.2 ∧ a.2 ≤ maxClients) :
    1 ≤ m.sender ∧ m.sender ≤ maxClients + 3 := by
  unfold SayRequest.messages at hm
  split_ifs at hm with hmsg
  · exact absurd hm List.not_mem_nil
  obtain ⟨a, ha, rfl⟩ := List.mem_map.mp hm
  obtain ⟨hlow, hhigh⟩ := hindex a (List.mem_of_mem_filter ha)
  have hmax := r.server.maxClients_le
  have hsender : 0 ≤ normalizeSender r.server.maxClients r.sender ∧
      normalizeSender r.server.maxClients r.sender ≤ maxClients + 3 := by
    unfold normalizeSender
    have hblue : printTeamBlue = -3 := rfl
    have hdefault : printTeamDefault = 0 := rfl
    have hclients : (maxClients : ℤ) = 32 := rfl
    split_ifs with hout hneg
    · decide
    · rw [abs_of_neg hneg]
      omega
    · omega
  show 1 ≤ ite _ _ _ ∧ ite _ _ _ ≤ _
  split_ifs <;> omega

/-! ## Sessions -/

/-- What the requests of a session describe. -/
def Said.ofRequests (vsnprintf snprintf : Printf) (requests : List SayRequest) : Said where
  iMsgSayText := msgTypeOf requests
  sent := (moments requests).flatMap fun m =>
    m.2.messages vsnprintf snprintf (msgTypeOf (m.1 ++ [m.2]))

/-- **What a session sends**: no request fails, and together they send what each of them describes,
with the first type that the engine gave, and nothing before it gave one. -/
theorem run_sayRequest {vsnprintf snprintf : Printf} (hv : vsnprintf.Documented)
    (hs : snprintf.Documented) (requests : List SayRequest) :
    run (SayRequest.exec vsnprintf snprintf) requests .initial =
      .ok (.ofRequests vsnprintf snprintf requests) := by
  have hexec : ∀ p r, SayRequest.exec vsnprintf snprintf r (.ofRequests vsnprintf snprintf p) =
      .ok (.ofRequests vsnprintf snprintf (p ++ [r])) := by
    intro p r
    have hsay := sayText_eq hv hs r (msgTypeOf p)
    rw [← msgTypeOf_concat] at hsay
    show sayText _ _ _ _ (msgTypeOf p) _ _ _ >>= _ = _
    rw [hsay, ok_bind, Said.ofRequests, Said.ofRequests, moments_concat, List.flatMap_append,
      List.flatMap_singleton]
    rfl
  -- every request succeeds, whatever the ones before it have left
  refine (run_refines (Said.ofRequests vsnprintf snprintf) (fun _ _ => True) ?_ ?_).mpr
    ⟨fun _ _ _ => trivial, rfl⟩
  · intro p r
    exact iff_of_true ⟨_, hexec p r⟩ trivial
  · intro p r t ht
    exact Except.ok.inj (ht.symm.trans (hexec p r))

/-- A server with a player in slot 1 and a fake client in slot 2, and messages of the type `id`. -/
def talkEngine (id : ℤ) : MessageEngine where
  userMsgId := id
  indexent
    | 1 => some firstReceiver
    | 2 => some { offset := 2, entindex := 2, flags := flFakeclient }
    | _ => none

/-- A text to all. -/
def talk (id : ℤ) : SayRequest := ⟨.ofPlayers [], talkEngine id, none, 0, bytes "Round over"⟩

/-- A session in which the engine gives the type with the second of three texts to all: the player
gets the last two, both with this type. -/
theorem run_sayRequest_talk :
    run (SayRequest.exec Printf.total Printf.total) [talk 0, talk 76, talk 77] .initial =
        .ok (.ofRequests Printf.total Printf.total [talk 0, talk 76, talk 77]) ∧
      (Said.ofRequests Printf.total Printf.total [talk 0, talk 76, talk 77]).sent.map
        (fun m => (m.receiver.entindex, m.msgType, m.sender)) = [(1, 76, 1), (1, 76, 1)] :=
  ⟨run_sayRequest Printf.documented_total Printf.documented_total _, by decide +kernel⟩

end StatsX
