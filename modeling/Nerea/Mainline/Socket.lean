import Nerea.Mainline.Messages
import Nerea.Shared.Run
import Mathlib.Data.List.Nodup
import Mathlib.Data.List.Count

/-!
# The socket

A request goes out under a number, and an answer comes in for it if it bears the number, comes
from the address and is not late. Requests that were not answered in time are swept out now
and then. Nobody can tell whether they are, and every request is answered once at most.
-/

set_option autoImplicit false

namespace Nerea.Mainline

/-- `sentTo` is the field `to`. -/
structure InflightRequest where
  sentTo : SocketAddrV4
  sentAt : ℕ
deriving DecidableEq

def InflightRequest.doesMatch (r : InflightRequest) (socket : SocketAddrV4) : Bool :=
  if r.sentTo.port ≠ socket.port then false
  else if r.sentTo.ip.isUnspecified then true
  else r.sentTo.ip = socket.ip

/-- The map from transaction ids is a function. -/
structure InflightRequests where
  requests : BitVec 32 → Option InflightRequest
  timeout : ℕ

namespace InflightRequests

variable (i : InflightRequests) (transactionId : BitVec 32) (now : ℕ)

def new (timeout : ℕ) : InflightRequests := ⟨fun _ => none, timeout⟩

def set (request : Option InflightRequest) : InflightRequests :=
  { i with requests := fun tid => if tid = transactionId then request else i.requests tid }

def add (address : SocketAddrV4) : InflightRequests :=
  i.set transactionId (some ⟨address, now⟩)

def contains : Bool :=
  match i.requests transactionId with
  | some request => now - request.sentAt < i.timeout
  | none => false

def remove (source : SocketAddrV4) : InflightRequests × Option InflightRequest :=
  match i.requests transactionId with
  | none => (i, none)
  | some request =>
    if i.timeout ≤ now - request.sentAt then (i.set transactionId none, none)
    else if request.doesMatch source = false then (i, none)
    else (i.set transactionId none, some request)

-- `sent_at > now - timeout`, where the difference may lie before the first instant
def cleanup : InflightRequests :=
  { i with
    requests := fun tid =>
      (i.requests tid).filter (fun request => now < request.sentAt + i.timeout) }

variable {i transactionId now}

/-- An answer is taken for the request of its number, if it matches and is not late. -/
theorem remove_eq_some {source : SocketAddrV4} {request : InflightRequest} :
    (i.remove transactionId now source).2 = some request ↔
      i.requests transactionId = some request ∧ now - request.sentAt < i.timeout ∧
        request.doesMatch source = true := by
  unfold remove
  cases hfound : i.requests transactionId with
  | none =>
    constructor
    · intro h
      cases h
    · rintro ⟨h, -⟩
      cases h
  | some found =>
    simp only
    split
    · rename_i hlate
      constructor
      · intro h
        cases h
      · rintro ⟨h, hearly, -⟩
        obtain rfl := Option.some.inj h
        exact absurd hlate (Nat.not_le.mpr hearly)
    · rename_i hearly
      split
      · rename_i hmatch
        constructor
        · intro h
          cases h
        · rintro ⟨h, -, hmatch'⟩
          obtain rfl := Option.some.inj h
          cases hmatch.symm.trans hmatch'
      · rename_i hmatch
        constructor
        · intro h
          obtain rfl := Option.some.inj h
          exact ⟨rfl, Nat.not_le.mp hearly, Bool.eq_true_of_not_eq_false hmatch⟩
        · rintro ⟨h, -, -⟩
          exact h

theorem requests_set_self (i : InflightRequests) (transactionId : BitVec 32)
    (request : Option InflightRequest) :
    (i.set transactionId request).requests transactionId = request := if_pos rfl

theorem requests_set_ne {tid : BitVec 32} {request : Option InflightRequest}
    (h : tid ≠ transactionId) :
    (i.set transactionId request).requests tid = i.requests tid := if_neg h

theorem requests_remove_ne {tid : BitVec 32} {source : SocketAddrV4} (h : tid ≠ transactionId) :
    (i.remove transactionId now source).1.requests tid = i.requests tid := by
  unfold remove
  split
  · rfl
  · split
    · exact requests_set_ne h
    · split
      · rfl
      · exact requests_set_ne h

/-- What is there after an answer was there before. -/
theorem requests_of_remove {tid : BitVec 32} {source : SocketAddrV4} {request : InflightRequest}
    (h : (i.remove transactionId now source).1.requests tid = some request) :
    i.requests tid = some request := by
  by_cases htid : tid = transactionId
  · subst htid
    unfold remove at h
    split at h
    · exact h
    · split at h
      · rw [requests_set_self] at h
        cases h
      · split at h
        · exact h
        · rw [requests_set_self] at h
          cases h
  · rw [requests_remove_ne htid] at h
    exact h

/-- A request that was answered is not there any more. -/
theorem requests_of_removed {source : SocketAddrV4} {request : InflightRequest}
    (h : (i.remove transactionId now source).2 = some request) :
    (i.remove transactionId now source).1.requests transactionId = none := by
  obtain ⟨hfound, hearly, hmatch⟩ := remove_eq_some.mp h
  unfold remove
  rw [hfound]
  simp only
  rw [if_neg (Nat.not_le.mpr hearly), if_neg (ne_false_of_eq_true hmatch)]
  exact requests_set_self _ _ _

theorem timeout_remove (i : InflightRequests) (transactionId : BitVec 32) (now : ℕ)
    (source : SocketAddrV4) : (i.remove transactionId now source).1.timeout = i.timeout := by
  unfold remove
  split
  · rfl
  · split
    · rfl
    · split <;> rfl

theorem requests_cleanup {tid : BitVec 32} {request : InflightRequest} :
    (i.cleanup now).requests tid = some request ↔
      i.requests tid = some request ∧ now < request.sentAt + i.timeout := by
  rw [cleanup, Option.filter_eq_some_iff, decide_eq_true_iff]

end InflightRequests

def version : Bytes 4 := #v[82, 83, 0, 5]

def inflightCleanupInterval : ℕ := 200 * 1000000

/-- `sent` are the messages given to the UDP socket, the latest in front. -/
structure KrpcSocket where
  nextTid : BitVec 32
  serverMode : Bool
  inflightRequests : InflightRequests
  lastCleanup : ℕ
  sent : List (SocketAddrV4 × Message)

namespace KrpcSocket

section
variable (s : KrpcSocket) (now : ℕ)

def new (serverMode : Bool) (requestTimeout : ℕ) : KrpcSocket :=
  ⟨0, serverMode, .new requestTimeout, now, []⟩

def inflight (transactionId : BitVec 32) : Bool :=
  s.inflightRequests.contains transactionId now

def requestMessage (message : RequestSpecific) : Message :=
  ⟨s.nextTid, some version, none, .request message, !s.serverMode⟩

def request (address : SocketAddrV4) (request : RequestSpecific) : KrpcSocket × BitVec 32 :=
  ({ s with
      nextTid := s.nextTid + 1
      inflightRequests := s.inflightRequests.add s.nextTid now address
      sent := (address, s.requestMessage request) :: s.sent }, s.nextTid)

def responseMessage (message : MessageType) (requesterIp : SocketAddrV4)
    (requestTid : BitVec 32) : Message :=
  ⟨requestTid, some version, some requesterIp, message, !s.serverMode⟩

def response (address : SocketAddrV4) (transactionId : BitVec 32) (response : ResponseSpecific) :
    KrpcSocket :=
  { s with
    sent := (address, s.responseMessage (.response response) address transactionId) :: s.sent }

def error (address : SocketAddrV4) (transactionId : BitVec 32) (error : ErrorSpecific) :
    KrpcSocket :=
  { s with
    sent := (address, s.responseMessage (.error error) address transactionId) :: s.sent }

def isExpectedResponse (message : Message) (source : SocketAddrV4) : KrpcSocket × Bool :=
  let (inflightRequests, request) := s.inflightRequests.remove message.transactionId now source
  ({ s with inflightRequests := inflightRequests }, request.isSome)

/-- The sweep at the beginning of `recv_from`. -/
def sweep : KrpcSocket :=
  if inflightCleanupInterval < now - s.lastCleanup then
    { s with lastCleanup := now, inflightRequests := s.inflightRequests.cleanup now }
  else s

/-- What the UDP socket has: an address, and the message if the bytes are one. -/
abbrev Datagram : Type := SocketAddrV4 × Option Message

/-- `recv_from` after the sweep. -/
def receive (datagram : Option Datagram) : KrpcSocket × Option (Message × SocketAddrV4) :=
  match datagram with
  | some (source, some message) =>
    if source.port = 0 then (s, none)
    else
      match message.messageType with
      | .request _ => (s, some (message, source))
      | .response _ | .error _ =>
        let (s, expected) := s.isExpectedResponse now message source
        (s, if expected then some (message, source) else none)
  | _ => (s, none)

def recvFrom (datagram : Option Datagram) : KrpcSocket × Option (Message × SocketAddrV4) :=
  (s.sweep now).receive now datagram

end

/-- A request that is sent, or a look at what has come in. -/
inductive Event where
  | request (address : SocketAddrV4) (request : RequestSpecific) (now : ℕ)
  | recv (datagram : Option Datagram) (now : ℕ)

def Event.now : Event → ℕ
  | .request _ _ now => now
  | .recv _ now => now

def step (s : KrpcSocket) : Event → KrpcSocket
  | .request address request now => (s.request now address request).1
  | .recv datagram now => (s.recvFrom now datagram).1

/-- The same socket without the sweep. -/
def plainStep (s : KrpcSocket) : Event → KrpcSocket
  | .request address request now => (s.request now address request).1
  | .recv datagram now => (s.receive now datagram).1

def received (s : KrpcSocket) : Event → Option (Message × SocketAddrV4)
  | .request _ _ _ => none
  | .recv datagram now => (s.recvFrom now datagram).2

def plainReceived (s : KrpcSocket) : Event → Option (Message × SocketAddrV4)
  | .request _ _ _ => none
  | .recv datagram now => (s.receive now datagram).2

variable {s : KrpcSocket} {now : ℕ}

theorem receive_of_request {source : SocketAddrV4} {message : Message} {r : RequestSpecific}
    (hport : source.port ≠ 0) (hrequest : message.messageType = .request r) :
    s.receive now (some (source, some message)) = (s, some (message, source)) := by
  unfold receive
  simp only
  rw [if_neg hport, hrequest]

theorem receive_of_answer {source : SocketAddrV4} {message : Message}
    (hport : source.port ≠ 0) (hanswer : ∀ r, message.messageType ≠ .request r) :
    s.receive now (some (source, some message))
      = ({ s with inflightRequests :=
            (s.inflightRequests.remove message.transactionId now source).1 },
          if (s.inflightRequests.remove message.transactionId now source).2.isSome then
            some (message, source) else none) := by
  unfold receive
  simp only
  rw [if_neg hport]
  cases hmessage : message.messageType with
  | request r => exact absurd hmessage (hanswer r)
  | response r => rfl
  | error r => rfl

/-- What a datagram does: nothing, a request that is handed on, or an answer. -/
theorem receive_cases (s : KrpcSocket) (now : ℕ) (datagram : Option Datagram) :
    s.receive now datagram = (s, none) ∨
    (∃ source message r, message.messageType = .request r ∧
      s.receive now datagram = (s, some (message, source))) ∨
    ∃ source message, (∀ r, message.messageType ≠ .request r) ∧
      s.receive now datagram
        = ({ s with inflightRequests :=
              (s.inflightRequests.remove message.transactionId now source).1 },
            if (s.inflightRequests.remove message.transactionId now source).2.isSome then
              some (message, source) else none) := by
  match datagram with
  | none => exact Or.inl rfl
  | some (source, none) => exact Or.inl rfl
  | some (source, some message) =>
    by_cases hport : source.port = 0
    · left
      unfold receive
      simp only
      rw [if_pos hport]
    · cases hmessage : message.messageType with
      | request r =>
        exact Or.inr (Or.inl ⟨source, message, r, hmessage, receive_of_request hport hmessage⟩)
      | response r =>
        have hanswer : ∀ r', message.messageType ≠ .request r' := by
          rw [hmessage]
          exact fun _ => MessageType.noConfusion
        exact Or.inr (Or.inr ⟨source, message, hanswer, receive_of_answer hport hanswer⟩)
      | error r =>
        have hanswer : ∀ r', message.messageType ≠ .request r' := by
          rw [hmessage]
          exact fun _ => MessageType.noConfusion
        exact Or.inr (Or.inr ⟨source, message, hanswer, receive_of_answer hport hanswer⟩)

end KrpcSocket

end Nerea.Mainline
