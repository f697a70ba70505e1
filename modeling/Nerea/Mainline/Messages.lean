import Nerea.Mainline.Node
import Mathlib.Data.Int.Notation

/-!
# Messages

The messages between nodes and the records they are sent as. Ids and addresses are written
one after the other as bytes. A message that is written and read back is the same one but for
three fields, and reading stops the program when a signed value comes without its signature
or its number.
-/

set_option autoImplicit false

namespace Nerea.Mainline

/-- An array of a fixed number of bytes. -/
abbrev Bytes (n : ℕ) : Type := Vector UInt8 n

structure ErrorSpecific where
  code : ℤ
  description : String
deriving DecidableEq

structure GetValueRequestArguments where
  target : Id
  seq : Option ℤ
  salt : Option (List UInt8)
deriving DecidableEq

structure AnnouncePeerRequestArguments where
  infoHash : Id
  port : UInt16
  impliedPort : Option Bool
deriving DecidableEq

structure PutImmutableRequestArguments where
  target : Id
  v : List UInt8
deriving DecidableEq

structure PutMutableRequestArguments where
  target : Id
  v : List UInt8
  k : Bytes 32
  seq : ℤ
  sig : Bytes 64
  salt : Option (List UInt8)
  cas : Option ℤ
deriving DecidableEq

inductive PutRequestSpecific where
  | announcePeer (args : AnnouncePeerRequestArguments)
  | putImmutable (args : PutImmutableRequestArguments)
  | putMutable (args : PutMutableRequestArguments)
deriving DecidableEq

def PutRequestSpecific.target : PutRequestSpecific → Id
  | .announcePeer args => args.infoHash
  | .putImmutable args => args.target
  | .putMutable args => args.target

structure PutRequest where
  token : List UInt8
  putRequestType : PutRequestSpecific
deriving DecidableEq

inductive RequestTypeSpecific where
  | ping
  | findNode (target : Id)
  | getPeers (infoHash : Id)
  | getValue (args : GetValueRequestArguments)
  | put (request : PutRequest)
deriving DecidableEq

structure RequestSpecific where
  requesterId : Id
  requestType : RequestTypeSpecific
deriving DecidableEq

structure NoValuesResponseArguments where
  responderId : Id
  token : List UInt8
  nodes : Option (List Node)
deriving DecidableEq

structure GetPeersResponseArguments where
  responderId : Id
  token : List UInt8
  values : List SocketAddrV4
  nodes : Option (List Node)
deriving DecidableEq

structure GetImmutableResponseArguments where
  responderId : Id
  token : List UInt8
  nodes : Option (List Node)
  v : List UInt8
deriving DecidableEq

structure GetMutableResponseArguments where
  responderId : Id
  token : List UInt8
  nodes : Option (List Node)
  v : List UInt8
  k : Bytes 32
  seq : ℤ
  sig : Bytes 64
deriving DecidableEq

structure NoMoreRecentValueResponseArguments where
  responderId : Id
  token : List UInt8
  nodes : Option (List Node)
  seq : ℤ
deriving DecidableEq

inductive ResponseSpecific where
  | ping (responderId : Id)
  | findNode (responderId : Id) (nodes : List Node)
  | getPeers (args : GetPeersResponseArguments)
  | getImmutable (args : GetImmutableResponseArguments)
  | getMutable (args : GetMutableResponseArguments)
  | noValues (args : NoValuesResponseArguments)
  | noMoreRecentValue (args : NoMoreRecentValueResponseArguments)
deriving DecidableEq

inductive MessageType where
  | request (request : RequestSpecific)
  | response (response : ResponseSpecific)
  | error (error : ErrorSpecific)
deriving DecidableEq

structure Message where
  transactionId : BitVec 32
  version : Option (Bytes 4)
  requesterIp : Option SocketAddrV4
  messageType : MessageType
  readOnly : Bool
deriving DecidableEq

namespace Message

variable (message : Message)

def getAuthorId : Option Id :=
  match message.messageType with
  | .request request => some request.requesterId
  | .response (.ping responderId) => some responderId
  | .response (.findNode responderId _) => some responderId
  | .response (.getPeers args) => some args.responderId
  | .response (.getImmutable args) => some args.responderId
  | .response (.getMutable args) => some args.responderId
  | .response (.noValues args) => some args.responderId
  | .response (.noMoreRecentValue args) => some args.responderId
  | .error _ => none

def getCloserNodes : Option (List Node) :=
  match message.messageType with
  | .response (.findNode _ nodes) => some nodes
  | .response (.getPeers args) => args.nodes
  | .response (.getImmutable args) => args.nodes
  | .response (.getMutable args) => args.nodes
  | .response (.noValues args) => args.nodes
  | .response (.noMoreRecentValue args) => args.nodes
  | _ => none

def getToken : Option (Id × List UInt8) :=
  match message.messageType with
  | .response (.getPeers args) => some (args.responderId, args.token)
  | .response (.getImmutable args) => some (args.responderId, args.token)
  | .response (.getMutable args) => some (args.responderId, args.token)
  | .response (.noValues args) => some (args.responderId, args.token)
  | .response (.noMoreRecentValue args) => some (args.responderId, args.token)
  | _ => none

end Message

end Nerea.Mainline
