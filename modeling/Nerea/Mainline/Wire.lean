import Nerea.Mainline.Messages

/-!
# The records that messages are sent as

Ids and addresses are written one after the other as bytes. A message that is written and read
back is the same one but for what the records have no place for: the salt of a `get`, a port
that is not to be implied, and the tokens and times of nodes. Reading stops the program when a
signed value comes without its number or its signature.
-/

set_option autoImplicit false

namespace Nerea.Mainline

/-- `panic` stands for an `expect` that fails, with its text. -/
inductive DecodeMessageError where
  | invalidNodes4
  | ipv6Unsupported
  | invalidSocketAddrEncodingLength
  | invalidIdSize (size : ℕ)
  | panic (text : String)
deriving DecidableEq

namespace Wire

structure DHTPutValueRequestArguments where
  id : Id
  target : Id
  token : List UInt8
  v : List UInt8
  k : Option (Bytes 32)
  sig : Option (Bytes 64)
  seq : Option ℤ
  cas : Option ℤ
  salt : Option (List UInt8)
deriving DecidableEq

inductive DHTRequestSpecific where
  | ping (id : Id)
  | findNode (id target : Id)
  | getPeers (id infoHash : Id)
  | announcePeer (id infoHash : Id) (port : UInt16) (token : List UInt8)
      (impliedPort : Option UInt8)
  | getValue (id target : Id) (seq : Option ℤ)
  | putValue (args : DHTPutValueRequestArguments)
deriving DecidableEq

inductive DHTResponseSpecific where
  | getMutable (id : Id) (token : List UInt8) (nodes : Option (List UInt8)) (v : List UInt8)
      (k : Bytes 32) (sig : Bytes 64) (seq : ℤ)
  | noMoreRecentValue (id : Id) (token : List UInt8) (nodes : Option (List UInt8)) (seq : ℤ)
  | getImmutable (id : Id) (token : List UInt8) (nodes : Option (List UInt8)) (v : List UInt8)
  | getPeers (id : Id) (token : List UInt8) (nodes : Option (List UInt8))
      (values : List (List UInt8))
  | noValues (id : Id) (token : List UInt8) (nodes : Option (List UInt8))
  | findNode (id : Id) (nodes : List UInt8)
  | ping (id : Id)
deriving DecidableEq

inductive DHTMessageVariant where
  | request (request : DHTRequestSpecific)
  | response (response : DHTResponseSpecific)
  | error (code : ℤ) (description : String)
deriving DecidableEq

structure DHTMessage where
  transactionId : Bytes 4
  version : Option (Bytes 4)
  variant : DHTMessageVariant
  ip : Option (Bytes 6)
  readOnly : Option ℤ
deriving DecidableEq

def bytesToSockaddr (bytes : List UInt8) : Except DecodeMessageError SocketAddrV4 :=
  match bytes with
  | [a, b, c, d, high, low] => .ok ⟨⟨a, b, c, d⟩, UInt16.ofNat (high.toNat * 256 + low.toNat)⟩
  | _ =>
    if bytes.length = 18 then .error .ipv6Unsupported
    else .error .invalidSocketAddrEncodingLength

def sockaddrToBytes (addr : SocketAddrV4) : Bytes 6 :=
  #v[addr.ip.a, addr.ip.b, addr.ip.c, addr.ip.d, UInt8.ofNat (addr.port.toNat / 256),
    UInt8.ofNat (addr.port.toNat % 256)]

def nodeByteSize : ℕ := idSize + 6

def nodes4ToBytes (nodes : List Node) : List UInt8 :=
  nodes.flatMap fun node => node.id.bytes ++ (sockaddrToBytes node.address).toList

/-- The turns of the loop that are left, over the bytes that are left. -/
def readNodes (now : ℕ) : ℕ → List UInt8 → Except DecodeMessageError (List Node)
  | 0, _ => .ok []
  | turns + 1, bytes => do
    let id ← (Id.fromBytes (bytes.take idSize)).mapError .invalidIdSize
    let sockaddr ← bytesToSockaddr ((bytes.drop idSize).take 6)
    let rest ← readNodes now turns (bytes.drop nodeByteSize)
    return Node.new id sockaddr now :: rest

def bytesToNodes4 (now : ℕ) (bytes : List UInt8) : Except DecodeMessageError (List Node) :=
  if bytes.length % nodeByteSize ≠ 0 then .error .invalidNodes4
  else readNodes now (bytes.length / nodeByteSize) bytes

def peersToBytes (peers : List SocketAddrV4) : List (List UInt8) :=
  peers.map fun peer => (sockaddrToBytes peer).toList

def bytesToPeers (bytes : List (List UInt8)) : Except DecodeMessageError (List SocketAddrV4) :=
  bytes.mapM bytesToSockaddr

def intoSerdeRequest (request : RequestSpecific) : DHTRequestSpecific :=
  let id := request.requesterId
  match request.requestType with
  | .ping => .ping id
  | .findNode target => .findNode id target
  | .getPeers infoHash => .getPeers id infoHash
  | .getValue args => .getValue id args.target args.seq
  | .put ⟨token, .announcePeer args⟩ =>
    .announcePeer id args.infoHash args.port token
      (if args.impliedPort.isSome then some 1 else some 0)
  | .put ⟨token, .putImmutable args⟩ =>
    .putValue ⟨id, args.target, token, args.v, none, none, none, none, none⟩
  | .put ⟨token, .putMutable args⟩ =>
    .putValue ⟨id, args.target, token, args.v, some args.k, some args.sig, some args.seq,
      args.cas, args.salt⟩

def intoSerdeResponse (response : ResponseSpecific) : DHTResponseSpecific :=
  match response with
  | .ping responderId => .ping responderId
  | .findNode responderId nodes => .findNode responderId (nodes4ToBytes nodes)
  | .getPeers args =>
    .getPeers args.responderId args.token (args.nodes.map nodes4ToBytes)
      (peersToBytes args.values)
  | .noValues args => .noValues args.responderId args.token (args.nodes.map nodes4ToBytes)
  | .getImmutable args =>
    .getImmutable args.responderId args.token (args.nodes.map nodes4ToBytes) args.v
  | .getMutable args =>
    .getMutable args.responderId args.token (args.nodes.map nodes4ToBytes) args.v args.k args.sig
      args.seq
  | .noMoreRecentValue args =>
    .noMoreRecentValue args.responderId args.token (args.nodes.map nodes4ToBytes) args.seq

/-- `u32::to_be_bytes` of a transaction id, as an array. -/
def tidToBytes (tid : BitVec 32) : Bytes 4 :=
  #v[⟨tid.extractLsb' 24 8⟩, ⟨tid.extractLsb' 16 8⟩, ⟨tid.extractLsb' 8 8⟩, ⟨tid.extractLsb' 0 8⟩]

def tidFromBytes (bytes : Bytes 4) : BitVec 32 :=
  bytes[0].toBitVec ++ bytes[1].toBitVec ++ bytes[2].toBitVec ++ bytes[3].toBitVec

def intoSerdeMessage (m : Message) : DHTMessage where
  transactionId := tidToBytes m.transactionId
  version := m.version
  ip := m.requesterIp.map sockaddrToBytes
  readOnly := if m.readOnly then some 1 else some 0
  variant :=
    match m.messageType with
    | .request request => .request (intoSerdeRequest request)
    | .response response => .response (intoSerdeResponse response)
    | .error err => .error err.code err.description

def fromSerdeRequest (request : DHTRequestSpecific) :
    Except DecodeMessageError RequestSpecific :=
  match request with
  | .ping id => .ok ⟨id, .ping⟩
  | .findNode id target => .ok ⟨id, .findNode target⟩
  | .getPeers id infoHash => .ok ⟨id, .getPeers infoHash⟩
  | .getValue id target seq => .ok ⟨id, .getValue ⟨target, seq, none⟩⟩
  | .announcePeer id infoHash port token impliedPort =>
    .ok ⟨id, .put ⟨token, .announcePeer ⟨infoHash, port, impliedPort.map (fun b => b ≠ 0)⟩⟩⟩
  | .putValue args =>
    match args.k with
    | some k =>
      match args.seq with
      | none => .error (.panic "Put mutable message to have sequence number")
      | some seq =>
        match args.sig with
        | none => .error (.panic "Put mutable message to have a signature")
        | some sig =>
          .ok ⟨args.id, .put ⟨args.token,
            .putMutable ⟨args.target, args.v, k, seq, sig, args.salt, args.cas⟩⟩⟩
    | none => .ok ⟨args.id, .put ⟨args.token, .putImmutable ⟨args.target, args.v⟩⟩⟩

/-- The nodes of a response, if it has any. -/
def readOptionalNodes (now : ℕ) : Option (List UInt8) →
    Except DecodeMessageError (Option (List Node))
  | some nodes => (bytesToNodes4 now nodes).map some
  | none => .ok none

def fromSerdeResponse (now : ℕ) (response : DHTResponseSpecific) :
    Except DecodeMessageError ResponseSpecific :=
  match response with
  | .ping id => .ok (.ping id)
  | .findNode id nodes => do return .findNode id (← bytesToNodes4 now nodes)
  | .getPeers id token nodes values => do
    let nodes ← readOptionalNodes now nodes
    return .getPeers ⟨id, token, ← bytesToPeers values, nodes⟩
  | .noValues id token nodes => do return .noValues ⟨id, token, ← readOptionalNodes now nodes⟩
  | .getImmutable id token nodes v => do
    return .getImmutable ⟨id, token, ← readOptionalNodes now nodes, v⟩
  | .getMutable id token nodes v k sig seq => do
    return .getMutable ⟨id, token, ← readOptionalNodes now nodes, v, k, seq, sig⟩
  | .noMoreRecentValue id token nodes seq => do
    return .noMoreRecentValue ⟨id, token, ← readOptionalNodes now nodes, seq⟩

def fromSerdeVariant (now : ℕ) : DHTMessageVariant → Except DecodeMessageError MessageType
  | .request request => (fromSerdeRequest request).map .request
  | .response response => (fromSerdeResponse now response).map .response
  | .error code description => .ok (.error ⟨code, description⟩)

/-- The address a message says it was asked from. -/
def readRequesterIp : Option (Bytes 6) → Except DecodeMessageError (Option SocketAddrV4)
  | some ip => (bytesToSockaddr ip.toList).map some
  | none => .ok none

def fromSerdeMessage (now : ℕ) (msg : DHTMessage) : Except DecodeMessageError Message := do
  let requesterIp ← readRequesterIp msg.ip
  let messageType ← fromSerdeVariant now msg.variant
  return {
    transactionId := tidFromBytes msg.transactionId
    version := msg.version
    requesterIp := requesterIp
    readOnly := match msg.readOnly with
      | some readOnly => 0 < readOnly
      | none => false
    messageType := messageType }

theorem port_toNat (port : UInt16) :
    UInt16.ofNat ((UInt8.ofNat (port.toNat / 256)).toNat * 256 +
      (UInt8.ofNat (port.toNat % 256)).toNat) = port := by
  have hlt : port.toNat < 65536 := port.toNat_lt
  have hsize : UInt8.size = 256 := rfl
  have hhigh : (UInt8.ofNat (port.toNat / 256)).toNat = port.toNat / 256 :=
    UInt8.toNat_ofNat_of_lt (by omega)
  have hlow : (UInt8.ofNat (port.toNat % 256)).toNat = port.toNat % 256 :=
    UInt8.toNat_ofNat_of_lt (by omega)
  have hsum : port.toNat / 256 * 256 + port.toNat % 256 = port.toNat := by omega
  rw [hhigh, hlow, hsum, UInt16.ofNat_toNat]

theorem bytesToSockaddr_sockaddrToBytes (addr : SocketAddrV4) :
    bytesToSockaddr (sockaddrToBytes addr).toList = .ok addr := by
  have hbytes : (sockaddrToBytes addr).toList = [addr.ip.a, addr.ip.b, addr.ip.c, addr.ip.d,
      UInt8.ofNat (addr.port.toNat / 256), UInt8.ofNat (addr.port.toNat % 256)] := rfl
  rw [hbytes, bytesToSockaddr, port_toNat]

theorem length_sockaddrToBytes (addr : SocketAddrV4) : (sockaddrToBytes addr).toList.length = 6 :=
  rfl

theorem length_nodes4ToBytes (nodes : List Node) :
    (nodes4ToBytes nodes).length = nodes.length * nodeByteSize := by
  induction nodes with
  | nil => rfl
  | cons node nodes ih =>
    have hcons : nodes4ToBytes (node :: nodes)
        = (node.id.bytes ++ (sockaddrToBytes node.address).toList) ++ nodes4ToBytes nodes :=
      List.flatMap_cons
    rw [hcons, List.length_append, List.length_append, ih, node.id.size, length_sockaddrToBytes,
      List.length_cons, Nat.succ_mul, Nat.add_comm]
    rfl

/-- What is left of a node when it is read back. -/
def receivedNode (now : ℕ) (node : Node) : Node := Node.new node.id node.address now

theorem readNodes_nodes4ToBytes (now : ℕ) (nodes : List Node) :
    readNodes now nodes.length (nodes4ToBytes nodes) = .ok (nodes.map (receivedNode now)) := by
  induction nodes with
  | nil => rfl
  | cons node nodes ih =>
    have hcons : nodes4ToBytes (node :: nodes)
        = node.id.bytes ++ ((sockaddrToBytes node.address).toList ++ nodes4ToBytes nodes) := by
      rw [← List.append_assoc]
      exact List.flatMap_cons
    have hid : (nodes4ToBytes (node :: nodes)).take idSize = node.id.bytes := by
      rw [hcons, ← node.id.size, List.take_left]
    have hdrop : (nodes4ToBytes (node :: nodes)).drop idSize
        = (sockaddrToBytes node.address).toList ++ nodes4ToBytes nodes := by
      rw [hcons, ← node.id.size, List.drop_left]
    have haddr : ((nodes4ToBytes (node :: nodes)).drop idSize).take 6
        = (sockaddrToBytes node.address).toList := by
      rw [hdrop, List.take_left' (length_sockaddrToBytes node.address)]
    have hrest : (nodes4ToBytes (node :: nodes)).drop nodeByteSize = nodes4ToBytes nodes := by
      rw [nodeByteSize, ← List.drop_drop, hdrop,
        List.drop_left' (length_sockaddrToBytes node.address)]
    have hfrom : Id.fromBytes node.id.bytes = .ok node.id := dif_pos node.id.size
    rw [List.length_cons, readNodes, hid, haddr, hrest, hfrom, bytesToSockaddr_sockaddrToBytes, ih]
    rfl

theorem bytesToNodes4_nodes4ToBytes (now : ℕ) (nodes : List Node) :
    bytesToNodes4 now (nodes4ToBytes nodes) = .ok (nodes.map (receivedNode now)) := by
  have hlen := length_nodes4ToBytes nodes
  have hmod : (nodes4ToBytes nodes).length % nodeByteSize = 0 := by
    rw [hlen, Nat.mul_mod_left]
  have hdiv : (nodes4ToBytes nodes).length / nodeByteSize = nodes.length := by
    rw [hlen]
    exact Nat.mul_div_cancel _ (by decide)
  rw [bytesToNodes4, if_neg (not_not_intro hmod), hdiv, readNodes_nodes4ToBytes]

theorem bytesToPeers_peersToBytes (peers : List SocketAddrV4) :
    bytesToPeers (peersToBytes peers) = .ok peers := by
  induction peers with
  | nil => rfl
  | cons peer peers ih =>
    have hcons : peersToBytes (peer :: peers)
        = (sockaddrToBytes peer).toList :: peersToBytes peers := rfl
    rw [bytesToPeers] at ih
    rw [hcons, bytesToPeers, List.mapM_cons, bytesToSockaddr_sockaddrToBytes, ih]
    rfl

theorem readOptionalNodes_map (now : ℕ) (nodes : Option (List Node)) :
    readOptionalNodes now (nodes.map nodes4ToBytes)
      = .ok (nodes.map (List.map (receivedNode now))) := by
  cases nodes with
  | none => rfl
  | some nodes =>
    rw [Option.map_some, readOptionalNodes, bytesToNodes4_nodes4ToBytes]
    rfl

theorem tidFromBytes_tidToBytes (tid : BitVec 32) : tidFromBytes (tidToBytes tid) = tid :=
  append_bytes tid

/-- What is left of a request when it is read back. -/
def receivedRequest (request : RequestSpecific) : RequestSpecific :=
  match request.requestType with
  | .getValue args => ⟨request.requesterId, .getValue { args with salt := none }⟩
  | .put ⟨token, .announcePeer args⟩ =>
    ⟨request.requesterId, .put ⟨token,
      .announcePeer { args with impliedPort := some args.impliedPort.isSome }⟩⟩
  | _ => request

def receivedResponse (now : ℕ) (response : ResponseSpecific) : ResponseSpecific :=
  let received := Option.map (List.map (receivedNode now))
  match response with
  | .ping responderId => .ping responderId
  | .findNode responderId nodes => .findNode responderId (nodes.map (receivedNode now))
  | .getPeers args => .getPeers { args with nodes := received args.nodes }
  | .noValues args => .noValues { args with nodes := received args.nodes }
  | .getImmutable args => .getImmutable { args with nodes := received args.nodes }
  | .getMutable args => .getMutable { args with nodes := received args.nodes }
  | .noMoreRecentValue args => .noMoreRecentValue { args with nodes := received args.nodes }

def received (now : ℕ) (m : Message) : Message :=
  { m with
    messageType :=
      match m.messageType with
      | .request request => .request (receivedRequest request)
      | .response response => .response (receivedResponse now response)
      | .error err => .error err }

theorem fromSerdeRequest_intoSerdeRequest (request : RequestSpecific) :
    fromSerdeRequest (intoSerdeRequest request) = .ok (receivedRequest request) := by
  obtain ⟨id, type⟩ := request
  match type with
  | .ping => rfl
  | .findNode _ => rfl
  | .getPeers _ => rfl
  | .getValue _ => rfl
  | .put ⟨_, .announcePeer ⟨_, _, none⟩⟩ => rfl
  | .put ⟨_, .announcePeer ⟨_, _, some _⟩⟩ => rfl
  | .put ⟨_, .putImmutable _⟩ => rfl
  | .put ⟨_, .putMutable _⟩ => rfl

theorem fromSerdeResponse_intoSerdeResponse (now : ℕ) (response : ResponseSpecific) :
    fromSerdeResponse now (intoSerdeResponse response) = .ok (receivedResponse now response) := by
  cases response with
  | ping responderId => rfl
  | findNode responderId nodes =>
    simp only [intoSerdeResponse, fromSerdeResponse, bytesToNodes4_nodes4ToBytes]
    rfl
  | getPeers args =>
    simp only [intoSerdeResponse, fromSerdeResponse, readOptionalNodes_map,
      bytesToPeers_peersToBytes]
    rfl
  | getImmutable args =>
    simp only [intoSerdeResponse, fromSerdeResponse, readOptionalNodes_map]
    rfl
  | getMutable args =>
    simp only [intoSerdeResponse, fromSerdeResponse, readOptionalNodes_map]
    rfl
  | noValues args =>
    simp only [intoSerdeResponse, fromSerdeResponse, readOptionalNodes_map]
    rfl
  | noMoreRecentValue args =>
    simp only [intoSerdeResponse, fromSerdeResponse, readOptionalNodes_map]
    rfl

/-- What comes back of a message that is written and read. -/
theorem fromSerdeMessage_intoSerdeMessage (now : ℕ) (m : Message) :
    fromSerdeMessage now (intoSerdeMessage m) = .ok (received now m) := by
  have hip : readRequesterIp (intoSerdeMessage m).ip = .ok m.requesterIp := by
    rw [intoSerdeMessage]
    cases m.requesterIp with
    | none => rfl
    | some ip =>
      rw [Option.map_some, readRequesterIp, bytesToSockaddr_sockaddrToBytes]
      rfl
  have htype : fromSerdeVariant now (intoSerdeMessage m).variant
      = .ok (received now m).messageType := by
    rw [intoSerdeMessage, received]
    cases m.messageType with
    | request request =>
      simp only [fromSerdeVariant, fromSerdeRequest_intoSerdeRequest]
      rfl
    | response response =>
      simp only [fromSerdeVariant, fromSerdeResponse_intoSerdeResponse]
      rfl
    | error err => rfl
  have htid : tidFromBytes (intoSerdeMessage m).transactionId = m.transactionId :=
    tidFromBytes_tidToBytes m.transactionId
  rw [fromSerdeMessage, hip, htype, htid]
  obtain ⟨tid, version, ip, type, readOnly⟩ := m
  cases readOnly <;> rfl

/-- Whatever else it comes to, it does not stop the program. -/
def Safe {α : Type} (r : Except DecodeMessageError α) : Prop := ∀ text, r ≠ .error (.panic text)

theorem safe_ok {α : Type} (a : α) : Safe (.ok a) := by
  intro text h
  cases h

theorem Safe.bind {α β : Type} {r : Except DecodeMessageError α}
    {f : α → Except DecodeMessageError β} (hr : Safe r) (hf : ∀ a, Safe (f a)) :
    Safe (r >>= f) := by
  cases r with
  | ok a => exact hf a
  | error e =>
    intro text h
    obtain rfl := Except.error.inj h
    exact hr text rfl

theorem Safe.map {α β : Type} {r : Except DecodeMessageError α} (hr : Safe r) (f : α → β) :
    Safe (r.map f) :=
  hr.bind (fun a => safe_ok (f a))

/-- What follows a result without fault does not stop the program. -/
theorem panics_map {α β : Type} (r : Except DecodeMessageError α) (f : α → β) :
    (∃ text, r.map f = .error (.panic text)) ↔ ∃ text, r = .error (.panic text) := by
  cases r with
  | ok a =>
    constructor
    · rintro ⟨text, h⟩
      cases h
    · rintro ⟨text, h⟩
      cases h
  | error e =>
    constructor
    · rintro ⟨text, h⟩
      exact ⟨text, congrArg _ (Except.error.inj h)⟩
    · rintro ⟨text, h⟩
      exact ⟨text, congrArg _ (Except.error.inj h)⟩

theorem safe_bytesToSockaddr (bytes : List UInt8) : Safe (bytesToSockaddr bytes) := by
  intro text
  unfold bytesToSockaddr
  split
  · intro h
    cases h
  · split
    · intro h
      cases h
    · intro h
      cases h

theorem safe_readNodes (now turns : ℕ) (bytes : List UInt8) :
    Safe (readNodes now turns bytes) := by
  induction turns generalizing bytes with
  | zero => exact safe_ok []
  | succ turns ih =>
    have hid : Safe ((Id.fromBytes (bytes.take idSize)).mapError
        DecodeMessageError.invalidIdSize) := by
      intro text
      cases Id.fromBytes (bytes.take idSize) with
      | ok id =>
        intro h
        cases h
      | error size =>
        intro h
        cases h
    exact hid.bind fun _ => (safe_bytesToSockaddr _).bind fun _ => (ih _).bind fun _ => safe_ok _

theorem safe_bytesToNodes4 (now : ℕ) (bytes : List UInt8) : Safe (bytesToNodes4 now bytes) := by
  unfold bytesToNodes4
  split
  · intro text h
    cases h
  · exact safe_readNodes now _ bytes

theorem safe_bytesToPeers (bytes : List (List UInt8)) : Safe (bytesToPeers bytes) := by
  induction bytes with
  | nil => exact safe_ok []
  | cons b bytes ih =>
    rw [bytesToPeers, List.mapM_cons]
    exact (safe_bytesToSockaddr b).bind fun _ => ih.bind fun _ => safe_ok _

theorem safe_readOptionalNodes (now : ℕ) (nodes : Option (List UInt8)) :
    Safe (readOptionalNodes now nodes) := by
  cases nodes with
  | none => exact safe_ok none
  | some nodes => exact (safe_bytesToNodes4 now nodes).map some

theorem safe_fromSerdeResponse (now : ℕ) (response : DHTResponseSpecific) :
    Safe (fromSerdeResponse now response) := by
  cases response with
  | ping id => exact safe_ok _
  | findNode id nodes => exact (safe_bytesToNodes4 now nodes).bind fun _ => safe_ok _
  | getPeers id token nodes values =>
    exact (safe_readOptionalNodes now nodes).bind fun _ =>
      (safe_bytesToPeers values).bind fun _ => safe_ok _
  | noValues id token nodes => exact (safe_readOptionalNodes now nodes).bind fun _ => safe_ok _
  | getImmutable id token nodes v =>
    exact (safe_readOptionalNodes now nodes).bind fun _ => safe_ok _
  | getMutable id token nodes v k sig seq =>
    exact (safe_readOptionalNodes now nodes).bind fun _ => safe_ok _
  | noMoreRecentValue id token nodes seq =>
    exact (safe_readOptionalNodes now nodes).bind fun _ => safe_ok _

theorem fromSerdeRequest_panic (request : DHTRequestSpecific) :
    (∃ text, fromSerdeRequest request = .error (.panic text)) ↔
      ∃ args, request = .putValue args ∧ args.k.isSome = true ∧
        (args.seq = none ∨ args.sig = none) := by
  cases request with
  | putValue args =>
    obtain ⟨id, target, token, v, k, sig, seq, cas, salt⟩ := args
    cases k <;> cases seq <;> cases sig <;> simp [fromSerdeRequest]
  | _ => simp [fromSerdeRequest]

/-- Six bytes are an address. -/
theorem readRequesterIp_ok (ip : Option (Bytes 6)) : ∃ addr, readRequesterIp ip = .ok addr := by
  cases ip with
  | none => exact ⟨none, rfl⟩
  | some ip =>
    have hlen : ip.toList.length = 6 := Vector.length_toList
    rw [readRequesterIp]
    match ip.toList, hlen with
    | [a, b, c, d, high, low], _ => exact ⟨_, rfl⟩

/-- Reading stops the program exactly on a `put` with a key but no number or no signature. -/
theorem fromSerdeMessage_panic (now : ℕ) (msg : DHTMessage) :
    (∃ text, fromSerdeMessage now msg = .error (.panic text)) ↔
      ∃ args, msg.variant = .request (.putValue args) ∧ args.k.isSome = true ∧
        (args.seq = none ∨ args.sig = none) := by
  obtain ⟨addr, hip⟩ := readRequesterIp_ok msg.ip
  have hmap : ∃ f : MessageType → Message,
      fromSerdeMessage now msg = (fromSerdeVariant now msg.variant).map f := by
    rw [fromSerdeMessage, hip]
    exact ⟨_, rfl⟩
  obtain ⟨f, hf⟩ := hmap
  rw [hf, panics_map]
  cases msg.variant with
  | request request =>
    rw [fromSerdeVariant, panics_map, fromSerdeRequest_panic]
    constructor
    · rintro ⟨args, rfl, h⟩
      exact ⟨args, rfl, h⟩
    · rintro ⟨args, heq, h⟩
      exact ⟨args, DHTMessageVariant.request.inj heq, h⟩
  | response response =>
    constructor
    · rintro ⟨text, h⟩
      exact absurd h ((safe_fromSerdeResponse now response).map _ text)
    · rintro ⟨args, h, -⟩
      cases h
  | error code description =>
    constructor
    · rintro ⟨text, h⟩
      cases h
    · rintro ⟨args, h, -⟩
      cases h

end Wire

end Nerea.Mainline
