import Nerea.Mainline.ClosestNodes
import Nerea.Mainline.Items
import Nerea.Mainline.Tokens
import Nerea.Shared.Lru

/-!
# The server

A node in server mode keeps peers, immutable and mutable values, each in a cache that drops
what was used least recently. A value is taken only with a token, and only if it is what its
target or its signature says. A refused request changes nothing but the order of use.
-/

set_option autoImplicit false

namespace Nerea.Mainline

structure PeersStore where
  infoHashes : Lru.Cache Id (Lru.Cache Id SocketAddrV4)
  maxPeers : ℕ
  pos : 0 < maxPeers

namespace PeersStore

variable (s : PeersStore)

def new (maxInfoHashes maxPeers : ℕ) (hpos : 0 < maxInfoHashes) (pos : 0 < maxPeers) :
    PeersStore :=
  ⟨Lru.empty maxInfoHashes hpos, maxPeers, pos⟩

def addPeer (infoHash peerId : Id) (peer : SocketAddrV4) : PeersStore :=
  match s.infoHashes.peek infoHash with
  | some infoHashLru =>
    { s with infoHashes := s.infoHashes.put infoHash (infoHashLru.put peerId peer) }
  | none =>
    { s with
      infoHashes := s.infoHashes.put infoHash ((Lru.empty s.maxPeers s.pos).put peerId peer) }

def targetSize : ℕ := 10

/-- `u32::from_le_bytes` of four bytes of the chunk. -/
def randInt (chunk : List UInt8) (index : ℕ) : ℕ :=
  XorMetric.value ((chunk.drop index).take 4).reverse

/-- The loop over the peers; `chance` stands for the floating point chance of the next one. -/
def sample (chance : ℕ → ℕ → ℕ) (chunk : List UInt8) (size : ℕ) :
    ℕ → List SocketAddrV4 → List SocketAddrV4 → List SocketAddrV4
  | _, results, [] => results
  | index, results, addr :: rest =>
    if randInt chunk index < chance (targetSize - results.length) (size - index) then
      if (results ++ [addr]).length = targetSize then results ++ [addr]
      else sample chance chunk size (index + 1) (results ++ [addr]) rest
    else sample chance chunk size (index + 1) results rest

def randomPeers (chance : ℕ → ℕ → ℕ) (chunk : List UInt8) (lru : Lru.Cache Id SocketAddrV4) :
    Option (List SocketAddrV4) :=
  let peers := lru.entries.map Prod.snd
  if peers.length = 0 then none
  else if peers.length < targetSize then some peers
  else some (sample chance chunk peers.length 0 [] peers)

def getRandomPeers (chance : ℕ → ℕ → ℕ) (chunk : List UInt8) (infoHash : Id) :
    PeersStore × Option (List SocketAddrV4) :=
  ({ s with infoHashes := s.infoHashes.touch infoHash },
    (s.infoHashes.peek infoHash).bind (randomPeers chance chunk))

end PeersStore

/-- What a request meets: the time, and the random bytes that are drawn at it. -/
structure Draw where
  now : ℕ
  secret : Secret
  chunk : List UInt8
  chance : ℕ → ℕ → ℕ

structure Server where
  tokens : Tokens
  peers : PeersStore
  immutableValues : Lru.Cache Id (List UInt8)
  mutableValues : Lru.Cache Id MutableItem
  filter : RequestSpecific → SocketAddrV4 → Bool

structure ServerSettings where
  maxInfoHashes : ℕ
  maxPeersPerInfoHash : ℕ
  maxImmutableValues : ℕ
  maxMutableValues : ℕ
  filter : RequestSpecific → SocketAddrV4 → Bool

def maxInfoHashes : ℕ := 2000

def maxPeers : ℕ := 500

def maxValues : ℕ := 1000

/-- `NonZeroUsize::new(n).unwrap_or(default)`. -/
def nonZeroOr (n default : ℕ) : ℕ := if n = 0 then default else n

theorem nonZeroOr_pos {n default : ℕ} (h : 0 < default) : 0 < nonZeroOr n default := by
  unfold nonZeroOr
  split
  · exact h
  · exact Nat.pos_of_ne_zero ‹_›

def errorMessage (code : ℤ) (description : String) : MessageType := .error ⟨code, description⟩

namespace Server

def new (settings : ServerSettings) (tokens : Tokens) : Server where
  tokens := tokens
  peers := .new (nonZeroOr settings.maxInfoHashes maxInfoHashes)
    (nonZeroOr settings.maxPeersPerInfoHash maxPeers) (nonZeroOr_pos (by decide))
    (nonZeroOr_pos (by decide))
  immutableValues :=
    Lru.empty (nonZeroOr settings.maxImmutableValues maxValues) (nonZeroOr_pos (by decide))
  mutableValues :=
    Lru.empty (nonZeroOr settings.maxMutableValues maxValues) (nonZeroOr_pos (by decide))
  filter := settings.filter

variable (crypto : Crypto) (s : Server) (table : RoutingTable) (source : SocketAddrV4)

def pingReply : MessageType := .response (.ping table.id)

def handleGetMutable (target : Id) (seq : Option ℤ) : Server × ResponseSpecific :=
  let token := s.tokens.generateToken source
  let nodes := some (table.closest target)
  ({ s with mutableValues := s.mutableValues.touch target },
    match s.mutableValues.peek target with
    | some item =>
      match seq.map (fun requestSeq => decide (item.seq ≤ requestSeq)) with
      | some true => .noMoreRecentValue ⟨table.id, token, nodes, item.seq⟩
      | _ => .getMutable ⟨table.id, token, nodes, item.value, item.key, item.seq, item.signature⟩
    | none => .noValues ⟨table.id, token, nodes⟩)

def handleGetPeers (draw : Draw) (infoHash : Id) : Server × ResponseSpecific :=
  let token := s.tokens.generateToken source
  let nodes := some (table.closest infoHash)
  let (peers, found) := s.peers.getRandomPeers draw.chance draw.chunk infoHash
  ({ s with peers := peers },
    match found with
    | some values => .getPeers ⟨table.id, token, values, nodes⟩
    | none => .noValues ⟨table.id, token, nodes⟩)

def handleGetValue (args : GetValueRequestArguments) : Server × ResponseSpecific :=
  if args.seq.isSome then handleGetMutable s table source args.target args.seq
  else
    -- reading brings a value to the front of its cache, and nothing when there is none
    let touched := { s with immutableValues := s.immutableValues.touch args.target }
    match s.immutableValues.peek args.target with
    | some v =>
      (touched, .getImmutable ⟨table.id, s.tokens.generateToken source,
        some (table.closest args.target), v⟩)
    | none => handleGetMutable touched table source args.target args.seq

def announcePeer (requesterId : Id) (token : List UInt8) (args : AnnouncePeerRequestArguments) :
    Server × MessageType :=
  if s.tokens.validate source token = false then (s, errorMessage 203 "Bad token")
  else
    let peer : SocketAddrV4 :=
      match args.impliedPort with
      | some true => source
      | _ => ⟨source.ip, args.port⟩
    ({ s with peers := s.peers.addPeer args.infoHash requesterId peer }, pingReply table)

def putImmutable (token : List UInt8) (args : PutImmutableRequestArguments) :
    Server × MessageType :=
  if s.tokens.validate source token = false then (s, errorMessage 203 "Bad token")
  else if 1000 < args.v.length then (s, errorMessage 205 "Message (v field) too big.")
  else if validateImmutable crypto args.v args.target = false then
    (s, errorMessage 203 "Target doesn't match the sha1 hash of v field")
  else
    ({ s with immutableValues := s.immutableValues.put args.target args.v }, pingReply table)

/-- What the item that is stored has against a new one. -/
def conflict (previous : MutableItem) (args : PutMutableRequestArguments) : Option MessageType :=
  if args.cas.any (fun cas => previous.seq ≠ cas) then
    some (errorMessage 301 "CAS mismatched, re-read value and try again.")
  else if args.seq < previous.seq then
    some (errorMessage 302 "Sequence number less than current.")
  else none

def putMutable (token : List UInt8) (args : PutMutableRequestArguments) : Server × MessageType :=
  if s.tokens.validate source token = false then (s, errorMessage 203 "Bad token")
  else if 1000 < args.v.length then (s, errorMessage 205 "Message (v field) too big.")
  else if args.salt.any (fun salt => 64 < salt.length) then
    (s, errorMessage 207 "salt (salt field) too big.")
  else
    let touched := { s with mutableValues := s.mutableValues.touch args.target }
    match (s.mutableValues.peek args.target).bind (fun previous => conflict previous args) with
    | some reply => (touched, reply)
    | none =>
      match MutableItem.fromDhtMessage crypto args.target args.k args.v args.seq args.sig
        args.salt with
      | .ok item =>
        ({ touched with mutableValues := touched.mutableValues.put args.target item },
          pingReply table)
      | .error _ => (touched, errorMessage 206 "Invalid signature")

/-- The request is handled once it has passed the filter and the secrets are fresh. -/
def dispatch (draw : Draw) (request : RequestSpecific) : Server × MessageType :=
  match request.requestType with
  | .ping => (s, pingReply table)
  | .findNode target => (s, .response (.findNode table.id (table.closest target)))
  | .getPeers infoHash => (s.handleGetPeers table source draw infoHash).map id .response
  | .getValue args => (s.handleGetValue table source args).map id .response
  | .put ⟨token, .announcePeer args⟩ =>
    s.announcePeer table source request.requesterId token args
  | .put ⟨token, .putImmutable args⟩ => s.putImmutable crypto table source token args
  | .put ⟨token, .putMutable args⟩ => s.putMutable crypto table source token args

def handleRequest (draw : Draw) (request : RequestSpecific) : Server × Option MessageType :=
  if s.filter request source = false then (s, none)
  else
    let fresh := { s with tokens := s.tokens.refresh draw.secret draw.now }
    (fresh.dispatch crypto table source draw request).map id some

end Server

end Nerea.Mainline
