import Nerea.Mainline.IterativeQuery
import Nerea.Mainline.PutQuery
import Nerea.Mainline.Server

/-!
# The node

A node runs queries for the closest nodes of a target and puts values at those that answered.
It answers the requests of others, and keeps its table, its address and its statistics up to
date with what it hears. All of it happens in steps: a call of the user, or one tick.
-/

set_option autoImplicit false

namespace Nerea.Mainline

def refreshTableInterval : ℕ := secs (15 * 60)

def pingTableInterval : ℕ := secs (5 * 60)

def maxCachedIterativeQueries : ℕ := 1000

structure CachedIterativeQuery where
  closestRespondingNodes : List Node
  subnets : ℕ
  isFindNode : Bool

/-- The order of the maps of queries stands for whatever order theirs is. `everCached` only
records every query that was cached. -/
structure Rpc where
  bootstrap : List SocketAddrV4
  socket : KrpcSocket
  routingTable : RoutingTable
  lastTableRefresh : ℕ
  lastTablePing : ℕ
  cachedIterativeQueries : Lru.Cache Id CachedIterativeQuery
  everCached : List CachedIterativeQuery
  iterativeQueries : AList (fun _ : Id => IterativeQuery)
  putQueries : AList (fun _ : Id => PutQuery)
  respondersBasedDhtSizeEstimatesCount : ℕ
  subnetsSum : ℕ
  server : Server
  publicAddress : Option SocketAddrV4
  firewalled : Bool

/-- What a step meets: the time and what is drawn at random. The ids of requests are drawn by
their numbers, and `expectedDk` stands for the floating point estimate of that distance, which
is computed from the node as it is then. -/
structure Moment where
  draw : Draw
  randomId : BitVec 32 → Id
  expectedDk : Rpc → ℕ
  idBytes : Id
  r : UInt8

def Moment.now (m : Moment) : ℕ := m.draw.now

namespace IterativeQuery

variable (crypto : Crypto) (q : IterativeQuery) (now : ℕ) (source : SocketAddrV4)
  (message : Message)

/-- What a query learns from an answer: closer nodes, a token, and our address. -/
def hear : IterativeQuery :=
  let q := q.addCandidates (message.getCloserNodes.getD [])
  let q :=
    match message.getToken with
    | some (responderId, token) =>
      q.addRespondingNode (.newWithToken responderId source token now)
    | none => q
  match message.requesterIp with
  | some proposedIp => q.addAddressVote proposedIp
  | none => q

def salt : Option (List UInt8) :=
  match q.request.requestType with
  | .getValue args => args.salt
  | _ => none

/-- The value of an answer, if it is one for the target of the query. -/
def value : Option Response :=
  match message.messageType with
  | .response (.getPeers args) => some (.peers args.values)
  | .response (.getImmutable args) =>
    if validateImmutable crypto args.v q.target then some (.immutable args.v) else none
  | .response (.getMutable args) =>
    match MutableItem.fromDhtMessage crypto q.target args.k args.v args.seq args.sig q.salt with
    | .ok item => some (.mutable item)
    | .error _ => none
  | _ => none

def isFindNode : Bool :=
  match q.request.requestType with
  | .findNode _ => true
  | _ => false

end IterativeQuery

/-- What a put has against another mutable put for its target that is under way. -/
inductive Conflict where
  | same
  | refuse (error : ConcurrencyError)
  | replace

structure RpcTickReport where
  doneGetQueries : List (Id × List Node)
  donePutQueries : List (Id × Option PutError)
  newQueryResponse : Option (Id × Response)

namespace Rpc

def new (bootstrap : List SocketAddrV4) (socket : KrpcSocket) (id : Id) (server : Server)
    (now : ℕ) : Rpc where
  bootstrap := bootstrap
  socket := socket
  routingTable := .new id
  lastTableRefresh := now
  lastTablePing := now
  cachedIterativeQueries := Lru.empty maxCachedIterativeQueries (by decide)
  everCached := []
  iterativeQueries := ∅
  putQueries := ∅
  respondersBasedDhtSizeEstimatesCount := 0
  subnetsSum := 20
  server := server
  publicAddress := none
  firewalled := true

variable (crypto : Crypto) (s : Rpc) (m : Moment)

def id : Id := s.routingTable.id

def averageSubnets : ℕ := s.subnetsSum / max s.cachedIterativeQueries.entries.length 1

section Get

/-- The value of a mutable put that is under way. -/
def responseFromInflightPut (target : Id) : Option Response :=
  match s.putQueries.lookup target with
  | some existing =>
    match existing.request with
    | .putMutable request => some (.mutable (.ofRequest request))
    | _ => none
  | none => none

/-- A new query, with the nodes it begins with. -/
def seeded (request : GetRequestSpecific) (extraNodes : Option (List SocketAddrV4)) :
    IterativeQuery × KrpcSocket :=
  let closest := s.routingTable.closestSecure request.target (m.expectedDk s) s.averageSubnets
  let bootstrap :=
    if closest.isEmpty || closest.length < s.bootstrap.length then s.bootstrap else []
  let (query, socket) := IterativeQuery.visitAll m.now m.randomId (bootstrap ++ extraNodes.getD [])
    (IterativeQuery.new s.id request.target request, s.socket)
  let query := query.addCandidates closest
  let query :=
    match s.cachedIterativeQueries.peek request.target with
    | some cached => query.addCandidates cached.closestRespondingNodes
    | none => query
  query.visitClosest socket m.now m.randomId

def get (request : GetRequestSpecific) (extraNodes : Option (List SocketAddrV4)) :
    Rpc × Option (List Response) :=
  let fromPut := s.responseFromInflightPut request.target
  match s.iterativeQueries.lookup request.target with
  | some query => (s, some (query.responses ++ fromPut.toList))
  | none =>
    let (query, socket) := s.seeded m request extraNodes
    ({ s with
        socket := socket
        cachedIterativeQueries := s.cachedIterativeQueries.touch request.target
        iterativeQueries := s.iterativeQueries.insert request.target query },
      fromPut.map (fun response => [response]))

end Get

section Put

def conflict (request : PutRequestSpecific) : Option Conflict :=
  match request with
  | .putMutable request =>
    match (s.putQueries.lookup request.target).map PutQuery.request with
    | some (.putMutable inflightRequest) =>
      if request.sig = inflightRequest.sig then some .same
      else if request.seq < inflightRequest.seq then some (.refuse .notMostRecent)
      else
        match request.cas with
        | some cas =>
          if cas = inflightRequest.seq then some .replace else some (.refuse .casFailed)
        | none => some (.refuse .conflictRisk)
    | _ => none
  | _ => none

/-- The nodes that a put may go to at once. -/
def cachedNodes (target : Id) : Option (List Node) :=
  ((s.cachedIterativeQueries.peek target).map
    CachedIterativeQuery.closestRespondingNodes).filter
      (fun closestNodes => !closestNodes.isEmpty && closestNodes.any (fun n => n.validToken m.now))

/-- The put once nothing is in its way; nothing where the source stops the program. -/
def startPut (request : PutRequestSpecific) (extraNodes : Option (List Node)) :
    Option (Rpc × Except PutError Unit) :=
  let target := request.target
  let query := PutQuery.new target request extraNodes
  let touched := { s with cachedIterativeQueries := s.cachedIterativeQueries.touch target }
  match s.cachedNodes m target with
  | some closestNodes =>
    match query.start s.socket m.now m.randomId closestNodes with
    | none => none
    | some (.error err) => some (touched, .error err)
    | some (.ok (query, socket)) =>
      some ({ touched with socket := socket, putQueries := s.putQueries.insert target query },
        .ok ())
  | none =>
    let salt :=
      match request with
      | .putMutable args => args.salt
      | _ => none
    let queried := (touched.get m (.getValue ⟨target, none, salt⟩) none).1
    some ({ queried with putQueries := queried.putQueries.insert target query }, .ok ())

def put (request : PutRequestSpecific) (extraNodes : Option (List Node)) :
    Option (Rpc × Except PutError Unit) :=
  match s.conflict request with
  | some .same => some (s, .ok ())
  | some (.refuse err) => some (s, .error (.concurrency err))
  | some .replace =>
    { s with putQueries := s.putQueries.erase request.target }.startPut m request extraNodes
  | none => s.startPut m request extraNodes

end Put

section Handle
variable (source : SocketAddrV4)

/-- A ping from the address that we take for ours shows that it reaches us. -/
def reached (ourAddress : SocketAddrV4) : Rpc :=
  let s := { s with firewalled := false }
  if s.id.isValidForIp ourAddress.ip = false then
    let newId := Id.fromIpv4AndR m.idBytes ourAddress.ip m.r
    { (s.get m (.findNode newId) none).1 with routingTable := .new newId }
  else s

/-- The first node of a network takes in those that ask it. -/
def takeIn (request : RequestSpecific) : Rpc :=
  match s.bootstrap.isEmpty, request.requestType with
  | true, .findNode target =>
    { s with routingTable := (s.routingTable.add m.now (.new target source m.now)).1 }
  | _, _ => s

/-- A node in server mode answers. -/
def serve (transactionId : BitVec 32) (request : RequestSpecific) : Rpc :=
  if s.socket.serverMode then
    let (server, reply) := s.server.handleRequest crypto s.routingTable source m.draw request
    { s with
      server := server
      socket :=
        match reply with
        | some (.error err) => s.socket.error source transactionId err
        | some (.response response) => s.socket.response source transactionId response
        | _ => s.socket }
  else s

/-- A ping may come from the address that we take for ours. -/
def noticePing (request : RequestSpecific) : Rpc :=
  match s.publicAddress with
  | some ourAddress =>
    if source = ourAddress ∧ request.requestType = .ping then s.reached m ourAddress else s
  | none => s

def handleRequest (transactionId : BitVec 32) (request : RequestSpecific) : Rpc :=
  let s := s.takeIn m source request
  let s := s.serve crypto m source transactionId request
  s.noticePing m source request

def handleResponse (message : Message) : Rpc × Option (Id × Response) :=
  if message.readOnly then (s, none)
  else
    match s.putQueries.entries.find? (fun e => e.2.inflight message.transactionId) with
    | some ⟨id, query⟩ =>
      let query :=
        match message.messageType with
        | .response (.ping _) => query.success
        | .error err => query.error err
        | _ => query
      ({ s with putQueries := s.putQueries.insert id query }, none)
    | none =>
      match s.iterativeQueries.entries.find? (fun e => e.2.inflight message.transactionId) with
      | none => (s, none)
      | some ⟨id, query⟩ =>
        let query := query.hear m.now source message
        match query.value crypto message with
        | some response =>
          -- the node that has the value is not added to the table
          ({ s with iterativeQueries := s.iterativeQueries.insert id (query.response response) },
            some (query.target, response))
        | none =>
          ({ s with
              iterativeQueries := s.iterativeQueries.insert id query
              routingTable :=
                match message.getAuthorId with
                | some author => (s.routingTable.add m.now (.new author source m.now)).1
                | none => s.routingTable }, none)

def handleMessage (datagram : Option KrpcSocket.Datagram) : Rpc × Option (Id × Response) :=
  let (socket, received) := s.socket.recvFrom m.now datagram
  let s := { s with socket := socket }
  match received with
  | none => (s, none)
  | some (message, source) =>
    match message.messageType with
    | .request request => (s.handleRequest crypto m source message.transactionId request, none)
    | _ => s.handleResponse crypto m source message

end Handle

section Maintenance

def ping (address : SocketAddrV4) : Rpc :=
  { s with socket := (s.socket.request m.now address ⟨s.id, .ping⟩).1 }

def trySwitchingToServerMode : Rpc :=
  if !s.socket.serverMode && !s.firewalled then
    { s with socket := { s.socket with serverMode := true } }
  else s

def pingAndPurge : Rpc :=
  let (toPurge, toPing) := s.routingTable.purgeAndPingCandidates m.now
  toPing.foldl (fun s address => s.ping m address)
    { s with lastTablePing := m.now, routingTable := s.routingTable.purgeNodes toPurge }

def populate : Rpc :=
  let s := { s with lastTableRefresh := m.now }
  if s.bootstrap.isEmpty then s else (s.get m (.findNode s.id) none).1

def periodicNodeMaintenance : Rpc :=
  let refreshIsDue := refreshTableInterval ≤ m.now - s.lastTableRefresh
  let pingIsDue := pingTableInterval ≤ m.now - s.lastTablePing
  let shouldPopulate := s.routingTable.isEmpty || refreshIsDue
  let s := if refreshIsDue then s.trySwitchingToServerMode else s
  let s := if pingIsDue then s.pingAndPurge m else s
  if shouldPopulate then s.populate m else s

def updateAddressVotes (query : IterativeQuery) : Rpc :=
  match query.bestAddress with
  | none => s
  | some newAddress =>
    let s :=
      if s.publicAddress ≠ some newAddress then { s with firewalled := true }.ping m newAddress
      else s
    { s with publicAddress := some newAddress }

-- the estimates that are summed up as floating point numbers are left out
def decrementCachedIterativeQueryStats (query : Option CachedIterativeQuery) : Rpc :=
  match query with
  | some query =>
    { s with
      subnetsSum := s.subnetsSum - query.subnets
      respondersBasedDhtSizeEstimatesCount :=
        if query.isFindNode then s.respondersBasedDhtSizeEstimatesCount
        else s.respondersBasedDhtSizeEstimatesCount - 1 }
  | none => s

/-- The oldest cached query goes when the cache is full. -/
def makePlace : Rpc :=
  if maxCachedIterativeQueries ≤ s.cachedIterativeQueries.entries.length then
    { s with cachedIterativeQueries := s.cachedIterativeQueries.popLru
      }.decrementCachedIterativeQueryStats
        (s.cachedIterativeQueries.entries.getLast?.map Prod.snd)
  else s

def cacheIterativeQuery (query : IterativeQuery) (closestRespondingNodes : List Node) : Rpc :=
  let s := s.makePlace
  if query.closest.nodes.isEmpty then s
  else
    let cached : CachedIterativeQuery :=
      ⟨closestRespondingNodes, query.closest.subnetsCount, query.isFindNode⟩
    let previous := s.cachedIterativeQueries.peek query.target
    let s := { s with
      cachedIterativeQueries := s.cachedIterativeQueries.put query.target cached
      }.decrementCachedIterativeQueryStats previous
    { s with
      everCached := cached :: s.everCached
      subnetsSum := s.subnetsSum + cached.subnets
      respondersBasedDhtSizeEstimatesCount := s.respondersBasedDhtSizeEstimatesCount + 1 }

end Maintenance

section Tick

def tickPutQueries : List (Id × Option PutError) :=
  s.putQueries.entries.filterMap fun e =>
    match e.2.tick s.socket m.now with
    | .ok done => if done then some (e.1, none) else none
    | .error err => some (e.1, some err)

/-- The nodes that a query which is done has found. -/
def closestOf (expectedDk averageSubnets : ℕ) (query : IterativeQuery) : List Node :=
  if query.isFindNode then query.closest.nodes.take maxBucketSizeK
  else ClosestNodes.takeUntilSecure expectedDk averageSubnets query.responders

def tickGetQuery (expectedDk averageSubnets : ℕ) (state : Rpc × List (Id × List Node)) (id : Id) :
    Rpc × List (Id × List Node) :=
  let (s, done) := state
  match s.iterativeQueries.lookup id with
  | none => (s, done)
  | some query =>
    let (query, socket, isDone) := query.tick s.socket m.now m.randomId
    let s := { s with socket := socket, iterativeQueries := s.iterativeQueries.insert id query }
    (s, if isDone then done ++ [(id, closestOf expectedDk averageSubnets query)] else done)

def tickGetQueries : Rpc × List (Id × List Node) :=
  s.iterativeQueries.keys.foldl (tickGetQuery m (m.expectedDk s) s.averageSubnets) (s, [])

/-- The loop over the queries that are done; nothing where the source stops the program. -/
def cleanupGetQueries (s : Rpc) (donePut : List (Id × Option PutError)) :
    List (Id × List Node) → Option (Rpc × List (Id × Option PutError))
  | [] => some (s, donePut)
  | (id, closestNodes) :: doneGet =>
    match s.iterativeQueries.lookup id with
    | none => cleanupGetQueries s donePut doneGet
    | some query =>
      let s := { s with iterativeQueries := s.iterativeQueries.erase id }
      let s := (s.updateAddressVotes m query).cacheIterativeQuery query closestNodes
      if query.isFindNode then cleanupGetQueries s donePut doneGet
      else
        match s.putQueries.lookup id with
        | none => cleanupGetQueries s donePut doneGet
        | some putQuery =>
          if putQuery.started then cleanupGetQueries s donePut doneGet
          else
            match putQuery.start s.socket m.now m.randomId closestNodes with
            | none => none
            | some (.error err) => cleanupGetQueries s (donePut ++ [(id, some err)]) doneGet
            | some (.ok (putQuery, socket)) =>
              cleanupGetQueries
                { s with socket := socket, putQueries := s.putQueries.insert id putQuery }
                donePut doneGet

def cleanupDoneQueries (doneGet : List (Id × List Node)) (donePut : List (Id × Option PutError)) :
    Option (Rpc × List (Id × Option PutError)) :=
  match cleanupGetQueries m s donePut doneGet with
  | none => none
  | some (s, donePut) =>
    let putQueries := donePut.foldl (fun queries e => queries.erase e.1) s.putQueries
    some ({ s with putQueries := putQueries }, donePut)

def tick (datagram : Option KrpcSocket.Datagram) : Option (Rpc × RpcTickReport) :=
  let donePut := s.tickPutQueries m
  let (s, doneGet) := s.tickGetQueries m
  match s.cleanupDoneQueries m doneGet donePut with
  | none => none
  | some (s, donePut) =>
    let s := s.periodicNodeMaintenance m
    let (s, newQueryResponse) := s.handleMessage crypto m datagram
    some (s, ⟨doneGet, donePut, newQueryResponse⟩)

end Tick

end Rpc

end Nerea.Mainline
