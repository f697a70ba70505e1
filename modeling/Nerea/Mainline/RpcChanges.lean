import Nerea.Mainline.Rpc
import Mathlib.Logic.Relation

/-!
# What a step of the node may change

Whatever a tick or a call of the user does comes down to small changes of one part each, and
every change says under which condition it happens. What each of them keeps, every run keeps.
-/

set_option autoImplicit false

namespace Nerea.Mainline

namespace IterativeQuery

/-- A query for the request that has no answers yet. -/
structure Begun (q : IterativeQuery) (request : GetRequestSpecific) : Prop where
  requestType : q.request.requestType = request.requestType
  target : q.target = request.target
  responses : q.responses = []

/-- The same query, with more addresses asked. -/
structure Same (q q' : IterativeQuery) : Prop where
  request : q'.request = q.request
  target : q'.target = q.target
  responses : q'.responses = q.responses

variable {q : IterativeQuery} {now : ℕ} {randomId : BitVec 32 → Id}

theorem same_visitAll (addresses : List SocketAddrV4) (q : IterativeQuery) (socket : KrpcSocket) :
    q.Same (visitAll now randomId addresses (q, socket)).1 := by
  obtain ⟨-, -, hresponders, hrequest, hresponses, -⟩ :=
    visitAll_spec now randomId addresses q socket
  exact ⟨hrequest, congrArg ClosestNodes.target hresponders, hresponses⟩

theorem same_addCandidates (nodes : List Node) (q : IterativeQuery) :
    q.Same (q.addCandidates nodes) := by
  induction nodes generalizing q with
  | nil => exact ⟨rfl, rfl, rfl⟩
  | cons node nodes ih =>
    have h := ih (q.addCandidate node)
    exact ⟨h.request, h.target, h.responses⟩

theorem Same.trans {q q' q'' : IterativeQuery} (h : q.Same q') (h' : q'.Same q'') :
    q.Same q'' :=
  ⟨h'.request.trans h.request, h'.target.trans h.target, h'.responses.trans h.responses⟩

theorem Same.isFindNode {q q' : IterativeQuery} (h : q.Same q') : q'.isFindNode = q.isFindNode := by
  rw [IterativeQuery.isFindNode, IterativeQuery.isFindNode, h.request]

/-- An answer changes neither the query nor what it has found. -/
theorem same_hear (q : IterativeQuery) (now : ℕ) (source : SocketAddrV4) (message : Message) :
    q.Same (q.hear now source message) := by
  have hcandidates := same_addCandidates (message.getCloserNodes.getD []) q
  unfold hear
  simp only
  cases message.getToken with
  | none =>
    cases message.requesterIp with
    | none => exact hcandidates
    | some proposedIp => exact ⟨hcandidates.request, hcandidates.target, hcandidates.responses⟩
  | some answer =>
    obtain ⟨responderId, token⟩ := answer
    have htoken : (q.addCandidates (message.getCloserNodes.getD [])).Same
        ((q.addCandidates (message.getCloserNodes.getD [])).addRespondingNode
          (.newWithToken responderId source token now)) :=
      ⟨rfl, ClosestNodes.target_add _ _, rfl⟩
    cases message.requesterIp with
    | none => exact hcandidates.trans htoken
    | some proposedIp =>
      have hboth := hcandidates.trans htoken
      exact ⟨hboth.request, hboth.target, hboth.responses⟩

end IterativeQuery

namespace KrpcSocket

/-- Every request that is waited for has been sent. -/
def Logged (s : KrpcSocket) : Prop :=
  ∀ tid r, s.inflightRequests.requests tid = some r →
    ∃ message request, (r.sentTo, message) ∈ s.sent ∧ message.transactionId = tid ∧
      message.messageType = .request request

/-- The socket after some messages. -/
structure Grows (s s' : KrpcSocket) : Prop where
  serverMode : s'.serverMode = s.serverMode
  sent : s.sent ⊆ s'.sent
  logged : s.Logged → s'.Logged

variable {s s' s'' : KrpcSocket} {now : ℕ}

theorem grows_refl (s : KrpcSocket) : s.Grows s := ⟨rfl, List.Subset.refl _, id⟩

theorem Grows.trans (h : s.Grows s') (h' : s'.Grows s'') : s.Grows s'' :=
  ⟨h'.serverMode.trans h.serverMode, List.Subset.trans h.sent h'.sent,
    fun hlogged => h'.logged (h.logged hlogged)⟩

theorem grows_request (s : KrpcSocket) (now : ℕ) (address : SocketAddrV4) (r : RequestSpecific) :
    s.Grows (s.request now address r).1 where
  serverMode := rfl
  sent := List.subset_cons_self _ _
  logged := by
    intro hlogged tid found hfound
    by_cases htid : tid = s.nextTid
    · subst htid
      have hself : (s.inflightRequests.add s.nextTid now address).requests s.nextTid
          = some ⟨address, now⟩ := InflightRequests.requests_set_self _ _ _
      obtain rfl := Option.some.inj (hself.symm.trans hfound)
      exact ⟨s.requestMessage r, r, List.mem_cons_self, rfl, rfl⟩
    · have hother : (s.inflightRequests.add s.nextTid now address).requests tid
          = s.inflightRequests.requests tid := InflightRequests.requests_set_ne htid
      obtain ⟨message, request, hsent, hnumber, hrequest⟩ :=
        hlogged tid found (hother.symm.trans hfound)
      exact ⟨message, request, List.mem_cons_of_mem _ hsent, hnumber, hrequest⟩

/-- A message that answers nothing leaves alone what is waited for. -/
theorem grows_cons (s : KrpcSocket) (sent : SocketAddrV4 × Message) :
    s.Grows { s with sent := sent :: s.sent } where
  serverMode := rfl
  sent := List.subset_cons_self _ _
  logged := by
    intro hlogged tid found hfound
    obtain ⟨message, request, hsent, hrest⟩ := hlogged tid found hfound
    exact ⟨message, request, List.mem_cons_of_mem _ hsent, hrest⟩

/-- What is not waited for any more is no matter. -/
theorem grows_of_fewer (hmode : s'.serverMode = s.serverMode) (hsent : s'.sent = s.sent)
    (hfewer : ∀ tid r, s'.inflightRequests.requests tid = some r →
      s.inflightRequests.requests tid = some r) : s.Grows s' where
  serverMode := hmode
  sent := hsent ▸ List.Subset.refl _
  logged := by
    intro hlogged tid r hr
    rw [hsent]
    exact hlogged tid r (hfewer tid r hr)

theorem grows_recvFrom (s : KrpcSocket) (now : ℕ) (datagram : Option Datagram) :
    s.Grows (s.recvFrom now datagram).1 := by
  have hsweep : s.Grows (s.sweep now) := by
    unfold sweep
    split
    · exact grows_of_fewer rfl rfl
        (fun tid r hr => (InflightRequests.requests_cleanup.mp hr).1)
    · exact grows_refl s
  refine hsweep.trans ?_
  rcases receive_cases (s.sweep now) now datagram with heq | ⟨source, message, r, -, heq⟩ |
    ⟨source, message, -, heq⟩
  · rw [recvFrom, heq]
    exact grows_refl _
  · rw [recvFrom, heq]
    exact grows_refl _
  · rw [recvFrom, heq]
    exact grows_of_fewer rfl rfl (fun tid r hr => InflightRequests.requests_of_remove hr)

/-- What is given out has come in. -/
theorem datagram_of_recvFrom {datagram : Option Datagram} {message : Message}
    {source : SocketAddrV4} (h : (s.recvFrom now datagram).2 = some (message, source)) :
    datagram = some (source, some message) := by
  unfold recvFrom receive at h
  split at h
  · split at h
    · cases h
    · split at h
      · obtain ⟨rfl, rfl⟩ := Prod.mk.inj (Option.some.inj h)
        rfl
      · simp only at h
        split at h
        · obtain ⟨rfl, rfl⟩ := Prod.mk.inj (Option.some.inj h)
          rfl
        · cases h
      · simp only at h
        split at h
        · obtain ⟨rfl, rfl⟩ := Prod.mk.inj (Option.some.inj h)
          rfl
        · cases h
  · cases h

/-- An answer that is given out is one to a request that was sent. -/
theorem sent_of_recvFrom {datagram : Option Datagram} {message : Message} {source : SocketAddrV4}
    (hlogged : s.Logged) (hanswer : ∀ r, message.messageType ≠ .request r)
    (h : (s.recvFrom now datagram).2 = some (message, source)) :
    ∃ r asked request, (r.sentTo, asked) ∈ s.sent ∧ asked.transactionId = message.transactionId ∧
      asked.messageType = .request request ∧ InflightRequest.doesMatch r source = true := by
  have hkept : ∀ tid r, (s.sweep now).inflightRequests.requests tid = some r →
      s.inflightRequests.requests tid = some r := by
    intro tid r hr
    unfold sweep at hr
    split at hr
    · exact (InflightRequests.requests_cleanup.mp hr).1
    · exact hr
  unfold recvFrom at h
  rcases receive_cases (s.sweep now) now datagram with heq | ⟨source', message', r, hrequest, heq⟩ |
    ⟨source', message', -, heq⟩
  · rw [heq] at h
    cases h
  · rw [heq] at h
    obtain ⟨rfl, rfl⟩ := Prod.mk.inj (Option.some.inj h)
    exact absurd hrequest (hanswer r)
  · rw [heq] at h
    simp only at h
    split at h
    · rename_i hsome
      obtain ⟨rfl, rfl⟩ := Prod.mk.inj (Option.some.inj h)
      obtain ⟨r, hr⟩ := Option.isSome_iff_exists.mp hsome
      obtain ⟨hfound, -, hmatch⟩ := InflightRequests.remove_eq_some.mp hr
      obtain ⟨asked, request, hsent, hnumber, hrequest⟩ := hlogged _ r (hkept _ r hfound)
      exact ⟨r, asked, request, hsent, hnumber, hrequest, hmatch⟩
    · cases h

end KrpcSocket

namespace IterativeQuery

variable {now : ℕ} {randomId : BitVec 32 → Id}

theorem grows_visitAll (addresses : List SocketAddrV4) (q : IterativeQuery)
    (socket : KrpcSocket) :
    socket.Grows (visitAll now randomId addresses (q, socket)).2 := by
  induction addresses generalizing q socket with
  | nil => exact KrpcSocket.grows_refl socket
  | cons address addresses ih =>
    refine KrpcSocket.Grows.trans ?_ (ih (q.visit socket now randomId address).1 _)
    exact (KrpcSocket.grows_request socket now address q.request).trans
      (KrpcSocket.grows_request _ now address _)

end IterativeQuery

namespace PutQuery

variable {now : ℕ} {randomId : BitVec 32 → Id} {q q' : PutQuery} {socket socket' : KrpcSocket}

theorem grows_sendAll (request : PutRequestSpecific) (nodes : List Node)
    (socket : KrpcSocket) (tids : List (BitVec 32)) :
    socket.Grows (sendAll now randomId request nodes socket tids).1 := by
  induction nodes generalizing socket tids with
  | nil => exact KrpcSocket.grows_refl socket
  | cons node nodes ih =>
    rw [sendAll]
    split
    · exact (KrpcSocket.grows_request socket now node.address _).trans (ih _ _)
    · exact ih _ _

/-- A query that is started is the same but for what it waits for. -/
theorem start_eq_ok {closestNodes : List Node}
    (h : q.start socket now randomId closestNodes = some (.ok (q', socket'))) :
    socket' = (sendAll now randomId q.request (closestNodes ++ q.extraNodes) socket
        q.inflightRequests).1 ∧
      q' = { q with inflightRequests := (sendAll now randomId q.request
        (closestNodes ++ q.extraNodes) socket q.inflightRequests).2 } := by
  unfold start at h
  split at h
  · cases h
  · split at h
    · cases h
    · split at h
      · cases h
      · simp only at h
        obtain ⟨rfl, rfl⟩ := Prod.mk.inj (Except.ok.inj (Option.some.inj h))
        exact ⟨rfl, rfl⟩

theorem start_ne_error {closestNodes : List Node} {err : PutError}
    (h : q.start socket now randomId closestNodes = some (.error err)) : closestNodes = [] := by
  unfold start at h
  split at h
  · cases h
  · split at h
    · rename_i hempty
      exact List.isEmpty_iff.mp hempty
    · split at h
      · cases h
      · cases h

end PutQuery

namespace Rpc

/-- What the user asks for. -/
inductive Call where
  | get (request : GetRequestSpecific)
  | put (request : PutRequestSpecific)

def Call.target : Call → Id
  | .get request => request.target
  | .put request => request.target

/-- The queries that are over with a step. -/
structure Over where
  puts : Id → Prop
  gets : Id → Prop

/-- One change, with the node that the step began with, what the user asks for if it is a call,
the message that has come in if there is one, and the queries that are over. -/
inductive Change (crypto : Crypto) (m : Moment) (origin : Rpc) (call : Option Call)
    (heard : Option (Message × SocketAddrV4)) (ending : Over) : Rpc → Rpc → Prop
  | sent (s : Rpc) (socket : KrpcSocket) (h : s.socket.Grows socket) :
    Change crypto m origin call heard ending s { s with socket := socket }
  | touched (s : Rpc) (target : Id) :
    Change crypto m origin call heard ending s
      { s with cachedIterativeQueries := s.cachedIterativeQueries.touch target }
  | clocked (s : Rpc) (refresh ping : ℕ) :
    Change crypto m origin call heard ending s
      { s with lastTableRefresh := refresh, lastTablePing := ping }
  | queried (s : Rpc) (request : GetRequestSpecific) (query : IterativeQuery)
    (hnone : s.iterativeQueries.lookup request.target = none) (hbegun : query.Begun request)
    (hwhy : (∃ target, request = .findNode target) ∨
      ∃ c, call = some c ∧ c.target = request.target) :
    Change crypto m origin call heard ending s
      { s with iterativeQueries := s.iterativeQueries.insert request.target query }
  | ticked (s : Rpc) (id : Id) (query query' : IterativeQuery)
    (hfound : s.iterativeQueries.lookup id = some query) (hsame : query.Same query') :
    Change crypto m origin call heard ending s
      { s with iterativeQueries := s.iterativeQueries.insert id query' }
  | answered (s : Rpc) (id : Id) (query : IterativeQuery) (message : Message)
    (source : SocketAddrV4) (response : Response) (hheard : heard = some (message, source))
    (hfound : s.iterativeQueries.lookup id = some query)
    (hvalue : (query.hear m.now source message).value crypto message = some response) :
    Change crypto m origin call heard ending s
      { s with
        iterativeQueries := s.iterativeQueries.insert id
          ((query.hear m.now source message).response response) }
  | learned (s : Rpc) (id : Id) (query : IterativeQuery) (message : Message)
    (source : SocketAddrV4) (hheard : heard = some (message, source))
    (hanswer : ∀ r, message.messageType ≠ .request r) (hreadOnly : message.readOnly = false)
    (hfound : s.iterativeQueries.lookup id = some query)
    (hvalue : (query.hear m.now source message).value crypto message = none) :
    Change crypto m origin call heard ending s
      { s with
        iterativeQueries := s.iterativeQueries.insert id (query.hear m.now source message)
        routingTable :=
          match message.getAuthorId with
          | some author => (s.routingTable.add m.now (.new author source m.now)).1
          | none => s.routingTable }
  | acked (s : Rpc) (id : Id) (query query' : PutQuery)
    (hfound : s.putQueries.lookup id = some query) (hrequest : query'.request = query.request)
    (hinflight : query'.inflightRequests = query.inflightRequests) :
    Change crypto m origin call heard ending s
      { s with putQueries := s.putQueries.insert id query' }
  | started (s : Rpc) (id : Id) (query query' : PutQuery)
    (hfound : s.putQueries.lookup id = some query) (hrequest : query'.request = query.request)
    (hget : ∃ q, origin.iterativeQueries.lookup id = some q ∧ q.isFindNode = false) :
    Change crypto m origin call heard ending s
      { s with putQueries := s.putQueries.insert id query' }
  | ended (s : Rpc) (id : Id) (hover : ending.puts id) :
    Change crypto m origin call heard ending s { s with putQueries := s.putQueries.erase id }
  | placed (s : Rpc) (request : PutRequestSpecific) (query : PutQuery)
    (hcall : call = some (.put request)) (hrequest : query.request = request) :
    Change crypto m origin call heard ending s
      { s with putQueries := s.putQueries.insert request.target query }
  | finished (s : Rpc) (id : Id) (hover : ending.gets id) :
    Change crypto m origin call heard ending s
      { s with iterativeQueries := s.iterativeQueries.erase id }
  | voted (s : Rpc) (address : SocketAddrV4) :
    Change crypto m origin call heard ending s
      { s with
        publicAddress := some address
        firewalled := if s.publicAddress ≠ some address then true else s.firewalled }
  | cached (s : Rpc) (query : IterativeQuery) (nodes : List Node) :
    Change crypto m origin call heard ending s (s.cacheIterativeQuery query nodes)
  | purged (s : Rpc) (ids : List Id) :
    Change crypto m origin call heard ending s
      { s with routingTable := s.routingTable.purgeNodes ids }
  | joined (s : Rpc) (message : Message) (source : SocketAddrV4) (request : RequestSpecific)
    (target : Id) (hheard : heard = some (message, source))
    (hrequest : message.messageType = .request request)
    (hfind : request.requestType = .findNode target) (hfirst : s.bootstrap = []) :
    Change crypto m origin call heard ending s
      { s with routingTable := (s.routingTable.add m.now (.new target source m.now)).1 }
  | served (s : Rpc) (message : Message) (source : SocketAddrV4) (request : RequestSpecific)
    (hheard : heard = some (message, source)) (hrequest : message.messageType = .request request) :
    Change crypto m origin call heard ending s
      { s with
        server := (s.server.handleRequest crypto s.routingTable source m.draw request).1 }
  | reached (s : Rpc) (message : Message) (address : SocketAddrV4) (request : RequestSpecific)
    (hheard : heard = some (message, address)) (hrequest : message.messageType = .request request)
    (hping : request.requestType = .ping) (haddress : s.publicAddress = some address) :
    Change crypto m origin call heard ending s { s with firewalled := false }
  | restarted (s : Rpc) (newId : Id) :
    Change crypto m origin call heard ending s { s with routingTable := .new newId }
  | switched (s : Rpc) (h : s.firewalled = false) :
    Change crypto m origin call heard ending s
      { s with socket := { s.socket with serverMode := true } }

variable {crypto : Crypto} {m : Moment} {origin s s' : Rpc} {call : Option Call}
  {heard : Option (Message × SocketAddrV4)} {ending : Over}

/-- The changes of a step, one after the other. -/
abbrev Changes (crypto : Crypto) (m : Moment) (origin : Rpc) (call : Option Call)
    (heard : Option (Message × SocketAddrV4)) (ending : Over) : Rpc → Rpc → Prop :=
  Relation.ReflTransGen (Change crypto m origin call heard ending)

/-- What every change keeps, a step keeps. -/
theorem Changes.invariant {P : Rpc → Prop}
    (hchange : ∀ s s', Change crypto m origin call heard ending s s' → P s → P s')
    (h : Changes crypto m origin call heard ending s s') (hs : P s) : P s' := by
  induction h with
  | refl => exact hs
  | tail _ hlast ih => exact hchange _ _ hlast ih

theorem grows_seeded (s : Rpc) (m : Moment) (request : GetRequestSpecific)
    (extraNodes : Option (List SocketAddrV4)) :
    s.socket.Grows (s.seeded m request extraNodes).2 := by
  unfold seeded IterativeQuery.visitClosest
  simp only
  exact (IterativeQuery.grows_visitAll _ _ _).trans (IterativeQuery.grows_visitAll _ _ _)

theorem begun_seeded (s : Rpc) (m : Moment) (request : GetRequestSpecific)
    (extraNodes : Option (List SocketAddrV4)) :
    (s.seeded m request extraNodes).1.Begun request := by
  have hnew : (IterativeQuery.new s.id request.target request).Begun request := ⟨rfl, rfl, rfl⟩
  have hsame : (IterativeQuery.new s.id request.target request).Same
      (s.seeded m request extraNodes).1 := by
    unfold seeded IterativeQuery.visitClosest
    simp only
    refine IterativeQuery.Same.trans ?_ (IterativeQuery.same_visitAll _ _ _)
    cases s.cachedIterativeQueries.peek request.target with
    | none =>
      exact (IterativeQuery.same_visitAll _ _ _).trans (IterativeQuery.same_addCandidates _ _)
    | some cached =>
      exact ((IterativeQuery.same_visitAll _ _ _).trans
        (IterativeQuery.same_addCandidates _ _)).trans (IterativeQuery.same_addCandidates _ _)
  refine ⟨?_, ?_, ?_⟩
  · rw [hsame.request]
    exact hnew.requestType
  · rw [hsame.target]
    exact hnew.target
  · rw [hsame.responses]
    exact hnew.responses

theorem get_changes (s : Rpc) (request : GetRequestSpecific)
    (extraNodes : Option (List SocketAddrV4))
    (hwhy : (∃ target, request = .findNode target) ∨
      ∃ c, call = some c ∧ c.target = request.target) :
    Changes crypto m origin call heard ending s (s.get m request extraNodes).1 := by
  unfold get
  simp only
  split
  · exact Relation.ReflTransGen.refl
  · rename_i hnone
    refine Relation.ReflTransGen.head
      (.sent s (s.seeded m request extraNodes).2 (grows_seeded s m request extraNodes)) ?_
    refine Relation.ReflTransGen.head (.touched _ request.target) ?_
    exact Relation.ReflTransGen.single
      (.queried _ request (s.seeded m request extraNodes).1 hnone
        (begun_seeded s m request extraNodes) hwhy)

section Handle

theorem reached_changes {message : Message} {address : SocketAddrV4} {request : RequestSpecific}
    (s : Rpc) (hheard : heard = some (message, address))
    (hrequest : message.messageType = .request request) (hping : request.requestType = .ping)
    (haddress : s.publicAddress = some address) :
    Changes crypto m origin call heard ending s (s.reached m address) := by
  unfold reached
  simp only
  refine Relation.ReflTransGen.head (.reached s message address request hheard hrequest hping
    haddress) ?_
  split
  · exact (get_changes _ _ _ (Or.inl ⟨_, rfl⟩)).tail (.restarted _ _)
  · exact Relation.ReflTransGen.refl

section Request
variable {message : Message} {source : SocketAddrV4} {request : RequestSpecific}

theorem takeIn_changes (s : Rpc) (hheard : heard = some (message, source))
    (hrequest : message.messageType = .request request) :
    Changes crypto m origin call heard ending s (s.takeIn m source request) := by
  unfold takeIn
  split
  · rename_i target hempty hfind
    exact Relation.ReflTransGen.single (.joined s message source request target hheard hrequest
      hfind (List.isEmpty_iff.mp hempty))
  · exact Relation.ReflTransGen.refl

theorem serve_changes (s : Rpc) (hheard : heard = some (message, source))
    (hrequest : message.messageType = .request request) (transactionId : BitVec 32) :
    Changes crypto m origin call heard ending s
      (s.serve crypto m source transactionId request) := by
  unfold serve
  split
  · refine Relation.ReflTransGen.head
      (.served s message source request hheard hrequest) ?_
    apply Relation.ReflTransGen.single
    apply Change.sent
    split
    · exact KrpcSocket.grows_cons _ _
    · exact KrpcSocket.grows_cons _ _
    · exact KrpcSocket.grows_refl _
  · exact Relation.ReflTransGen.refl

theorem noticePing_changes (s : Rpc) (hheard : heard = some (message, source))
    (hrequest : message.messageType = .request request) :
    Changes crypto m origin call heard ending s (s.noticePing m source request) := by
  unfold noticePing
  split
  · rename_i ourAddress haddress
    split
    · rename_i hours
      obtain ⟨rfl, hping⟩ := hours
      exact reached_changes s hheard hrequest hping haddress
    · exact Relation.ReflTransGen.refl
  · exact Relation.ReflTransGen.refl

theorem handleRequest_changes (s : Rpc) (hheard : heard = some (message, source))
    (hrequest : message.messageType = .request request) (transactionId : BitVec 32) :
    Changes crypto m origin call heard ending s
      (s.handleRequest crypto m source transactionId request) :=
  ((takeIn_changes s hheard hrequest).trans (serve_changes _ hheard hrequest transactionId)).trans
    (noticePing_changes _ hheard hrequest)

end Request

theorem lookup_of_find {V : Type} {queries : AList (fun _ : Id => V)} {p : V → Bool}
    {e : Sigma fun _ : Id => V} (h : queries.entries.find? (fun e => p e.2) = some e) :
    queries.lookup e.1 = some e.2 :=
  AList.mem_lookup_iff.mpr (List.mem_of_find?_eq_some h)

theorem handleResponse_changes {message : Message} {source : SocketAddrV4} (s : Rpc)
    (hheard : heard = some (message, source))
    (hanswer : ∀ r, message.messageType ≠ .request r) :
    Changes crypto m origin call heard ending s (s.handleResponse crypto m source message).1 := by
  unfold handleResponse
  split
  · exact Relation.ReflTransGen.refl
  · rename_i hreadOnly
    split
    · rename_i id query hfind
      have hfound : s.putQueries.lookup id = some query :=
        lookup_of_find (p := fun q : PutQuery => q.inflight message.transactionId) hfind
      apply Relation.ReflTransGen.single
      refine .acked s id query _ hfound ?_ ?_
      · split <;> rfl
      · split <;> rfl
    · split
      · exact Relation.ReflTransGen.refl
      · rename_i id query hfind
        have hfound : s.iterativeQueries.lookup id = some query :=
          lookup_of_find (p := fun q : IterativeQuery => q.inflight message.transactionId) hfind
        simp only
        split
        · rename_i response hvalue
          exact Relation.ReflTransGen.single
            (.answered s id query message source response hheard hfound hvalue)
        · rename_i hvalue
          exact Relation.ReflTransGen.single (.learned s id query message source hheard hanswer
            (Bool.eq_false_iff.mpr hreadOnly) hfound hvalue)

/-- What the socket gives out, when it is asked. -/
def incoming (s : Rpc) (m : Moment) (datagram : Option KrpcSocket.Datagram) :
    Option (Message × SocketAddrV4) :=
  (s.socket.recvFrom m.now datagram).2

theorem handleMessage_changes (s : Rpc) (datagram : Option KrpcSocket.Datagram)
    (hheard : heard = s.incoming m datagram) :
    Changes crypto m origin call heard ending s (s.handleMessage crypto m datagram).1 := by
  unfold handleMessage
  refine Relation.ReflTransGen.head (.sent s (s.socket.recvFrom m.now datagram).1
    (KrpcSocket.grows_recvFrom _ _ _)) ?_
  unfold incoming at hheard
  simp only
  split
  · exact Relation.ReflTransGen.refl
  · rename_i message source hreceived
    rw [hreceived] at hheard
    split
    · rename_i request hrequest
      exact handleRequest_changes _ hheard hrequest _
    · rename_i hanswer
      exact handleResponse_changes _ hheard hanswer

end Handle

section Maintenance

theorem ping_changes (s : Rpc) (addresses : List SocketAddrV4) :
    Changes crypto m origin call heard ending s
      (addresses.foldl (fun s address => s.ping m address) s) := by
  induction addresses generalizing s with
  | nil => exact Relation.ReflTransGen.refl
  | cons address addresses ih =>
    exact Relation.ReflTransGen.head
      (.sent s (s.socket.request m.now address ⟨s.id, .ping⟩).1
        (KrpcSocket.grows_request _ _ _ _)) (ih (s.ping m address))

theorem periodicNodeMaintenance_changes (s : Rpc) :
    Changes crypto m origin call heard ending s (s.periodicNodeMaintenance m) := by
  have hswitch : ∀ s : Rpc,
      Changes crypto m origin call heard ending s s.trySwitchingToServerMode := by
    intro s
    unfold trySwitchingToServerMode
    split
    · rename_i hswitch
      rw [Bool.and_eq_true, Bool.not_eq_true', Bool.not_eq_true'] at hswitch
      exact Relation.ReflTransGen.single (.switched s hswitch.2)
    · exact Relation.ReflTransGen.refl
  have hpurge : ∀ s : Rpc, Changes crypto m origin call heard ending s (s.pingAndPurge m) := by
    intro s
    unfold pingAndPurge
    refine Relation.ReflTransGen.head (.clocked s s.lastTableRefresh m.now) ?_
    exact Relation.ReflTransGen.head (.purged _ _) (ping_changes _ _)
  have hpopulate : ∀ s : Rpc, Changes crypto m origin call heard ending s (s.populate m) := by
    intro s
    unfold populate
    refine Relation.ReflTransGen.head (.clocked s m.now s.lastTablePing) ?_
    simp only
    split
    · exact Relation.ReflTransGen.refl
    · exact get_changes _ _ _ (Or.inl ⟨_, rfl⟩)
  have hif : ∀ (p : Prop) [Decidable p] (f : Rpc → Rpc),
      (∀ s, Changes crypto m origin call heard ending s (f s)) →
      ∀ s, Changes crypto m origin call heard ending s (if p then f s else s) := by
    intro p _ f hf s
    split
    · exact hf s
    · exact Relation.ReflTransGen.refl
  unfold periodicNodeMaintenance
  exact ((hif _ trySwitchingToServerMode hswitch s).trans
    (hif _ (fun s => s.pingAndPurge m) hpurge _)).trans (hif _ (fun s => s.populate m) hpopulate _)

end Maintenance

section Tick

/-- The queries under way were there when the step began, and of the same kind. -/
def Kept (origin s : Rpc) : Prop :=
  ∀ id query, s.iterativeQueries.lookup id = some query →
    ∃ q, origin.iterativeQueries.lookup id = some q ∧ q.isFindNode = query.isFindNode

theorem tickGetQuery_changes {expectedDk averageSubnets : ℕ}
    {state : Rpc × List (Id × List Node)} (id : Id) :
    Changes crypto m origin call heard ending state.1
      (tickGetQuery m expectedDk averageSubnets state id).1 := by
  unfold tickGetQuery
  simp only
  split
  · exact Relation.ReflTransGen.refl
  · rename_i query hfound
    refine Relation.ReflTransGen.head (.sent state.1
      (query.tick state.1.socket m.now m.randomId).2.1
      (IterativeQuery.grows_visitAll _ _ _)) ?_
    exact Relation.ReflTransGen.single
      (.ticked _ id query _ hfound (IterativeQuery.same_visitAll _ _ _))

theorem Kept.tickGetQuery {expectedDk averageSubnets : ℕ} {state : Rpc × List (Id × List Node)}
    (h : Kept origin state.1) (id : Id) :
    Kept origin (tickGetQuery m expectedDk averageSubnets state id).1 := by
  unfold Rpc.tickGetQuery
  simp only
  split
  · exact h
  · rename_i query hfound
    intro id' query' hfound'
    by_cases hid : id' = id
    · subst hid
      simp only at hfound'
      rw [AList.lookup_insert] at hfound'
      obtain rfl := Option.some.inj hfound'
      obtain ⟨q, hq, hkind⟩ := h id' query hfound
      have hsame : query.Same (query.tick state.1.socket m.now m.randomId).1 :=
        IterativeQuery.same_visitAll _ _ _
      exact ⟨q, hq, hkind.trans hsame.isFindNode.symm⟩
    · simp only at hfound'
      rw [AList.lookup_insert_ne hid] at hfound'
      exact h id' query' hfound'

theorem tickGetQueries_changes (s : Rpc) :
    Changes crypto m origin call heard ending s (s.tickGetQueries m).1 := by
  suffices hfold : ∀ (ids : List Id) (expectedDk averageSubnets : ℕ)
      (state : Rpc × List (Id × List Node)),
      Changes crypto m origin call heard ending state.1
        (ids.foldl (tickGetQuery m expectedDk averageSubnets) state).1 from hfold _ _ _ (s, [])
  intro ids expectedDk averageSubnets
  induction ids with
  | nil => exact fun state => Relation.ReflTransGen.refl
  | cons id ids ih => exact fun state => (tickGetQuery_changes id).trans (ih _)

theorem kept_tickGetQueries (s : Rpc) (m : Moment) : Kept s (s.tickGetQueries m).1 := by
  suffices hfold : ∀ (ids : List Id) (expectedDk averageSubnets : ℕ)
      (state : Rpc × List (Id × List Node)),
      Kept s state.1 → Kept s (ids.foldl (tickGetQuery m expectedDk averageSubnets) state).1 from
    hfold _ _ _ (s, []) (fun id query hfound => ⟨query, hfound, rfl⟩)
  intro ids expectedDk averageSubnets
  induction ids with
  | nil => exact fun state hkept => hkept
  | cons id ids ih => exact fun state hkept => ih _ (hkept.tickGetQuery id)

theorem updateAddressVotes_changes (s : Rpc) (query : IterativeQuery) :
    Changes crypto m origin call heard ending s (s.updateAddressVotes m query) := by
  unfold updateAddressVotes
  split
  · exact Relation.ReflTransGen.refl
  · rename_i newAddress _
    have hvoted : Changes crypto m origin call heard ending s { s with
        publicAddress := some newAddress
        firewalled := if s.publicAddress ≠ some newAddress then true else s.firewalled } :=
      Relation.ReflTransGen.single (.voted s newAddress)
    simp only
    by_cases hsame : s.publicAddress ≠ some newAddress
    · rw [if_pos hsame] at hvoted ⊢
      exact hvoted.tail (.sent _ _ (KrpcSocket.grows_request _ _ _ _))
    · rw [if_neg hsame] at hvoted ⊢
      exact hvoted

/-- Why the put for the id may be over. -/
def Ended (origin : Rpc) (id : Id) : Prop :=
  (∃ q, origin.putQueries.lookup id = some q ∧ q.started = true) ∨
    ∃ q, origin.iterativeQueries.lookup id = some q ∧ q.isFindNode = false

/-- To cache a query changes the cache and its statistics only. -/
theorem cacheIterativeQuery_frame (s : Rpc) (query : IterativeQuery) (nodes : List Node) :
    ∃ cache ever sum count, s.cacheIterativeQuery query nodes = { s with
      cachedIterativeQueries := cache
      everCached := ever
      subnetsSum := sum
      respondersBasedDhtSizeEstimatesCount := count } := by
  have hdecrement : ∀ (s : Rpc) (cached : Option CachedIterativeQuery),
      ∃ sum count, s.decrementCachedIterativeQueryStats cached = { s with
        subnetsSum := sum, respondersBasedDhtSizeEstimatesCount := count } := by
    intro s cached
    cases cached with
    | none => exact ⟨_, _, rfl⟩
    | some cached => exact ⟨_, _, rfl⟩
  have hfull : ∃ cache sum count, s.makePlace = { s with
      cachedIterativeQueries := cache
      subnetsSum := sum
      respondersBasedDhtSizeEstimatesCount := count } := by
    unfold makePlace
    split
    · obtain ⟨sum, count, h⟩ := hdecrement
        { s with cachedIterativeQueries := s.cachedIterativeQueries.popLru }
        (s.cachedIterativeQueries.entries.getLast?.map Prod.snd)
      exact ⟨_, sum, count, h⟩
    · exact ⟨_, _, _, rfl⟩
  obtain ⟨cache, sum, count, hfull⟩ := hfull
  unfold cacheIterativeQuery
  simp only
  rw [hfull]
  split
  · exact ⟨_, _, _, _, rfl⟩
  · obtain ⟨sum', count', h⟩ := hdecrement
      { s with
        cachedIterativeQueries := cache.put query.target
          ⟨nodes, query.closest.subnetsCount, query.isFindNode⟩
        subnetsSum := sum
        respondersBasedDhtSizeEstimatesCount := count }
      (cache.peek query.target)
    rw [h]
    exact ⟨_, _, _, _, rfl⟩

theorem updateAddressVotes_frame (s : Rpc) (m : Moment) (query : IterativeQuery) :
    ∃ socket address firewalled, s.updateAddressVotes m query = { s with
      socket := socket, publicAddress := address, firewalled := firewalled } := by
  unfold updateAddressVotes
  split
  · exact ⟨_, _, _, rfl⟩
  · simp only
    split
    · exact ⟨_, _, _, rfl⟩
    · exact ⟨_, _, _, rfl⟩

theorem cleanupGetQueries_changes {donePut donePut' : List (Id × Option PutError)}
    {doneGet : List (Id × List Node)} (hgets : ∀ e ∈ doneGet, ending.gets e.1)
    (hkept : Kept origin s) (hput : ∀ e ∈ donePut, Ended origin e.1)
    (h : cleanupGetQueries m s donePut doneGet = some (s', donePut')) :
    Changes crypto m origin call heard ending s s' ∧ ∀ e ∈ donePut', Ended origin e.1 := by
  induction doneGet generalizing s donePut with
  | nil =>
    obtain ⟨rfl, rfl⟩ := Prod.mk.inj (Option.some.inj h)
    exact ⟨Relation.ReflTransGen.refl, hput⟩
  | cons next doneGet ih =>
    obtain ⟨id, closestNodes⟩ := next
    have hid : ending.gets id := hgets (id, closestNodes) List.mem_cons_self
    have hrest : ∀ e ∈ doneGet, ending.gets e.1 :=
      fun e he => hgets e (List.mem_cons_of_mem _ he)
    rw [cleanupGetQueries] at h
    split at h
    · exact ih hrest hkept hput h
    · rename_i query hfound
      simp only at h
      have hover : Changes crypto m origin call heard ending s
          (({ s with iterativeQueries := s.iterativeQueries.erase id }.updateAddressVotes m
            query).cacheIterativeQuery query closestNodes) :=
        Relation.ReflTransGen.head (.finished s id hid)
          ((updateAddressVotes_changes _ query).tail (.cached _ query closestNodes))
      have hqueries : (({ s with iterativeQueries := s.iterativeQueries.erase id
          }.updateAddressVotes m query).cacheIterativeQuery query closestNodes).iterativeQueries
            = s.iterativeQueries.erase id := by
        obtain ⟨_, _, _, hvotes⟩ := updateAddressVotes_frame
          { s with iterativeQueries := s.iterativeQueries.erase id } m query
        obtain ⟨_, _, _, _, hcached⟩ := cacheIterativeQuery_frame
          ({ s with iterativeQueries := s.iterativeQueries.erase id }.updateAddressVotes m query)
          query closestNodes
        rw [hcached, hvotes]
      have hkept' : Kept origin
          (({ s with iterativeQueries := s.iterativeQueries.erase id }.updateAddressVotes m
            query).cacheIterativeQuery query closestNodes) := by
        intro id' query' hfound'
        rw [hqueries] at hfound'
        by_cases hid : id' = id
        · rw [hid, AList.lookup_erase] at hfound'
          cases hfound'
        · rw [AList.lookup_erase_ne hid] at hfound'
          exact hkept id' query' hfound'
      revert h hover hkept'
      generalize (({ s with iterativeQueries := s.iterativeQueries.erase id }.updateAddressVotes m
        query).cacheIterativeQuery query closestNodes) = t
      intro h hover hkept'
      split at h
      · obtain ⟨hlater, hdone⟩ := ih hrest hkept' hput h
        exact ⟨hover.trans hlater, hdone⟩
      · rename_i hkind
        have hget : ∃ q, origin.iterativeQueries.lookup id = some q ∧ q.isFindNode = false := by
          obtain ⟨q, hq, hsame⟩ := hkept id query hfound
          exact ⟨q, hq, hsame.trans (Bool.eq_false_iff.mpr hkind)⟩
        split at h
        · obtain ⟨hlater, hdone⟩ := ih hrest hkept' hput h
          exact ⟨hover.trans hlater, hdone⟩
        · rename_i putQuery hplaced
          split at h
          · obtain ⟨hlater, hdone⟩ := ih hrest hkept' hput h
            exact ⟨hover.trans hlater, hdone⟩
          · split at h
            · cases h
            · rename_i err _
              have hput' : ∀ e ∈ donePut ++ [(id, some err)], Ended origin e.1 := by
                intro e he
                rcases List.mem_append.mp he with he | he
                · exact hput e he
                · rw [List.mem_singleton.mp he]
                  exact Or.inr hget
              obtain ⟨hlater, hdone⟩ := ih hrest hkept' hput' h
              exact ⟨hover.trans hlater, hdone⟩
            · rename_i putQuery' socket hstart
              obtain ⟨hsocket, hquery⟩ := PutQuery.start_eq_ok hstart
              have hgrows : t.socket.Grows socket := by
                rw [hsocket]
                exact PutQuery.grows_sendAll _ _ _ _
              have hrequest : putQuery'.request = putQuery.request := by rw [hquery]
              obtain ⟨hlater, hdone⟩ := ih (s := { t with
                socket := socket
                putQueries := t.putQueries.insert id putQuery' }) hrest hkept' hput h
              refine ⟨?_, hdone⟩
              refine hover.trans (Relation.ReflTransGen.head (.sent t socket hgrows) ?_)
              exact Relation.ReflTransGen.head
                (.started _ id putQuery putQuery' hplaced hrequest hget) hlater

theorem ended_tickPutQueries (s : Rpc) (m : Moment) :
    ∀ e ∈ s.tickPutQueries m, Ended s e.1 := by
  intro e he
  obtain ⟨entry, hentry, htick⟩ := List.mem_filterMap.mp he
  have hfound : s.putQueries.lookup entry.1 = some entry.2 := AList.mem_lookup_iff.mpr hentry
  have hid : e.1 = entry.1 := by
    split at htick
    · split at htick
      · rw [← Option.some.inj htick]
      · cases htick
    · rw [← Option.some.inj htick]
  rw [hid]
  refine Or.inl ⟨entry.2, hfound, ?_⟩
  cases hstarted : entry.2.started with
  | true => rfl
  | false =>
    have hempty : entry.2.inflightRequests.isEmpty = true := by
      rw [PutQuery.started, Bool.not_eq_false'] at hstarted
      exact hstarted
    have hidle : entry.2.tick s.socket m.now = .ok false := by
      rw [PutQuery.tick, if_pos hempty]
    rw [hidle] at htick
    cases htick

theorem lookup_foldl_erase (done : List (Id × Option PutError))
    (queries : AList (fun _ : Id => PutQuery)) {id : Id}
    (h : queries.lookup id = none ∨ ∃ e ∈ done, e.1 = id) :
    (done.foldl (fun queries e => queries.erase e.1) queries).lookup id = none := by
  induction done generalizing queries with
  | nil =>
    rcases h with hnone | ⟨e, he, -⟩
    · exact hnone
    · exact absurd he List.not_mem_nil
  | cons e done ih =>
    apply ih
    by_cases hid : id = e.1
    · rw [hid]
      exact Or.inl (AList.lookup_erase _ _)
    · rw [AList.lookup_erase_ne hid]
      rcases h with hnone | ⟨e', he', heq⟩
      · exact Or.inl hnone
      · rcases List.mem_cons.mp he' with rfl | he'
        · exact absurd heq.symm hid
        · exact Or.inr ⟨e', he', heq⟩

theorem cleanupDoneQueries_changes {donePut donePut' : List (Id × Option PutError)}
    {doneGet : List (Id × List Node)} (hgets : ∀ e ∈ doneGet, ending.gets e.1)
    (hkept : Kept origin s) (hput : ∀ e ∈ donePut, Ended origin e.1)
    (h : s.cleanupDoneQueries m doneGet donePut = some (s', donePut'))
    (hputs : ∀ e ∈ donePut', ending.puts e.1) :
    Changes crypto m origin call heard ending s s' ∧
      ∀ e ∈ donePut', Ended origin e.1 ∧ s'.putQueries.lookup e.1 = none := by
  unfold cleanupDoneQueries at h
  split at h
  · cases h
  · rename_i t done hcleanup
    have hcleaned : Changes crypto m origin call heard ending s t ∧ ∀ e ∈ done, Ended origin e.1 :=
      cleanupGetQueries_changes hgets hkept hput hcleanup
    obtain ⟨hchanges, hended⟩ := hcleaned
    obtain ⟨rfl, rfl⟩ := Prod.mk.inj (Option.some.inj h)
    refine ⟨hchanges.trans ?_, ?_⟩
    · have hfold : ∀ (done : List (Id × Option PutError)) (t : Rpc),
          (∀ e ∈ done, ending.puts e.1) → Changes crypto m origin call heard ending t
            { t with
              putQueries := done.foldl (fun queries e => queries.erase e.1) t.putQueries } := by
        intro done
        induction done with
        | nil => exact fun t _ => Relation.ReflTransGen.refl
        | cons e done ih =>
          intro t hdone
          exact Relation.ReflTransGen.head (.ended t e.1 (hdone e List.mem_cons_self))
            (ih _ (fun e' he' => hdone e' (List.mem_cons_of_mem e he')))
      exact hfold done t hputs
    · intro e he
      exact ⟨hended e he, lookup_foldl_erase done t.putQueries (Or.inr ⟨e, he, rfl⟩)⟩

/-- No put comes in but from the user. -/
theorem Change.putQueries_none (h : Change crypto m origin none heard ending s s') {id : Id}
    (hnone : s.putQueries.lookup id = none) : s'.putQueries.lookup id = none := by
  have hinsert : ∀ (id' : Id) (query query' : PutQuery), s.putQueries.lookup id' = some query →
      (s.putQueries.insert id' query').lookup id = none := by
    intro id' query query' hfound
    have hne : id ≠ id' := by
      rintro rfl
      rw [hnone] at hfound
      cases hfound
    exact (AList.lookup_insert_ne hne).trans hnone
  cases h with
  | acked id' query query' hfound hrequest hinflight => exact hinsert id' query query' hfound
  | started id' query query' hfound hrequest hget => exact hinsert id' query query' hfound
  | ended id' hover =>
    by_cases hid : id = id'
    · rw [hid]
      exact AList.lookup_erase _ _
    · exact (AList.lookup_erase_ne hid).trans hnone
  | placed request query hcall hrequest => cases hcall
  | cached query nodes =>
    obtain ⟨_, _, _, _, hcached⟩ := cacheIterativeQuery_frame s query nodes
    rw [hcached]
    exact hnone
  | _ => exact hnone

end Tick

end Rpc

/-- The queries that a tick reports as done. -/
def RpcTickReport.ending (report : RpcTickReport) : Rpc.Over where
  puts id := ∃ e ∈ report.donePutQueries, e.1 = id
  gets id := ∃ e ∈ report.doneGetQueries, e.1 = id

namespace Rpc

variable {crypto : Crypto} {m : Moment} {origin s s' : Rpc} {call : Option Call}
  {heard : Option (Message × SocketAddrV4)} {ending : Over}

section Tick

/-- A tick is changes up to the look at the socket, and changes with what it gave out. The puts
that it reports are gone then. -/
theorem tick_changes {datagram : Option KrpcSocket.Datagram} {report : RpcTickReport}
    (h : s.tick crypto m datagram = some (s', report)) :
    ∃ t, (∀ heard, Changes crypto m s none heard report.ending s t) ∧
      Changes crypto m s none (t.incoming m datagram) report.ending t s' ∧
      t.handleMessage crypto m datagram = (s', report.newQueryResponse) ∧
      ∀ e ∈ report.donePutQueries, Ended s e.1 ∧ t.putQueries.lookup e.1 = none := by
  unfold tick at h
  simp only at h
  split at h
  · cases h
  · rename_i u donePut hcleanup
    obtain ⟨rfl, rfl⟩ := Prod.mk.inj (Option.some.inj h)
    refine ⟨u.periodicNodeMaintenance m, ?_, handleMessage_changes _ datagram rfl, rfl, ?_⟩
    · intro heard
      have hcleaned : Changes crypto m s none heard
          ⟨fun id => ∃ e ∈ donePut, e.1 = id, fun id => ∃ e ∈ (s.tickGetQueries m).2, e.1 = id⟩
          (s.tickGetQueries m).1 u ∧ ∀ e ∈ donePut, Ended s e.1 ∧ u.putQueries.lookup e.1 = none :=
        cleanupDoneQueries_changes (fun e he => ⟨e, he, rfl⟩) (kept_tickGetQueries s m)
          (ended_tickPutQueries s m) hcleanup (fun e he => ⟨e, he, rfl⟩)
      exact (tickGetQueries_changes s).trans
        (hcleaned.1.trans (periodicNodeMaintenance_changes u))
    · intro e he
      have hcleaned : Changes crypto m s none none ⟨fun _ => True, fun _ => True⟩
          (s.tickGetQueries m).1 u ∧
            ∀ e ∈ donePut, Ended s e.1 ∧ u.putQueries.lookup e.1 = none :=
        cleanupDoneQueries_changes (fun _ _ => trivial) (kept_tickGetQueries s m)
          (ended_tickPutQueries s m) hcleanup (fun _ _ => trivial)
      obtain ⟨hended, hnone⟩ := hcleaned.2 e he
      have hmaintained : Changes crypto m s none none ⟨fun _ => True, fun _ => True⟩ u
          (u.periodicNodeMaintenance m) := periodicNodeMaintenance_changes u
      exact ⟨hended, Changes.invariant (fun _ _ hchange hx => hchange.putQueries_none hx)
        hmaintained hnone⟩

end Tick

section Put

theorem startPut_changes {request : PutRequestSpecific} {extraNodes : Option (List Node)}
    {result : Except PutError Unit} (hcall : call = some (.put request))
    (h : s.startPut m request extraNodes = some (s', result)) :
    Changes crypto m origin call heard ending s s' := by
  unfold startPut at h
  simp only at h
  split at h
  · split at h
    · cases h
    · obtain ⟨rfl, -⟩ := Prod.mk.inj (Option.some.inj h)
      exact Relation.ReflTransGen.single (.touched s _)
    · rename_i query socket hstart
      obtain ⟨rfl, -⟩ := Prod.mk.inj (Option.some.inj h)
      obtain ⟨hsocket, hquery⟩ := PutQuery.start_eq_ok hstart
      have hgrows : s.socket.Grows socket := by
        rw [hsocket]
        exact PutQuery.grows_sendAll _ _ _ _
      have hrequest : query.request = request := by
        rw [hquery]
        rfl
      refine Relation.ReflTransGen.head (.touched s request.target) ?_
      refine Relation.ReflTransGen.head (.sent _ socket hgrows) ?_
      exact Relation.ReflTransGen.single (.placed _ request query hcall hrequest)
  · obtain ⟨rfl, -⟩ := Prod.mk.inj (Option.some.inj h)
    refine Relation.ReflTransGen.head (.touched s request.target) ?_
    exact (get_changes _ _ _ (Or.inr ⟨.put request, hcall, rfl⟩)).tail
      (.placed _ request _ hcall rfl)

theorem put_changes {request : PutRequestSpecific} {extraNodes : Option (List Node)}
    {result : Except PutError Unit} (hcall : call = some (.put request))
    (hover : ending.puts request.target) (h : s.put m request extraNodes = some (s', result)) :
    Changes crypto m origin call heard ending s s' := by
  unfold put at h
  split at h
  · obtain ⟨rfl, -⟩ := Prod.mk.inj (Option.some.inj h)
    exact Relation.ReflTransGen.refl
  · obtain ⟨rfl, -⟩ := Prod.mk.inj (Option.some.inj h)
    exact Relation.ReflTransGen.refl
  · exact Relation.ReflTransGen.head (.ended s request.target hover) (startPut_changes hcall h)
  · exact startPut_changes hcall h

end Put

end Rpc

end Nerea.Mainline
