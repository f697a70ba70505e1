import Nerea.Mainline.ClosestNodes
import Nerea.Mainline.Items
import Nerea.Mainline.Socket
import Mathlib.Data.List.AList

/-!
# Iterative queries

A query asks the closest nodes that it has heard of, and hears of closer ones in the answers.
It is done when the closest twenty have been asked and no request of it is waited for. On the
way it collects responses, nodes that gave a token, and votes on our own address.
-/

set_option autoImplicit false

namespace Nerea.Mainline

inductive Response where
  | peers (peers : List SocketAddrV4)
  | immutable (v : List UInt8)
  | mutable (item : MutableItem)
deriving DecidableEq

inductive GetRequestSpecific where
  | findNode (target : Id)
  | getPeers (infoHash : Id)
  | getValue (args : GetValueRequestArguments)
deriving DecidableEq

namespace GetRequestSpecific

def target : GetRequestSpecific → Id
  | .findNode target => target
  | .getPeers infoHash => infoHash
  | .getValue args => args.target

def requestType : GetRequestSpecific → RequestTypeSpecific
  | .findNode target => .findNode target
  | .getPeers infoHash => .getPeers infoHash
  | .getValue args => .getValue args

end GetRequestSpecific

structure IterativeQuery where
  request : RequestSpecific
  closest : ClosestNodes
  responders : ClosestNodes
  inflightRequests : List (BitVec 32)
  visited : Finset SocketAddrV4
  responses : List Response
  publicAddressVotes : AList (fun _ : SocketAddrV4 => ℕ)

namespace IterativeQuery

def new (requesterId target : Id) (request : GetRequestSpecific) : IterativeQuery where
  request := ⟨requesterId, request.requestType⟩
  closest := .new target
  responders := .new target
  inflightRequests := []
  visited := ∅
  responses := []
  publicAddressVotes := ∅

section
variable (q : IterativeQuery) (socket : KrpcSocket) (now : ℕ) (randomId : BitVec 32 → Id)

def target : Id := q.responders.target

/-- The first address, in the order of the map, that more votes are for than for those before. -/
def bestAddress : Option SocketAddrV4 :=
  (q.publicAddressVotes.entries.foldl
    (fun (best : ℕ × Option SocketAddrV4) vote =>
      if best.1 < vote.2 then (vote.2, some vote.1) else best) (0, none)).2

def addCandidate (node : Node) : IterativeQuery := { q with closest := q.closest.add node }

def addCandidates (nodes : List Node) : IterativeQuery := nodes.foldl addCandidate q

-- the counter has sixteen bits
def addAddressVote (address : SocketAddrV4) : IterativeQuery :=
  { q with
    publicAddressVotes := q.publicAddressVotes.insert address
      (match q.publicAddressVotes.lookup address with
        | some counter => (counter + 1) % 65536
        | none => 1) }

def visit (address : SocketAddrV4) : IterativeQuery × KrpcSocket :=
  let (socket, tid) := socket.request now address q.request
  let (socket, pingTid) := socket.request now address ⟨randomId socket.nextTid, .ping⟩
  ({ q with
      inflightRequests := q.inflightRequests ++ [tid] ++ [pingTid]
      visited := insert address q.visited }, socket)

def visitAll : List SocketAddrV4 → IterativeQuery × KrpcSocket → IterativeQuery × KrpcSocket
  | [], state => state
  | address :: addresses, (q, socket) => visitAll addresses (q.visit socket now randomId address)

def inflight (tid : BitVec 32) : Bool := tid ∈ q.inflightRequests

def addRespondingNode (node : Node) : IterativeQuery :=
  { q with responders := q.responders.add node }

def response (response : Response) : IterativeQuery :=
  { q with responses := q.responses ++ [response] }

/-- The addresses of the closest nodes that have not been asked. -/
def unvisited : List SocketAddrV4 :=
  ((q.closest.nodes.take maxBucketSizeK).filter (fun node => node.address ∉ q.visited)).map
    Node.address

def visitClosest : IterativeQuery × KrpcSocket := visitAll now randomId q.unvisited (q, socket)

def isDone : Bool := !q.inflightRequests.any (fun tid => socket.inflight now tid)

/-- `tick`, with whether it is done. -/
def tick : IterativeQuery × KrpcSocket × Bool :=
  let (q, socket) := q.visitClosest socket now randomId
  (q, socket, q.isDone socket now)

end

variable {q : IterativeQuery} {socket : KrpcSocket} {now : ℕ} {randomId : BitVec 32 → Id}

/-- Asking an address: two numbers are waited for, and nothing is forgotten. -/
theorem visitAll_spec (now : ℕ) (randomId : BitVec 32 → Id) (addresses : List SocketAddrV4)
    (q : IterativeQuery) (socket : KrpcSocket) :
    (visitAll now randomId addresses (q, socket)).1.visited = q.visited ∪ addresses.toFinset ∧
    (visitAll now randomId addresses (q, socket)).1.closest = q.closest ∧
    (visitAll now randomId addresses (q, socket)).1.responders = q.responders ∧
    (visitAll now randomId addresses (q, socket)).1.request = q.request ∧
    (visitAll now randomId addresses (q, socket)).1.responses = q.responses ∧
    (∃ tids, (visitAll now randomId addresses (q, socket)).1.inflightRequests
      = q.inflightRequests ++ tids ∧ tids.length = 2 * addresses.length) := by
  induction addresses generalizing q socket with
  | nil =>
    exact ⟨(Finset.union_empty _).symm, rfl, rfl, rfl, rfl, [], (List.append_nil _).symm, rfl⟩
  | cons address addresses ih =>
    rw [visitAll]
    obtain ⟨hvisited, hclosest, hresponders, hrequest, hresponses, tids, htids, hlen⟩ :=
      ih (q.visit socket now randomId address).1 (q.visit socket now randomId address).2
    refine ⟨?_, hclosest, hresponders, hrequest, hresponses, ?_⟩
    · rw [hvisited, List.toFinset_cons, Finset.union_insert, ← Finset.insert_union]
      rfl
    · refine ⟨[socket.nextTid] ++ [socket.nextTid + 1] ++ tids, ?_, ?_⟩
      · rw [htids, ← List.append_assoc, ← List.append_assoc]
        rfl
      · rw [List.length_append, hlen, List.length_cons]
        have hpair : ([socket.nextTid] ++ [socket.nextTid + 1]).length = 2 := rfl
        omega

/-- When a query is done, its closest twenty nodes have been asked, and neither the requests
nor the pings that it has sent are waited for. -/
theorem visited_of_tick (h : (q.tick socket now randomId).2.2 = true) :
    (∀ node ∈ (q.tick socket now randomId).1.closest.nodes.take maxBucketSizeK,
      node.address ∈ (q.tick socket now randomId).1.visited) ∧
    ∀ tid ∈ (q.tick socket now randomId).1.inflightRequests,
      (q.tick socket now randomId).2.1.inflight now tid = false := by
  obtain ⟨hvisited, hclosest, -⟩ :=
    visitAll_spec now randomId q.unvisited q socket
  constructor
  · intro node hnode
    have hnode' : node ∈ q.closest.nodes.take maxBucketSizeK := by
      rw [← hclosest]
      exact hnode
    have hunion : (q.tick socket now randomId).1.visited
        = q.visited ∪ q.unvisited.toFinset := hvisited
    rw [hunion, Finset.mem_union, List.mem_toFinset]
    by_cases hasked : node.address ∈ q.visited
    · exact Or.inl hasked
    · refine Or.inr (List.mem_map_of_mem (List.mem_filter.mpr ⟨hnode', ?_⟩))
      exact decide_eq_true hasked
  · intro tid htid
    have hdone : (q.tick socket now randomId).1.inflightRequests.any
        (fun tid => (q.tick socket now randomId).2.1.inflight now tid) = false := by
      have hnot := h
      unfold tick isDone at hnot
      exact (Bool.not_eq_true' _).mp hnot
    exact Bool.eq_false_iff.mpr (List.any_eq_false.mp hdone tid htid)

/-- The best of some votes: the highest count so far, and one of the addresses that have it. -/
theorem foldl_best (votes : List (Sigma fun _ : SocketAddrV4 => ℕ))
    (best : ℕ × Option SocketAddrV4) :
    best.1 ≤ (votes.foldl (fun (best : ℕ × Option SocketAddrV4) vote =>
      if best.1 < vote.2 then (vote.2, some vote.1) else best) best).1 ∧
    (∀ vote ∈ votes, vote.2 ≤ (votes.foldl (fun (best : ℕ × Option SocketAddrV4) vote =>
      if best.1 < vote.2 then (vote.2, some vote.1) else best) best).1) ∧
    (votes.foldl (fun (best : ℕ × Option SocketAddrV4) vote =>
        if best.1 < vote.2 then (vote.2, some vote.1) else best) best = best ∨
      ∃ vote ∈ votes, votes.foldl (fun (best : ℕ × Option SocketAddrV4) vote =>
        if best.1 < vote.2 then (vote.2, some vote.1) else best) best
          = (vote.2, some vote.1)) := by
  induction votes generalizing best with
  | nil => exact ⟨Nat.le_refl _, fun _ h => absurd h List.not_mem_nil, Or.inl rfl⟩
  | cons vote votes ih =>
    rw [List.foldl_cons]
    by_cases hmore : best.1 < vote.2
    · rw [if_pos hmore]
      obtain ⟨hle, hall, hwhich⟩ := ih (vote.2, some vote.1)
      refine ⟨Nat.le_trans (Nat.le_of_lt hmore) hle, ?_, ?_⟩
      · intro v hv
        rcases List.mem_cons.mp hv with rfl | hv
        · exact hle
        · exact hall v hv
      · rcases hwhich with hsame | ⟨v, hv, heq⟩
        · exact Or.inr ⟨vote, List.mem_cons_self, hsame⟩
        · exact Or.inr ⟨v, List.mem_cons_of_mem vote hv, heq⟩
    · rw [if_neg hmore]
      obtain ⟨hle, hall, hwhich⟩ := ih best
      refine ⟨hle, ?_, ?_⟩
      · intro v hv
        rcases List.mem_cons.mp hv with rfl | hv
        · exact Nat.le_trans (Nat.not_lt.mp hmore) hle
        · exact hall v hv
      · rcases hwhich with hsame | ⟨v, hv, heq⟩
        · exact Or.inl hsame
        · exact Or.inr ⟨v, List.mem_cons_of_mem vote hv, heq⟩

/-- A query after votes on our address. -/
def votes (q : IterativeQuery) (addresses : List SocketAddrV4) : IterativeQuery :=
  addresses.foldl addAddressVote q

theorem lookup_votes (hnew : q.publicAddressVotes = ∅) {addresses : List SocketAddrV4}
    (hfew : addresses.length < 65536) (address : SocketAddrV4) :
    (q.votes addresses).publicAddressVotes.lookup address
      = if address ∈ addresses then some (addresses.count address) else none := by
  induction addresses using List.reverseRecOn with
  | nil =>
    rw [if_neg List.not_mem_nil, votes, List.foldl_nil, hnew]
    rfl
  | append_singleton addresses vote ih =>
    rw [List.length_append, List.length_singleton] at hfew
    have hbefore := ih (by omega)
    have hcount : addresses.count address ≤ addresses.length := List.count_le_length
    have hconcat : q.votes (addresses ++ [vote]) = (q.votes addresses).addAddressVote vote :=
      List.foldl_append
    rw [hconcat, addAddressVote]
    simp only
    by_cases hvote : address = vote
    · subst hvote
      rw [AList.lookup_insert, hbefore,
        if_pos (List.mem_append_right _ (List.mem_singleton_self _)), List.count_append,
        List.count_singleton_self]
      by_cases hmem : address ∈ addresses
      · rw [if_pos hmem]
        simp only
        rw [Nat.mod_eq_of_lt (by omega)]
      · rw [if_neg hmem, List.count_eq_zero_of_not_mem hmem]
    · rw [AList.lookup_insert_ne hvote, hbefore, List.count_append,
        List.count_singleton, beq_eq_false_iff_ne.mpr (Ne.symm hvote)]
      simp only [List.mem_append, List.mem_singleton, hvote, or_false, Bool.false_eq_true, if_false,
        Nat.add_zero]

/-- The best address is one that most votes are for, and there is one as soon as there is a
vote; which of several it is depends on the order of the map. -/
theorem bestAddress_votes (requesterId target : Id) (request : GetRequestSpecific)
    (addresses : List SocketAddrV4) (hfew : addresses.length < 65536) :
    (((new requesterId target request).votes addresses).bestAddress = none ↔ addresses = []) ∧
    ∀ best, ((new requesterId target request).votes addresses).bestAddress = some best →
      best ∈ addresses ∧ ∀ address, addresses.count address ≤ addresses.count best := by
  have hlookup := lookup_votes (q := new requesterId target request) rfl hfew
  obtain ⟨-, hall, hwhich⟩ :=
    foldl_best ((new requesterId target request).votes addresses).publicAddressVotes.entries
      (0, none)
  have hentry : ∀ vote ∈
      ((new requesterId target request).votes addresses).publicAddressVotes.entries,
      vote.1 ∈ addresses ∧ vote.2 = addresses.count vote.1 := by
    intro vote hvote
    have hfound := AList.mem_lookup_iff.mpr hvote
    rw [Option.mem_def, hlookup] at hfound
    by_cases hmem : vote.1 ∈ addresses
    · rw [if_pos hmem] at hfound
      exact ⟨hmem, (Option.some.inj hfound).symm⟩
    · rw [if_neg hmem] at hfound
      cases hfound
  have hcounted : ∀ address ∈ addresses, (⟨address, addresses.count address⟩ :
      Sigma fun _ : SocketAddrV4 => ℕ) ∈
        ((new requesterId target request).votes addresses).publicAddressVotes.entries := by
    intro address hmem
    apply AList.mem_lookup_iff.mp
    rw [Option.mem_def, hlookup, if_pos hmem]
  have hempty : addresses ≠ [] → ((new requesterId target request).votes addresses).bestAddress
      ≠ none := by
    intro hne hnone
    obtain ⟨address, hmem⟩ := List.exists_mem_of_ne_nil addresses hne
    rcases hwhich with hstart | ⟨vote, -, hvote⟩
    · have hle := hall _ (hcounted address hmem)
      rw [hstart] at hle
      simp only at hle
      have hpos := List.count_pos_iff.mpr hmem
      omega
    · rw [bestAddress, hvote] at hnone
      cases hnone
  constructor
  · constructor
    · intro hnone
      by_contra hne
      exact hempty hne hnone
    · rintro rfl
      rfl
  · intro best hbest
    rcases hwhich with hstart | ⟨vote, hvote, heq⟩
    · rw [bestAddress, hstart] at hbest
      cases hbest
    · rw [bestAddress, heq] at hbest
      obtain rfl := Option.some.inj hbest
      obtain ⟨hmem, hcount⟩ := hentry vote hvote
      refine ⟨hmem, ?_⟩
      intro address
      by_cases haddress : address ∈ addresses
      · have hle := hall _ (hcounted address haddress)
        rw [heq] at hle
        simp only at hle
        rw [← hcount]
        exact hle
      · rw [List.count_eq_zero_of_not_mem haddress]
        exact Nat.zero_le _

end IterativeQuery

end Nerea.Mainline
