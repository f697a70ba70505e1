import Nerea.Mainline.RpcChanges
import Nerea.Mainline.RoutingTableRuns
import Nerea.Mainline.ServerRuns

/-!
# Runs of the node

The user calls and the node ticks, in any order. The table and the server inside a node do what
they do alone. What a node takes for sure about the network it has been told by answers to its
own requests, or by a ping that came back to it.
-/

set_option autoImplicit false

namespace Nerea.Mainline.Rpc

/-- A call of the user, or a tick. -/
inductive Event where
  | get (m : Moment) (request : GetRequestSpecific) (extraNodes : Option (List SocketAddrV4))
  | put (m : Moment) (request : PutRequestSpecific) (extraNodes : Option (List Node))
  | tick (m : Moment) (datagram : Option KrpcSocket.Datagram)

namespace Event

def moment : Event → Moment
  | .get m _ _ => m
  | .put m _ _ => m
  | .tick m _ => m

def call : Event → Option Call
  | .get _ request _ => some (.get request)
  | .put _ request _ => some (.put request)
  | .tick _ _ => none

def datagram : Event → Option KrpcSocket.Datagram
  | .tick _ datagram => datagram
  | _ => none

/-- The message comes in from the address. -/
def Hears (e : Event) (address : SocketAddrV4) (message : Message) : Prop :=
  e.datagram = some (address, some message)

end Event

/-- One step; nothing once the source has stopped the program. -/
def step (crypto : Crypto) (state : Option Rpc) (e : Event) : Option Rpc :=
  state.bind fun s =>
    match e with
    | .get m request extraNodes => some (s.get m request extraNodes).1
    | .put m request extraNodes => (s.put m request extraNodes).map Prod.fst
    | .tick m datagram => (s.tick crypto m datagram).map Prod.fst

/-- The node after a run, if the program still goes on. -/
def after (crypto : Crypto) (s : Rpc) (es : List Event) : Option Rpc :=
  Run.run (step crypto) (some s) es

variable {crypto : Crypto} {m : Moment} {origin s s' : Rpc} {call : Option Call}
  {heard : Option (Message × SocketAddrV4)} {ending : Over}

theorem after_concat (s : Rpc) (es : List Event) (e : Event) :
    after crypto s (es ++ [e]) = step crypto (after crypto s es) e :=
  Run.run_concat (some s) es e

/-- A put may be over for the event. -/
def Event.Ends (e : Event) (s : Rpc) (id : Id) : Prop :=
  Ended s id ∨ ∃ request, e.call = some (.put request) ∧ request.target = id

/-- A step is changes up to the look at the socket, and changes with what it gave out. -/
theorem step_changes {e : Event} (h : step crypto (some s) e = some s') :
    ∃ t heard ending, Changes crypto e.moment s e.call heard ending s t ∧
      Changes crypto e.moment s e.call heard ending t s' ∧
      (∀ message source, heard = some (message, source) →
        t.incoming e.moment e.datagram = some (message, source)) ∧
      ∀ id, ending.puts id → e.Ends s id := by
  rw [step, Option.bind_some] at h
  cases e with
  | get m request extraNodes =>
    obtain rfl := Option.some.inj h
    refine ⟨_, none, ⟨fun _ => False, fun _ => False⟩,
      get_changes s request extraNodes (Or.inr ⟨_, rfl, rfl⟩), Relation.ReflTransGen.refl, ?_,
      fun id hid => hid.elim⟩
    intro message source hnone
    cases hnone
  | put m request extraNodes =>
    obtain ⟨⟨t, result⟩, hput, rfl⟩ := Option.map_eq_some_iff.mp h
    refine ⟨t, none, ⟨fun id => request.target = id, fun _ => False⟩, put_changes rfl rfl hput,
      Relation.ReflTransGen.refl, ?_, fun id hid => Or.inr ⟨request, rfl, hid⟩⟩
    intro message source hnone
    cases hnone
  | tick m datagram =>
    obtain ⟨⟨t', report⟩, htick, rfl⟩ := Option.map_eq_some_iff.mp h
    obtain ⟨t, hbefore, hafter, -, hdone⟩ := tick_changes htick
    refine ⟨t, t.incoming m datagram, report.ending, hbefore _, hafter,
      fun message source heq => heq, ?_⟩
    rintro id ⟨e, he, rfl⟩
    exact Or.inl (hdone e he).1

/-- What every change keeps with the events so far holds after every run. -/
theorem after_induction {P : List Event → Rpc → Prop} (hs : P [] s)
    (hstep : ∀ es e u t v heard ending, P es u → Changes crypto e.moment u e.call heard ending u t →
      Changes crypto e.moment u e.call heard ending t v →
      (∀ message source, heard = some (message, source) →
        t.incoming e.moment e.datagram = some (message, source)) →
      (∀ id, ending.puts id → e.Ends u id) → P (es ++ [e]) v)
    {es : List Event} (h : after crypto s es = some s') : P es s' := by
  induction es using List.reverseRecOn generalizing s' with
  | nil =>
    obtain rfl := Option.some.inj h
    exact hs
  | append_singleton es e ih =>
    rw [after_concat] at h
    cases hbefore : after crypto s es with
    | none =>
      rw [hbefore] at h
      cases h
    | some u =>
      rw [hbefore] at h
      obtain ⟨t, heard, ending, hfirst, hsecond, hheard, hends⟩ := step_changes h
      exact hstep es e u t s' heard ending (ih hbefore) hfirst hsecond hheard hends

/-- What every change keeps holds after every run. -/
theorem after_invariant {P : Rpc → Prop}
    (hchange : ∀ m origin call heard ending t t',
      Change crypto m origin call heard ending t t' → P t → P t')
    (hs : P s) {es : List Event} (h : after crypto s es = some s') : P s' := by
  refine after_induction (P := fun _ => P) hs ?_ h
  intro es e u t v heard ending hu hfirst hsecond _ _
  exact Changes.invariant (hchange e.moment u e.call heard ending) (hfirst.trans hsecond) hu

theorem hears_of_incoming {t : Rpc} {e : Event} {message : Message} {source : SocketAddrV4}
    (h : t.incoming e.moment e.datagram = some (message, source)) : e.Hears source message :=
  KrpcSocket.datagram_of_recvFrom h

section Exchange

def demoMoment (now : ℕ) : Moment where
  draw := ⟨now, Server.demoTokens.currSecret, [], fun _ _ => 0⟩
  randomId _ := RoutingTable.zeroId
  expectedDk _ := 0
  idBytes := RoutingTable.zeroId
  r := 0

def demoAddress : SocketAddrV4 := ⟨⟨127, 0, 0, 1⟩, 6881⟩

/-- The first node of a network, in server mode. -/
def demoNode : Rpc := .new [] (.new 0 true 100) RoutingTable.zeroId Server.demoServer 0

/-- The node asks another one, which tells it its address, and is pinged from there. -/
def demoRun : List Event :=
  [.get (demoMoment 0) (.findNode RoutingTable.oneId) (some [Server.demoSource]),
    .tick (demoMoment 0) (some (Server.demoSource,
      some ⟨0, none, some demoAddress, .response (.findNode RoutingTable.oneId []), false⟩)),
    .tick (demoMoment 100) (some (demoAddress,
      some ⟨7, none, none, .request ⟨RoutingTable.zeroId, .ping⟩, false⟩))]

end Exchange

section Parts

/-- The request comes to the node in the event. -/
def Event.Serves (e : Event) (request : Server.Event) : Prop :=
  request.draw = e.moment.draw ∧ ∃ message, e.Hears request.source message ∧
    message.messageType = .request request.request

/-- What one change does to the server: a request that has come in is handled, or nothing. -/
theorem Change.server (h : Change crypto m origin call heard ending s s') :
    s'.server = s.server ∨ ∃ message source request, heard = some (message, source) ∧
      message.messageType = .request request ∧
      s'.server = s.server.step crypto ⟨s.routingTable, source, m.draw, request⟩ := by
  cases h with
  | served message source request hheard hrequest =>
    exact Or.inr ⟨message, source, request, hheard, hrequest, rfl⟩
  | cached query nodes =>
    obtain ⟨_, _, _, _, hcached⟩ := cacheIterativeQuery_frame s query nodes
    rw [hcached]
    exact Or.inl rfl
  | _ => exact Or.inl rfl

/-- What one change does to the table. -/
theorem Change.routingTable (h : Change crypto m origin call heard ending s s') :
    (∃ ops, s'.routingTable = Run.run RoutingTable.step s.routingTable ops) ∨
      ∃ id, s'.routingTable = .new id := by
  cases h with
  | learned id query message source =>
    left
    simp only
    cases message.getAuthorId with
    | none => exact ⟨[], rfl⟩
    | some author => exact ⟨[.add m.now (.new author source m.now)], rfl⟩
  | purged ids =>
    refine Or.inl ⟨ids.map .remove, ?_⟩
    rw [Run.run, List.foldl_map]
    rfl
  | joined message source request target =>
    exact Or.inl ⟨[.add m.now (.new target source m.now)], rfl⟩
  | restarted newId => exact Or.inr ⟨newId, rfl⟩
  | cached query nodes =>
    obtain ⟨_, _, _, _, hcached⟩ := cacheIterativeQuery_frame s query nodes
    rw [hcached]
    exact Or.inl ⟨[], rfl⟩
  | _ => exact Or.inl ⟨[], rfl⟩

theorem routingTable_after (hs : ∃ id ops, s.routingTable = RoutingTable.after id ops)
    {es : List Event} (h : after crypto s es = some s') :
    ∃ id ops, s'.routingTable = RoutingTable.after id ops := by
  refine after_invariant (P := fun s => ∃ id ops, s.routingTable = RoutingTable.after id ops)
    ?_ hs h
  rintro m origin call heard ending t t' hchange ⟨id, ops, ht⟩
  rcases hchange.routingTable with ⟨more, heq⟩ | ⟨newId, heq⟩
  · refine ⟨id, ops ++ more, ?_⟩
    rw [heq, ht, RoutingTable.after, RoutingTable.after, Run.run_append]
  · exact ⟨newId, [], heq⟩

theorem server_after (settings : ServerSettings) (tokens : Tokens)
    (hs : s.server = .new settings tokens) {es : List Event}
    (h : after crypto s es = some s') :
    ∃ requests, s'.server = Server.after crypto settings tokens requests ∧
      ∀ request ∈ requests, ∃ e ∈ es, e.Serves request := by
  refine after_induction (P := fun es s => ∃ requests,
    s.server = Server.after crypto settings tokens requests ∧
      ∀ request ∈ requests, ∃ e ∈ es, e.Serves request) ⟨[], hs, ?_⟩ ?_ h
  · exact fun request hrequest => absurd hrequest List.not_mem_nil
  · rintro es e u t v heard ending ⟨requests, hu, hall⟩ hfirst hsecond hheard -
    refine Changes.invariant (P := fun s => ∃ requests,
      s.server = Server.after crypto settings tokens requests ∧
        ∀ request ∈ requests, ∃ e' ∈ es ++ [e], e'.Serves request) ?_ (hfirst.trans hsecond)
      ⟨requests, hu, ?_⟩
    · rintro x y hchange ⟨requests, hx, hall⟩
      rcases hchange.server with hsame | ⟨message, source, request, rfl, hrequest, hserver⟩
      · exact ⟨requests, hsame.trans hx, hall⟩
      · refine ⟨requests ++ [⟨x.routingTable, source, e.moment.draw, request⟩], ?_, ?_⟩
        · rw [hserver, hx, Server.after, Server.after, Run.run_concat]
        · intro asked hasked
          rcases List.mem_append.mp hasked with hasked | hasked
          · exact hall asked hasked
          · obtain rfl := List.mem_singleton.mp hasked
            exact ⟨e, List.mem_append_right es (List.mem_singleton_self e), rfl, message,
              hears_of_incoming (hheard message source rfl), hrequest⟩
    · intro request hrequest
      obtain ⟨e', he', hserves⟩ := hall request hrequest
      exact ⟨e', List.mem_append_left [e] he', hserves⟩

/-- The table and the server of a node are a table and a server after runs of their own. Each
request of the server's run is one that came to the node. -/
theorem parts_of_run (bootstrap : List SocketAddrV4) (socket : KrpcSocket) (id : Id)
    (settings : ServerSettings) (tokens : Tokens) (now : ℕ) {es : List Event}
    (h : after crypto (.new bootstrap socket id (.new settings tokens) now) es = some s) :
    (∃ id ops, s.routingTable = RoutingTable.after id ops) ∧
    ∃ requests, s.server = Server.after crypto settings tokens requests ∧
      ∀ request ∈ requests, ∃ e ∈ es, e.Serves request :=
  ⟨routingTable_after ⟨id, [], rfl⟩ h, server_after settings tokens rfl h⟩

theorem parts_of_run_demo :
    ∃ s requests, after Server.demoCrypto demoNode demoRun = some s ∧
      s.server = Server.after Server.demoCrypto Server.demoSettings Server.demoTokens requests ∧
      ∀ request ∈ requests, ∃ e ∈ demoRun, e.Serves request := by
  have hgoes : (after Server.demoCrypto demoNode demoRun).isSome = true := by decide +kernel
  obtain ⟨s, hs⟩ := Option.isSome_iff_exists.mp hgoes
  obtain ⟨-, requests, hserver, hserves⟩ := parts_of_run [] (.new 0 true 100)
    RoutingTable.zeroId Server.demoSettings Server.demoTokens 0 hs
  exact ⟨s, requests, hs, hserver, hserves⟩

end Parts

section Socket

theorem Change.bootstrap (h : Change crypto m origin call heard ending s s') :
    s'.bootstrap = s.bootstrap := by
  cases h with
  | cached query nodes =>
    obtain ⟨_, _, _, _, hcached⟩ := cacheIterativeQuery_frame s query nodes
    rw [hcached]
  | _ => rfl

/-- What one change does to the socket: messages, or the switch to server mode. -/
theorem Change.socket (h : Change crypto m origin call heard ending s s') :
    s.socket.Grows s'.socket ∨
      s.firewalled = false ∧ s'.socket = { s.socket with serverMode := true } := by
  cases h with
  | sent socket hgrows => exact Or.inl hgrows
  | switched hfirewalled => exact Or.inr ⟨hfirewalled, rfl⟩
  | cached query nodes =>
    obtain ⟨_, _, _, _, hcached⟩ := cacheIterativeQuery_frame s query nodes
    rw [hcached]
    exact Or.inl (KrpcSocket.grows_refl _)
  | _ => exact Or.inl (KrpcSocket.grows_refl _)

theorem Change.logged (h : Change crypto m origin call heard ending s s')
    (hs : s.socket.Logged) : s'.socket.Logged := by
  rcases h.socket with hgrows | ⟨-, heq⟩
  · exact hgrows.logged hs
  · rw [heq]
    exact hs

theorem Change.sent_subset (h : Change crypto m origin call heard ending s s') :
    s.socket.sent ⊆ s'.socket.sent := by
  rcases h.socket with hgrows | ⟨-, heq⟩
  · exact hgrows.sent
  · rw [heq]
    exact List.Subset.refl _

end Socket

section Table

/-- The message is an answer, for a request that the node has sent to the address, or to its port
with the unspecified IP, which any IP may answer. -/
def Answered (s : Rpc) (address : SocketAddrV4) (message : Message) : Prop :=
  ∃ asked sentTo request, (sentTo, asked) ∈ s.socket.sent ∧
    asked.transactionId = message.transactionId ∧ asked.messageType = .request request ∧
    sentTo.port = address.port ∧ (sentTo.ip.isUnspecified = true ∨ sentTo.ip = address.ip)

/-- The message is one that its sender is taken into the table for. -/
def Introduces (first : Bool) (node : Node) (message : Message) : Prop :=
  (∀ r, message.messageType ≠ .request r) ∧ message.readOnly = false ∧
      message.getAuthorId = some node.id ∨
    first = true ∧ ∃ request, message.messageType = .request request ∧
      request.requestType = .findNode node.id

/-- The node of an answer has its id and its address from it. -/
theorem Change.mem_listed (h : Change crypto m origin call heard ending s s')
    (hs : s.routingTable.WellPlaced) {node : Node} (hnode : node ∈ s'.routingTable.listed) :
    node ∈ s.routingTable.listed ∨ ∃ message, heard = some (message, node.address) ∧
      Introduces s.bootstrap.isEmpty node message := by
  cases h with
  | learned id query message source hheard hanswer hreadOnly hfound hvalue =>
    simp only at hnode
    cases hauthor : message.getAuthorId with
    | none =>
      rw [hauthor] at hnode
      exact Or.inl hnode
    | some author =>
      rw [hauthor] at hnode
      rcases RoutingTable.mem_add hnode with hold | ⟨rfl, -⟩
      · exact Or.inl hold
      · exact Or.inr ⟨message, hheard, Or.inl ⟨hanswer, hreadOnly, hauthor⟩⟩
  | purged ids => exact Or.inl ((RoutingTable.mem_purgeNodes hs).mp hnode).1
  | joined message source request target hheard hrequest hfind hfirst =>
    rcases RoutingTable.mem_add hnode with hold | ⟨rfl, -⟩
    · exact Or.inl hold
    · exact Or.inr ⟨message, hheard, Or.inr ⟨List.isEmpty_iff.mpr hfirst, request, hrequest, hfind⟩⟩
  | restarted newId =>
    obtain ⟨d, -, hd⟩ := RoutingTable.mem_listed.mp hnode
    exact absurd hd List.not_mem_nil
  | cached query nodes =>
    obtain ⟨_, _, _, _, hcached⟩ := cacheIterativeQuery_frame s query nodes
    rw [hcached] at hnode
    exact Or.inl hnode
  | _ => exact Or.inl hnode

theorem answered_of_recvFrom {t : Rpc} {m : Moment} {datagram : Option KrpcSocket.Datagram}
    {message : Message} {source : SocketAddrV4} (hlogged : t.socket.Logged)
    (hanswer : ∀ r, message.messageType ≠ .request r)
    (h : t.incoming m datagram = some (message, source)) : t.Answered source message := by
  obtain ⟨r, asked, request, hsent, hnumber, hrequest, hmatch⟩ :=
    KrpcSocket.sent_of_recvFrom hlogged hanswer h
  unfold InflightRequest.doesMatch at hmatch
  split at hmatch
  · cases hmatch
  · rename_i hport
    refine ⟨asked, r.sentTo, request, hsent, hnumber, hrequest, not_not.mp hport, ?_⟩
    split at hmatch
    · rename_i hany
      exact Or.inl hany
    · exact Or.inr (of_decide_eq_true hmatch)

/-- How a node got into the table. -/
def Vouched (es : List Event) (s : Rpc) (node : Node) : Prop :=
  ∃ e ∈ es, ∃ message, e.Hears node.address message ∧
    Introduces s.bootstrap.isEmpty node message ∧
    ((∀ r, message.messageType ≠ .request r) → s.Answered node.address message)

theorem Vouched.later {es : List Event} {node : Node} (h : Vouched es s node) (more : List Event)
    (hbootstrap : s'.bootstrap = s.bootstrap) (hsent : s.socket.sent ⊆ s'.socket.sent) :
    Vouched (es ++ more) s' node := by
  obtain ⟨e, he, message, hhears, hintroduces, hanswered⟩ := h
  refine ⟨e, List.mem_append_left more he, message, hhears, hbootstrap ▸ hintroduces, ?_⟩
  intro hanswer
  obtain ⟨asked, sentTo, request, hmem, hrest⟩ := hanswered hanswer
  exact ⟨asked, sentTo, request, hsent hmem, hrest⟩

/-- What holds of the table and the socket, with what has happened. -/
structure Introduced (bootstrap : List SocketAddrV4) (es : List Event) (s : Rpc) : Prop where
  bootstrap : s.bootstrap = bootstrap
  placed : s.routingTable.WellPlaced
  logged : s.socket.Logged
  vouched : ∀ node ∈ s.routingTable.listed, Vouched es s node

theorem wellPlaced_of_run (hs : s.routingTable.WellPlaced) (ops : List RoutingTable.Op) :
    (Run.run RoutingTable.step s.routingTable ops).WellPlaced :=
  Run.invariant (fun _ op h => h.step op) hs ops

theorem Change.wellPlaced (h : Change crypto m origin call heard ending s s')
    (hs : s.routingTable.WellPlaced) : s'.routingTable.WellPlaced := by
  rcases h.routingTable with ⟨ops, heq⟩ | ⟨id, heq⟩
  · rw [heq]
    exact wellPlaced_of_run hs ops
  · rw [heq]
    exact RoutingTable.wellPlaced_new id

/-- The nodes after a step are old ones, or those of the message that has come in. -/
theorem mem_listed_of_changes (h : Changes crypto m origin call heard ending s s')
    (hs : s.routingTable.WellPlaced) {node : Node} (hnode : node ∈ s'.routingTable.listed) :
    node ∈ s.routingTable.listed ∨ ∃ message, heard = some (message, node.address) ∧
      Introduces s.bootstrap.isEmpty node message := by
  have hboth : s'.bootstrap = s.bootstrap ∧ s'.routingTable.WellPlaced ∧
      ∀ node ∈ s'.routingTable.listed, node ∈ s.routingTable.listed ∨
        ∃ message, heard = some (message, node.address) ∧
          Introduces s.bootstrap.isEmpty node message := by
    refine Changes.invariant (P := fun t => t.bootstrap = s.bootstrap ∧ t.routingTable.WellPlaced ∧
      ∀ node ∈ t.routingTable.listed, node ∈ s.routingTable.listed ∨
        ∃ message, heard = some (message, node.address) ∧
          Introduces s.bootstrap.isEmpty node message) ?_ h ⟨rfl, hs, fun node hn => Or.inl hn⟩
    rintro t t' hchange ⟨hbootstrap, hplaced, hall⟩
    refine ⟨hchange.bootstrap.trans hbootstrap, hchange.wellPlaced hplaced, ?_⟩
    intro node hnode
    rcases hchange.mem_listed hplaced hnode with hold | hnew
    · exact hall node hold
    · rw [hbootstrap] at hnew
      exact Or.inr hnew
  exact hboth.2.2 node hnode

theorem Introduced.step {bootstrap : List SocketAddrV4} {es : List Event} {e : Event}
    {u t v : Rpc} (hu : Introduced bootstrap es u)
    (hfirst : Changes crypto e.moment u e.call heard ending u t)
    (hsecond : Changes crypto e.moment u e.call heard ending t v)
    (hheard : ∀ message source, heard = some (message, source) →
      t.incoming e.moment e.datagram = some (message, source)) :
    Introduced bootstrap (es ++ [e]) v := by
  have hboth := hfirst.trans hsecond
  have hbootstrap : v.bootstrap = u.bootstrap :=
    Changes.invariant (P := fun s => s.bootstrap = u.bootstrap)
      (fun _ _ hchange h => hchange.bootstrap.trans h) hboth rfl
  have hlogged : ∀ {x y : Rpc}, Changes crypto e.moment u e.call heard ending x y →
      x.socket.Logged → y.socket.Logged :=
    fun h hx => Changes.invariant (P := fun s => s.socket.Logged)
      (fun _ _ hchange h => hchange.logged h) h hx
  have hsent : ∀ {x y : Rpc}, Changes crypto e.moment u e.call heard ending x y →
      x.socket.sent ⊆ y.socket.sent :=
    fun {x _} h => Changes.invariant (P := fun s => x.socket.sent ⊆ s.socket.sent)
      (fun _ _ hchange hx => List.Subset.trans hx hchange.sent_subset) h (List.Subset.refl _)
  refine ⟨hbootstrap.trans hu.bootstrap, ?_, hlogged hboth hu.logged, ?_⟩
  · exact Changes.invariant (P := fun s => s.routingTable.WellPlaced)
      (fun _ _ hchange h => hchange.wellPlaced h) hboth hu.placed
  · intro node hnode
    rcases mem_listed_of_changes hboth hu.placed hnode with hold | ⟨message, hmessage, hintroduces⟩
    · exact (hu.vouched node hold).later [e] hbootstrap (hsent hboth)
    · have hincoming := hheard message node.address hmessage
      refine ⟨e, List.mem_append_right es (List.mem_singleton_self e), message,
        hears_of_incoming hincoming, hbootstrap ▸ hintroduces, ?_⟩
      intro hanswer
      obtain ⟨asked, sentTo, request, hmem, hrest⟩ :=
        answered_of_recvFrom (hlogged hfirst hu.logged) hanswer hincoming
      exact ⟨asked, sentTo, request, hsent hsecond hmem, hrest⟩

theorem introduced_new (bootstrap : List SocketAddrV4) (id : Id) (server : Server)
    (serverMode : Bool) (requestTimeout now : ℕ) :
    Introduced bootstrap []
      (.new bootstrap (.new now serverMode requestTimeout) id server now) where
  bootstrap := rfl
  placed := RoutingTable.wellPlaced_new id
  logged := by
    intro tid r hr
    cases hr
  vouched := by
    intro node hnode
    obtain ⟨d, -, hd⟩ := RoutingTable.mem_listed.mp hnode
    exact absurd hd List.not_mem_nil

/-- A node is in the table for a message that came from its address. That is an answer to a
request that was sent there, with its id, or, for the first node of a network, a request for a
node: then its id is the one that it looks for. -/
theorem nodes_introduced (bootstrap : List SocketAddrV4) (id : Id) (server : Server)
    (serverMode : Bool) (requestTimeout now : ℕ) {es : List Event}
    (h : after crypto (.new bootstrap (.new now serverMode requestTimeout) id server now) es
      = some s) :
    ∀ node ∈ s.routingTable.nodes, ∃ e ∈ es, ∃ message, e.Hears node.address message ∧
      ((∀ r, message.messageType ≠ .request r) ∧ message.readOnly = false ∧
          message.getAuthorId = some node.id ∧ s.Answered node.address message ∨
        bootstrap = [] ∧ ∃ request, message.messageType = .request request ∧
          request.requestType = .findNode node.id) := by
  have hintroduced : Introduced bootstrap es s :=
    after_induction (P := Introduced bootstrap)
      (introduced_new bootstrap id server serverMode requestTimeout now)
      (fun _ _ _ _ _ _ _ hu hfirst hsecond hheard _ => hu.step hfirst hsecond hheard) h
  intro node hnode
  rw [hintroduced.placed.nodes_eq] at hnode
  obtain ⟨e, he, message, hhears, hintroduces, hanswered⟩ := hintroduced.vouched node hnode
  refine ⟨e, he, message, hhears, ?_⟩
  rcases hintroduces with ⟨hanswer, hreadOnly, hauthor⟩ | ⟨hfirst, hrequest⟩
  · exact Or.inl ⟨hanswer, hreadOnly, hauthor, hanswered hanswer⟩
  · rw [hintroduced.bootstrap, List.isEmpty_iff] at hfirst
    exact Or.inr ⟨hfirst, hrequest⟩

theorem nodes_introduced_demo :
    ∃ s node, after Server.demoCrypto demoNode demoRun = some s ∧ node ∈ s.routingTable.nodes ∧
      ∃ e ∈ demoRun, ∃ message, e.Hears node.address message := by
  have hgoes : (after Server.demoCrypto demoNode demoRun).any
      (fun s => s.routingTable.nodes ≠ []) = true := by decide +kernel
  obtain ⟨s, hs, hnodes⟩ := (Option.any_eq_true _ _).mp hgoes
  obtain ⟨node, hnode⟩ := List.exists_mem_of_ne_nil _ (of_decide_eq_true hnodes)
  obtain ⟨e, he, message, hhears, -⟩ :=
    nodes_introduced [] RoutingTable.zeroId Server.demoServer true 100 0 hs node hnode
  exact ⟨s, node, hs, hnode, e, he, message, hhears⟩

end Table

section Firewall

/-- A ping has come in from the address. -/
def Pinged (es : List Event) (address : SocketAddrV4) : Prop :=
  ∃ e ∈ es, ∃ message request, e.Hears address message ∧
    message.messageType = .request request ∧ request.requestType = .ping

theorem Pinged.later {es : List Event} {address : SocketAddrV4} (h : Pinged es address)
    (more : List Event) : Pinged (es ++ more) address := by
  obtain ⟨e, he, hrest⟩ := h
  exact ⟨e, List.mem_append_left more he, hrest⟩

/-- What a node that began in this mode has been pinged for. -/
structure Reached (serverMode : Bool) (es : List Event) (s : Rpc) : Prop where
  firewalled : s.firewalled = false →
    ∃ address, s.publicAddress = some address ∧ Pinged es address
  switched : s.socket.serverMode = true → serverMode = true ∨ ∃ address, Pinged es address

theorem Reached.change {serverMode : Bool} {es : List Event} (hs : Reached serverMode es s)
    (h : Change crypto m origin call heard ending s s')
    (hping : ∀ message address request, heard = some (message, address) →
      message.messageType = .request request → request.requestType = .ping →
      Pinged es address) : Reached serverMode es s' := by
  cases h with
  | sent socket hgrows => exact ⟨hs.firewalled, hgrows.serverMode.symm ▸ hs.switched⟩
  | voted address =>
    refine ⟨?_, hs.switched⟩
    intro hopen
    -- the address is the one that was taken for ours before
    by_cases hsame : s.publicAddress = some address
    · have hbefore : s.firewalled = false := by
        simpa only [hsame, ne_eq, not_true_eq_false, if_false] using hopen
      obtain ⟨found, hfound, hpinged⟩ := hs.firewalled hbefore
      obtain rfl := Option.some.inj (hsame.symm.trans hfound)
      exact ⟨address, rfl, hpinged⟩
    · simp only [ne_eq, hsame, not_false_eq_true, if_true, Bool.true_eq_false] at hopen
  | reached message address request hheard hrequest hasked haddress =>
    exact ⟨fun _ => ⟨address, haddress, hping message address request hheard hrequest hasked⟩,
      hs.switched⟩
  | switched hfirewalled =>
    refine ⟨hs.firewalled, ?_⟩
    intro _
    obtain ⟨address, -, hpinged⟩ := hs.firewalled hfirewalled
    exact Or.inr ⟨address, hpinged⟩
  | cached query nodes =>
    obtain ⟨_, _, _, _, hcached⟩ := cacheIterativeQuery_frame s query nodes
    rw [hcached]
    exact ⟨hs.firewalled, hs.switched⟩
  | _ => exact ⟨hs.firewalled, hs.switched⟩

theorem Change.serverMode (h : Change crypto m origin call heard ending s s')
    (hs : s.socket.serverMode = true) : s'.socket.serverMode = true := by
  cases h with
  | sent socket hgrows => exact hgrows.serverMode.trans hs
  | switched => rfl
  | cached query nodes =>
    obtain ⟨_, _, _, _, hcached⟩ := cacheIterativeQuery_frame s query nodes
    rw [hcached]
    exact hs
  | _ => exact hs

/-- A node that holds itself reachable was pinged from the address that it takes for its own,
and no node goes over to server mode without a ping from outside. One that is in server mode,
from the beginning or since, is so in every run from there. -/
theorem firewalled_of_run (bootstrap : List SocketAddrV4) (id : Id) (server : Server)
    (serverMode : Bool) (requestTimeout now : ℕ) {es : List Event}
    (h : after crypto (.new bootstrap (.new now serverMode requestTimeout) id server now) es
      = some s) :
    (s.firewalled = false → ∃ address, s.publicAddress = some address ∧ Pinged es address) ∧
    (s.socket.serverMode = true → serverMode = true ∨ ∃ address, Pinged es address) ∧
    (s.socket.serverMode = true →
      ∀ es' s', after crypto s es' = some s' → s'.socket.serverMode = true) := by
  have hreached : Reached serverMode es s := by
    refine after_induction (P := Reached serverMode)
      (s := .new bootstrap (.new now serverMode requestTimeout) id server now) ?_ ?_ h
    · refine ⟨?_, fun hmode => Or.inl hmode⟩
      intro hopen
      cases hopen
    · intro es e u t v heard ending hu hfirst hsecond hheard _
      have hlater : Reached serverMode (es ++ [e]) u := by
        refine ⟨?_, ?_⟩
        · intro hopen
          obtain ⟨address, haddress, hpinged⟩ := hu.firewalled hopen
          exact ⟨address, haddress, hpinged.later [e]⟩
        · intro hmode
          rcases hu.switched hmode with hfirst | ⟨address, hpinged⟩
          · exact Or.inl hfirst
          · exact Or.inr ⟨address, hpinged.later [e]⟩
      refine Changes.invariant (fun x y hchange hx => hx.change hchange ?_)
        (hfirst.trans hsecond) hlater
      intro message address request hmessage hrequest hping
      exact ⟨e, List.mem_append_right es (List.mem_singleton_self e), message, request,
        hears_of_incoming (hheard message address hmessage), hrequest, hping⟩
  refine ⟨hreached.firewalled, hreached.switched, ?_⟩
  intro hmode es' s' hafter
  exact after_invariant (fun _ _ _ _ _ _ _ hchange => hchange.serverMode) hmode hafter

theorem firewalled_of_run_demo :
    ∃ s, after Server.demoCrypto demoNode demoRun = some s ∧ s.firewalled = false ∧
      ∃ address, s.publicAddress = some address ∧ Pinged demoRun address := by
  have hgoes : (after Server.demoCrypto demoNode demoRun).any
      (fun s => s.firewalled = false) = true := by decide +kernel
  obtain ⟨s, hs, hopen⟩ := (Option.any_eq_true _ _).mp hgoes
  have hreached :=
    (firewalled_of_run [] RoutingTable.zeroId Server.demoServer true 100 0 hs).1
  exact ⟨s, hs, of_decide_eq_true hopen, hreached (of_decide_eq_true hopen)⟩

end Firewall

end Nerea.Mainline.Rpc
