import Nerea.Mainline.RpcRuns

/-!
# Queries of a running node

Every value that a node hands out was checked against the target of the query that it came for,
and a value that a server keeps passes that check. The statistics of the cached queries add up
to what is in the cache, but for the queries for nodes, which are counted and never taken off.
-/

set_option autoImplicit false

namespace Nerea.Mainline

/-- What is checked of an answer before it is taken for a value of the target. The key of a
mutable item is not among it: any key may sign one. -/
def Response.Checked (crypto : Crypto) (target : Id) (salt : Option (List UInt8)) :
    Response → Prop
  | .peers _ => True
  | .immutable v => hashImmutable crypto v = target
  | .mutable item => item.target = target ∧ item.salt = salt ∧ item.Signed crypto

namespace IterativeQuery

variable {crypto : Crypto} {q q' : IterativeQuery}

theorem checked_of_value {message : Message} {response : Response}
    (h : q.value crypto message = some response) : response.Checked crypto q.target q.salt := by
  unfold value at h
  split at h
  · obtain rfl := Option.some.inj h
    trivial
  · split at h
    · rename_i hhash
      obtain rfl := Option.some.inj h
      rw [validateImmutable, decide_eq_true_iff] at hhash
      exact hhash
    · cases h
  · split at h
    · rename_i item hitem
      obtain rfl := Option.some.inj h
      obtain ⟨rfl, hsigned⟩ := MutableItem.fromDhtMessage_eq_ok.mp hitem
      exact ⟨rfl, rfl, hsigned⟩
    · cases h
  · cases h

/-- The query for the target and what it has found. -/
structure Sound (crypto : Crypto) (target : Id) (q : IterativeQuery) : Prop where
  checked : ∀ response ∈ q.responses, response.Checked crypto target q.salt
  target : q.target = target

theorem Same.salt (h : q.Same q') : q'.salt = q.salt := by
  rw [IterativeQuery.salt, IterativeQuery.salt, h.request]

theorem Sound.same {target : Id} (h : q.Sound crypto target) (hsame : q.Same q') :
    q'.Sound crypto target := by
  refine ⟨?_, hsame.target.trans h.target⟩
  rw [hsame.responses, hsame.salt]
  exact h.checked

theorem Sound.response {target : Id} (h : q.Sound crypto target) {message : Message}
    {response : Response} (hvalue : q.value crypto message = some response) :
    (q.response response).Sound crypto target := by
  refine ⟨?_, h.target⟩
  intro found hfound
  rcases List.mem_append.mp hfound with hold | hnew
  · exact h.checked found hold
  · obtain rfl := List.mem_singleton.mp hnew
    have hchecked := checked_of_value hvalue
    rw [h.target] at hchecked
    exact hchecked

end IterativeQuery

namespace Rpc

variable {crypto : Crypto} {s s' : Rpc}

section Values

/-- The queries under way lie under their targets, with checked values. -/
def Sound (crypto : Crypto) (s : Rpc) : Prop :=
  ∀ target query, s.iterativeQueries.lookup target = some query → query.Sound crypto target

theorem Sound.insert (h : Sound crypto s) {id : Id} {query : IterativeQuery}
    (hquery : query.Sound crypto id) :
    ∀ target found, (s.iterativeQueries.insert id query).lookup target = some found →
      found.Sound crypto target := by
  intro target found hfound
  by_cases htarget : target = id
  · subst htarget
    rw [AList.lookup_insert] at hfound
    obtain rfl := Option.some.inj hfound
    exact hquery
  · rw [AList.lookup_insert_ne htarget] at hfound
    exact h target found hfound

theorem Sound.change {m : Moment} {origin : Rpc} {call : Option Call}
    {heard : Option (Message × SocketAddrV4)} {ending : Over} (hs : Sound crypto s)
    (h : Change crypto m origin call heard ending s s') : Sound crypto s' := by
  cases h with
  | queried request query hnone hbegun =>
    refine hs.insert ⟨?_, hbegun.target⟩
    rw [hbegun.responses]
    exact fun response hmem => absurd hmem List.not_mem_nil
  | ticked id query query' hfound hsame => exact hs.insert ((hs id query hfound).same hsame)
  | answered id query message source response hheard hfound hvalue =>
    have hhear := query.same_hear m.now source message
    exact hs.insert (((hs id query hfound).same hhear).response hvalue)
  | learned id query message source hheard hanswer hreadOnly hfound hvalue =>
    exact hs.insert ((hs id query hfound).same (query.same_hear m.now source message))
  | finished id =>
    intro target query hfound
    by_cases htarget : target = id
    · rw [htarget, AList.lookup_erase] at hfound
      cases hfound
    · rw [AList.lookup_erase_ne htarget] at hfound
      exact hs target query hfound
  | cached query nodes =>
    obtain ⟨_, _, _, _, hcached⟩ := cacheIterativeQuery_frame s query nodes
    rw [hcached]
    exact hs
  | _ => exact hs

/-- A value that comes in is kept with the query that it answers. -/
theorem responses_of_handleResponse {m : Moment} {source : SocketAddrV4} {message : Message}
    {target : Id} {response : Response} (hs : Sound crypto s)
    (h : s.handleResponse crypto m source message = (s', some (target, response))) :
    ∃ query, s'.iterativeQueries.lookup target = some query ∧ response ∈ query.responses := by
  unfold handleResponse at h
  split at h
  · cases h
  · split at h
    · cases h
    · split at h
      · cases h
      · rename_i id query hfind
        simp only at h
        split at h
        · obtain ⟨rfl, hgiven⟩ := Prod.mk.inj h
          obtain ⟨rfl, rfl⟩ := Prod.mk.inj (Option.some.inj hgiven)
          have hfound : s.iterativeQueries.lookup id = some query :=
            lookup_of_find (p := fun q : IterativeQuery => q.inflight message.transactionId) hfind
          have htarget : (query.hear m.now source message).target = id :=
            ((hs id query hfound).same (query.same_hear m.now source message)).target
          rw [htarget]
          refine ⟨_, AList.lookup_insert _, ?_⟩
          exact List.mem_append_right _ (List.mem_singleton_self _)
        · cases h

theorem responses_of_handleMessage {m : Moment} {datagram : Option KrpcSocket.Datagram}
    {target : Id} {response : Response} (hs : Sound crypto s)
    (h : s.handleMessage crypto m datagram = (s', some (target, response))) :
    ∃ query, s'.iterativeQueries.lookup target = some query ∧ response ∈ query.responses := by
  unfold handleMessage at h
  simp only at h
  split at h
  · cases h
  · split at h
    · cases h
    · have hsocket : Sound crypto { s with socket := (s.socket.recvFrom m.now datagram).1 } := hs
      exact responses_of_handleResponse hsocket h

theorem of_responseFromInflightPut {target : Id} {response : Response}
    (h : s.responseFromInflightPut target = some response) :
    ∃ query args, s.putQueries.lookup target = some query ∧
      query.request = .putMutable args ∧ response = .mutable (.ofRequest args) := by
  unfold responseFromInflightPut at h
  split at h
  · rename_i existing hexisting
    split at h
    · rename_i args hargs
      exact ⟨existing, args, hexisting, hargs, (Option.some.inj h).symm⟩
    · cases h
  · cases h

/-- What a call of `get` hands out was found by the query under way, or is being put. -/
theorem responses_of_get {m : Moment} {request : GetRequestSpecific}
    {extraNodes : Option (List SocketAddrV4)} {responses : List Response}
    (h : (s.get m request extraNodes).2 = some responses) :
    ∀ response ∈ responses,
      (∃ query, s.iterativeQueries.lookup request.target = some query ∧
        response ∈ query.responses) ∨
      ∃ query args, s.putQueries.lookup request.target = some query ∧
        query.request = .putMutable args ∧ response = .mutable (.ofRequest args) := by
  intro response hmem
  unfold get at h
  simp only at h
  split at h
  · rename_i query hquery
    obtain rfl := Option.some.inj h
    rcases List.mem_append.mp hmem with hfound | hinflight
    · exact Or.inl ⟨query, hquery, hfound⟩
    · exact Or.inr (of_responseFromInflightPut (Option.mem_toList.mp hinflight))
  · obtain ⟨found, hfound, rfl⟩ := Option.map_eq_some_iff.mp h
    obtain rfl := List.mem_singleton.mp hmem
    exact Or.inr (of_responseFromInflightPut hfound)

/-- A step of the node keeps its queries sound. -/
theorem Sound.changes {m : Moment} {origin : Rpc} {call : Option Call}
    {heard : Option (Message × SocketAddrV4)} {ending : Over} (hs : Sound crypto s)
    (h : Changes crypto m origin call heard ending s s') : Sound crypto s' :=
  Changes.invariant (fun _ _ hchange hs => hs.change hchange) h hs

/-- A tick reports a value only when its query has found it. -/
theorem responses_of_tick {m : Moment} {datagram : Option KrpcSocket.Datagram}
    {report : RpcTickReport} {target : Id} {response : Response} (hs : Sound crypto s)
    (htick : s.tick crypto m datagram = some (s', report))
    (hreport : report.newQueryResponse = some (target, response)) :
    ∃ query, s'.iterativeQueries.lookup target = some query ∧ response ∈ query.responses ∧
      response.Checked crypto target query.salt := by
  obtain ⟨t, hbefore, hafter, hmessage, -⟩ := tick_changes htick
  have ht : Sound crypto t := hs.changes (hbefore none)
  have hs' : Sound crypto s' := ht.changes hafter
  rw [hreport] at hmessage
  obtain ⟨query, hfound, hmem⟩ := responses_of_handleMessage ht hmessage
  exact ⟨query, hfound, hmem, (hs' target query hfound).checked response hmem⟩

/-- After any run: the values that the queries have found are checked for their targets, a call
hands out such values only, besides what the node itself is about to put, and a tick reports a
value only when its query has found it. -/
theorem values_of_run (bootstrap : List SocketAddrV4) (socket : KrpcSocket) (id : Id)
    (server : Server) (now : ℕ) {es : List Event}
    (h : after crypto (.new bootstrap socket id server now) es = some s) :
    (∀ target query, s.iterativeQueries.lookup target = some query →
      query.target = target ∧
        ∀ response ∈ query.responses, response.Checked crypto target query.salt) ∧
    (∀ m request extraNodes responses, (s.get m request extraNodes).2 = some responses →
      ∀ response ∈ responses,
        (∃ query, s.iterativeQueries.lookup request.target = some query ∧
          response ∈ query.responses) ∨
        ∃ query args, s.putQueries.lookup request.target = some query ∧
          query.request = .putMutable args ∧ response = .mutable (.ofRequest args)) ∧
    ∀ m datagram s' report target response, s.tick crypto m datagram = some (s', report) →
      report.newQueryResponse = some (target, response) →
      ∃ query, s'.iterativeQueries.lookup target = some query ∧ response ∈ query.responses ∧
        response.Checked crypto target query.salt := by
  have hsound : Sound crypto s := by
    refine after_invariant (P := Sound crypto) (fun _ _ _ _ _ _ _ hchange hs => hs.change hchange)
      ?_ h
    intro target query hfound
    cases hfound
  refine ⟨?_, fun m request extraNodes responses => responses_of_get, ?_⟩
  · intro target query hfound
    exact ⟨(hsound target query hfound).target, (hsound target query hfound).checked⟩
  · intro m datagram s' report target response htick hreport
    exact responses_of_tick hsound htick hreport

/-- The node asks for a value and gets it. -/
def demoLookup : List Event :=
  [.get (demoMoment 0) (.getValue ⟨Server.demoHash, none, none⟩) (some [Server.demoSource]),
    .tick (demoMoment 0) (some (Server.demoSource,
      some ⟨0, none, none, .response (.getImmutable ⟨RoutingTable.oneId, [], none, [97]⟩), false⟩))]

theorem values_of_run_demo :
    ∃ s query, after Server.demoCrypto demoNode demoLookup = some s ∧
      s.iterativeQueries.lookup Server.demoHash = some query ∧ query.responses = [.immutable [97]] ∧
      ∀ response ∈ query.responses,
        response.Checked Server.demoCrypto Server.demoHash query.salt := by
  have hgoes : (after Server.demoCrypto demoNode demoLookup).any (fun s =>
      (s.iterativeQueries.lookup Server.demoHash).any
        (fun query => query.responses = [.immutable [97]])) = true := by decide +kernel
  obtain ⟨s, hs, hfound⟩ := (Option.any_eq_true _ _).mp hgoes
  obtain ⟨query, hquery, hresponses⟩ := (Option.any_eq_true _ _).mp hfound
  have hvalues := (values_of_run [] (.new 0 true 100) RoutingTable.zeroId Server.demoServer 0 hs).1
  exact ⟨s, query, hs, hquery, of_decide_eq_true hresponses, (hvalues _ query hquery).2⟩

end Values

section Found
variable {m : Moment} {origin : Rpc} {call : Option Call}
  {heard : Option (Message × SocketAddrV4)} {ending : Over}

/-- What a tick reports to have been found for the id. -/
def foundFor (report : Option (Id × Response)) (id : Id) : List Response :=
  match report with
  | some (target, response) => if target = id then [response] else []
  | none => []

theorem value_of_request {query : IterativeQuery} {message : Message} {request : RequestSpecific}
    (h : message.messageType = .request request) : query.value crypto message = none := by
  rw [IterativeQuery.value, h]

/-- A query that is not over goes on, and finds nothing but by an answer. -/
theorem Change.keeps_query (h : Change crypto m origin call heard ending s s')
    (hheard : ∀ message source, heard = some (message, source) →
      ∃ request, message.messageType = .request request) {id : Id} (hover : ¬ ending.gets id)
    {query : IterativeQuery} (hfound : s.iterativeQueries.lookup id = some query) :
    ∃ query', s'.iterativeQueries.lookup id = some query' ∧
      query'.responses = query.responses := by
  cases h with
  | queried request fresh hnone hbegun =>
    have hne : id ≠ request.target := by
      rintro rfl
      rw [hnone] at hfound
      cases hfound
    exact ⟨query, (AList.lookup_insert_ne hne).trans hfound, rfl⟩
  | ticked id' former latter hformer hsame =>
    by_cases hid : id = id'
    · subst hid
      obtain rfl := Option.some.inj (hformer.symm.trans hfound)
      exact ⟨latter, AList.lookup_insert _, hsame.responses⟩
    · exact ⟨query, (AList.lookup_insert_ne hid).trans hfound, rfl⟩
  | answered id' former message source response hmessage hformer hvalue =>
    obtain ⟨request, hrequest⟩ := hheard message source hmessage
    rw [value_of_request hrequest] at hvalue
    cases hvalue
  | learned id' former message source hmessage hanswer =>
    obtain ⟨request, hrequest⟩ := hheard message source hmessage
    exact absurd hrequest (hanswer request)
  | finished id' hfinished =>
    have hne : id ≠ id' := by
      rintro rfl
      exact hover hfinished
    exact ⟨query, (AList.lookup_erase_ne hne).trans hfound, rfl⟩
  | cached cached nodes =>
    obtain ⟨_, _, _, _, hcached⟩ := cacheIterativeQuery_frame s cached nodes
    rw [hcached]
    exact ⟨query, hfound, rfl⟩
  | _ => exact ⟨query, hfound, rfl⟩

theorem Changes.keeps_query (h : Changes crypto m origin call heard ending s s')
    (hheard : ∀ message source, heard = some (message, source) →
      ∃ request, message.messageType = .request request) {id : Id} (hover : ¬ ending.gets id)
    {query : IterativeQuery} (hfound : s.iterativeQueries.lookup id = some query) :
    ∃ query', s'.iterativeQueries.lookup id = some query' ∧
      query'.responses = query.responses := by
  refine Changes.invariant (P := fun t => ∃ query', t.iterativeQueries.lookup id = some query' ∧
    query'.responses = query.responses) ?_ h ⟨query, hfound, rfl⟩
  rintro t t' hchange ⟨query', hquery', hsame⟩
  obtain ⟨query'', hquery'', hsame'⟩ := hchange.keeps_query hheard hover hquery'
  exact ⟨query'', hquery'', hsame'.trans hsame⟩

theorem handleResponse_found {source : SocketAddrV4} {message : Message}
    {given : Option (Id × Response)} (hs : Sound crypto s)
    (h : s.handleResponse crypto m source message = (s', given)) {id : Id}
    {query : IterativeQuery} (hfound : s.iterativeQueries.lookup id = some query) :
    ∃ query', s'.iterativeQueries.lookup id = some query' ∧
      query'.responses = query.responses ++ foundFor given id := by
  have hnothing : ∃ query', s.iterativeQueries.lookup id = some query' ∧
      query'.responses = query.responses ++ foundFor none id :=
    ⟨query, hfound, (List.append_nil _).symm⟩
  unfold handleResponse at h
  split at h
  · obtain ⟨rfl, rfl⟩ := Prod.mk.inj h
    exact hnothing
  · split at h
    · obtain ⟨rfl, rfl⟩ := Prod.mk.inj h
      exact hnothing
    · split at h
      · obtain ⟨rfl, rfl⟩ := Prod.mk.inj h
        exact hnothing
      · rename_i id' asked hfind
        have hasked : s.iterativeQueries.lookup id' = some asked :=
          lookup_of_find (p := fun q : IterativeQuery => q.inflight message.transactionId) hfind
        have hhear : asked.Same (asked.hear m.now source message) :=
          asked.same_hear m.now source message
        simp only at h
        split at h
        · rename_i response hvalue
          obtain ⟨rfl, rfl⟩ := Prod.mk.inj h
          have htarget : (asked.hear m.now source message).target = id' :=
            hhear.target.trans (hs id' asked hasked).target
          rw [foundFor, htarget]
          by_cases hid : id' = id
          · subst hid
            obtain rfl := Option.some.inj (hasked.symm.trans hfound)
            refine ⟨_, AList.lookup_insert _, ?_⟩
            rw [if_pos rfl, IterativeQuery.response, hhear.responses]
          · rw [if_neg hid, List.append_nil]
            exact ⟨query, (AList.lookup_insert_ne (Ne.symm hid)).trans hfound, rfl⟩
        · obtain ⟨rfl, rfl⟩ := Prod.mk.inj h
          simp only [foundFor, List.append_nil]
          by_cases hid : id' = id
          · subst hid
            obtain rfl := Option.some.inj (hasked.symm.trans hfound)
            exact ⟨_, AList.lookup_insert _, hhear.responses⟩
          · exact ⟨query, (AList.lookup_insert_ne (Ne.symm hid)).trans hfound, rfl⟩

theorem handleMessage_found {datagram : Option KrpcSocket.Datagram}
    {given : Option (Id × Response)} (hs : Sound crypto s)
    (h : s.handleMessage crypto m datagram = (s', given)) {id : Id}
    {query : IterativeQuery} (hfound : s.iterativeQueries.lookup id = some query) :
    ∃ query', s'.iterativeQueries.lookup id = some query' ∧
      query'.responses = query.responses ++ foundFor given id := by
  unfold handleMessage at h
  simp only at h
  split at h
  · obtain ⟨rfl, rfl⟩ := Prod.mk.inj h
    exact ⟨query, hfound, (List.append_nil _).symm⟩
  · rename_i message source hreceived
    split at h
    · rename_i request hrequest
      obtain ⟨rfl, rfl⟩ := Prod.mk.inj h
      have hchanges : Changes crypto m s none (some (message, source))
          ⟨fun _ => False, fun _ => False⟩
          { s with socket := (s.socket.recvFrom m.now datagram).1 }
          ({ s with socket := (s.socket.recvFrom m.now datagram).1 }.handleRequest crypto m source
            message.transactionId request) :=
        handleRequest_changes _ rfl hrequest _
      have hrequests : ∀ message' source', some (message, source) = some (message', source') →
          ∃ request, message'.messageType = .request request := by
        intro message' source' heq
        obtain ⟨rfl, rfl⟩ := Prod.mk.inj (Option.some.inj heq)
        exact ⟨request, hrequest⟩
      simp only [foundFor, List.append_nil]
      exact hchanges.keeps_query hrequests not_false hfound
    · have hsocket : Sound crypto { s with socket := (s.socket.recvFrom m.now datagram).1 } := hs
      exact handleResponse_found hsocket h hfound

/-- A query that is not over after a tick has found what it had, and what the tick reports. -/
theorem tick_found {datagram : Option KrpcSocket.Datagram} {report : RpcTickReport}
    (hs : Sound crypto s) (h : s.tick crypto m datagram = some (s', report)) {id : Id}
    (hdone : ∀ e ∈ report.doneGetQueries, e.1 ≠ id) {query : IterativeQuery}
    (hfound : s.iterativeQueries.lookup id = some query) :
    ∃ query', s'.iterativeQueries.lookup id = some query' ∧
      query'.responses = query.responses ++ foundFor report.newQueryResponse id := by
  obtain ⟨t, hbefore, -, hmessage, -⟩ := tick_changes h
  have hsound : Sound crypto t := hs.changes (hbefore none)
  have hover : ¬ report.ending.gets id := by
    rintro ⟨e, he, heq⟩
    exact hdone e he heq
  obtain ⟨between, hbetween, hsame⟩ :=
    (hbefore none).keeps_query (fun _ _ hnone => by cases hnone) hover hfound
  obtain ⟨query', hquery', hresponses⟩ := handleMessage_found hsound hmessage hbetween
  exact ⟨query', hquery', hsame ▸ hresponses⟩

theorem checked_of_tick {datagram : Option KrpcSocket.Datagram} {report : RpcTickReport}
    (hs : Sound crypto s) (h : s.tick crypto m datagram = some (s', report)) {id : Id}
    {response : Response} (hfound : response ∈ foundFor report.newQueryResponse id) :
    ∃ salt, response.Checked crypto id salt := by
  cases hreport : report.newQueryResponse with
  | none =>
    rw [hreport] at hfound
    exact absurd hfound List.not_mem_nil
  | some found =>
    obtain ⟨target, value⟩ := found
    rw [hreport, foundFor] at hfound
    split at hfound
    · rename_i htarget
      subst htarget
      obtain rfl := List.mem_singleton.mp hfound
      obtain ⟨query, -, -, hchecked⟩ := responses_of_tick hs h hreport
      exact ⟨query.salt, hchecked⟩
    · exact absurd hfound List.not_mem_nil

/-- A call of `get` is answered with what its query has found, and with a put of our own. -/
theorem get_found (s : Rpc) (m : Moment) (request : GetRequestSpecific)
    (extraNodes : Option (List SocketAddrV4)) :
    ∃ query, (s.get m request extraNodes).1.iterativeQueries.lookup request.target = some query ∧
      (s.get m request extraNodes).2.getD [] =
        query.responses ++ (s.responseFromInflightPut request.target).toList := by
  unfold get
  simp only
  cases hfound : s.iterativeQueries.lookup request.target with
  | some query => exact ⟨query, hfound, rfl⟩
  | none =>
    refine ⟨_, AList.lookup_insert _, ?_⟩
    rw [(begun_seeded s m request extraNodes).responses]
    cases s.responseFromInflightPut request.target with
    | none => rfl
    | some response => rfl

end Found

section Served

/-- A value that a server gives is one for the query that asked for it. An immutable one is
always taken, and a mutable one if the query names the salt that it was put with. -/
theorem accepted_of_served (settings : ServerSettings) (tokens : Tokens) (es : List Server.Event)
    (request : GetRequestSpecific) {e : Server.Event} {q : IterativeQuery} {message : Message}
    {r : ResponseSpecific} (htarget : q.target = request.target)
    (hasked : e.request.requestType = request.requestType)
    (hreply : (Server.after crypto settings tokens es).reply crypto e = some (.response r))
    (hmessage : message.messageType = .response r) :
    (∀ args, r = .getImmutable args → q.value crypto message = some (.immutable args.v)) ∧
    ∀ args, r = .getMutable args →
      ∃ salt, (∃ e' ∈ es, Server.Puts crypto
          ⟨q.target, args.k, args.seq, args.v, args.sig, salt⟩ e') ∧
        (q.salt = salt → q.value crypto message
          = some (.mutable ⟨q.target, args.k, args.seq, args.v, args.sig, salt⟩)) := by
  have hvalue : ∀ args : GetValueRequestArguments, e.request.requestType = .getValue args →
      q.target = args.target := by
    intro args hargs
    rw [hargs] at hasked
    cases request with
    | findNode target => cases hasked
    | getPeers infoHash => cases hasked
    | getValue asked =>
      obtain rfl := RequestTypeSpecific.getValue.inj hasked
      exact htarget
  constructor
  · rintro args rfl
    obtain ⟨asked, hrequest, hr⟩ := Server.value_of_reply hreply trivial
    obtain ⟨-, hpeek⟩ := Server.getImmutable_of_handleGetValue hr.symm
    obtain ⟨-, -, -, hhash, -⟩ := Server.immutable_after hpeek
    rw [IterativeQuery.value, hmessage, hvalue asked hrequest]
    simp only
    rw [if_pos hhash]
  · rintro args rfl
    obtain ⟨asked, hrequest, hr⟩ := Server.value_of_reply hreply trivial
    obtain ⟨item, hpeek, hv, hk, hseq, hsig, -⟩ := Server.getMutable_of_handleGetValue hr.symm
    obtain ⟨hitem, e', he', hputs⟩ := Server.mutable_after hpeek
    have hsame : item = ⟨q.target, args.k, args.seq, args.v, args.sig, item.salt⟩ := by
      rw [hv, hk, hseq, hsig, hvalue asked hrequest, ← hitem]
    rw [hsame] at hputs
    refine ⟨item.salt, ⟨e', he', hputs⟩, ?_⟩
    intro hsalt
    rw [IterativeQuery.value, hmessage]
    simp only
    rw [hsalt, MutableItem.fromDhtMessage_eq_ok.mpr ⟨rfl, hputs.signed⟩]

/-- The answer to a request for the value that was put before. -/
def demoServed : GetImmutableResponseArguments :=
  ⟨RoutingTable.zeroId, Server.demoTokens.generateToken Server.demoSource, some [], [97]⟩

theorem accepted_of_served_demo :
    (IterativeQuery.new RoutingTable.zeroId Server.demoHash
        (.getValue ⟨Server.demoHash, none, none⟩)).value Server.demoCrypto
        ⟨0, none, none, .response (.getImmutable demoServed), false⟩
      = some (.immutable [97]) :=
  (accepted_of_served Server.demoSettings Server.demoTokens
    [Server.demoEvent Server.demoPutImmutable] (.getValue ⟨Server.demoHash, none, none⟩)
    (e := Server.demoEvent (.getValue ⟨Server.demoHash, none, none⟩))
    (r := .getImmutable demoServed) rfl rfl (by decide +kernel) rfl).1 demoServed rfl

end Served

section Statistics

/-- The subnets that the cached queries have found. -/
def cachedSubnets (entries : List (Id × CachedIterativeQuery)) : ℕ :=
  (entries.map (fun e => e.2.subnets)).sum

/-- The cached queries that are taken off when they go. -/
def cachedValues (entries : List (Id × CachedIterativeQuery)) : ℕ :=
  entries.countP (fun e => !e.2.isFindNode)

/-- How many queries for nodes were ever cached. -/
def findNodesCached (s : Rpc) : ℕ := s.everCached.countP CachedIterativeQuery.isFindNode

/-- The statistics add up, but a query for nodes that was counted is never taken off. -/
structure Stats (s : Rpc) : Prop where
  capacity : s.cachedIterativeQueries.capacity = maxCachedIterativeQueries
  subnets : s.subnetsSum = 20 + cachedSubnets s.cachedIterativeQueries.entries
  count : s.respondersBasedDhtSizeEstimatesCount =
    cachedValues s.cachedIterativeQueries.entries + s.findNodesCached

theorem cachedSubnets_cons (id : Id) (cached : CachedIterativeQuery)
    (entries : List (Id × CachedIterativeQuery)) :
    cachedSubnets ((id, cached) :: entries) = cached.subnets + cachedSubnets entries := by
  rw [cachedSubnets, List.map_cons, List.sum_cons]
  rfl

theorem cachedValues_cons (id : Id) (cached : CachedIterativeQuery)
    (entries : List (Id × CachedIterativeQuery)) :
    cachedValues ((id, cached) :: entries)
      = cachedValues entries + if cached.isFindNode then 0 else 1 := by
  rw [cachedValues, List.countP_cons]
  cases cached.isFindNode <;> rfl

theorem cachedSubnets_perm {entries entries' : List (Id × CachedIterativeQuery)}
    (h : entries.Perm entries') : cachedSubnets entries = cachedSubnets entries' :=
  (h.map _).sum_nat

theorem cachedValues_perm {entries entries' : List (Id × CachedIterativeQuery)}
    (h : entries.Perm entries') : cachedValues entries = cachedValues entries' :=
  h.countP_eq _

/-- A cached query that goes is taken off, whichever it is, but not from the count if it was one
for nodes. -/
theorem stats_decrement {id : Id} {cached : CachedIterativeQuery}
    {entries entries' : List (Id × CachedIterativeQuery)} {more : ℕ}
    (hperm : entries.Perm ((id, cached) :: entries'))
    (hsubnets : s.subnetsSum = 20 + cachedSubnets entries)
    (hcount : s.respondersBasedDhtSizeEstimatesCount = cachedValues entries + more) :
    (s.decrementCachedIterativeQueryStats (some cached)).subnetsSum
        = 20 + cachedSubnets entries' ∧
      (s.decrementCachedIterativeQueryStats
        (some cached)).respondersBasedDhtSizeEstimatesCount = cachedValues entries' + more := by
  rw [cachedSubnets_perm hperm, cachedSubnets_cons] at hsubnets
  rw [cachedValues_perm hperm, cachedValues_cons] at hcount
  unfold decrementCachedIterativeQueryStats
  simp only
  cases hkind : cached.isFindNode with
  | true =>
    rw [hkind] at hcount
    simp only [if_true] at hcount ⊢
    omega
  | false =>
    rw [hkind] at hcount
    simp only [Bool.false_eq_true, if_false] at hcount ⊢
    omega

theorem decrement_frame (s : Rpc) (cached : Option CachedIterativeQuery) :
    (s.decrementCachedIterativeQueryStats cached).cachedIterativeQueries
        = s.cachedIterativeQueries ∧
      (s.decrementCachedIterativeQueryStats cached).everCached = s.everCached := by
  cases cached with
  | none => exact ⟨rfl, rfl⟩
  | some cached => exact ⟨rfl, rfl⟩

/-- Making place keeps the statistics. -/
theorem stats_makePlace (hs : Stats s) :
    Stats s.makePlace ∧ s.makePlace.everCached = s.everCached ∧
      s.makePlace.cachedIterativeQueries.entries.length < maxCachedIterativeQueries := by
  unfold makePlace
  split
  · rename_i hfull
    have hle := s.cachedIterativeQueries.length_le
    rw [hs.capacity] at hle
    obtain ⟨front, ⟨id, cached⟩, hlast⟩ : ∃ front last,
        s.cachedIterativeQueries.entries = front ++ [last] := by
      have hne : s.cachedIterativeQueries.entries ≠ [] := by
        intro hnil
        rw [hnil] at hfull
        exact absurd hfull (by decide)
      exact ⟨_, _, (List.dropLast_append_getLast hne).symm⟩
    have hpop : s.cachedIterativeQueries.popLru.entries = front := by
      rw [Lru.Cache.entries_popLru, hlast, List.dropLast_concat]
    have hgone : s.cachedIterativeQueries.entries.getLast?.map Prod.snd = some cached := by
      rw [hlast, List.getLast?_concat]
      rfl
    have hperm : s.cachedIterativeQueries.entries.Perm ((id, cached) :: front) := by
      rw [hlast]
      exact List.perm_append_singleton _ _
    obtain ⟨hsubnets, hcount⟩ := stats_decrement
      (s := { s with cachedIterativeQueries := s.cachedIterativeQueries.popLru })
      hperm hs.subnets hs.count
    rw [hgone]
    have hentries : ({ s with cachedIterativeQueries := s.cachedIterativeQueries.popLru
        }.decrementCachedIterativeQueryStats (some cached)).cachedIterativeQueries.entries
          = front := hpop
    refine ⟨⟨hs.capacity, ?_, ?_⟩, rfl, ?_⟩
    · rw [hentries]
      exact hsubnets
    · rw [hentries]
      exact hcount
    · rw [hentries]
      rw [hlast, List.length_append, List.length_singleton] at hle
      exact hle
  · rename_i hplace
    exact ⟨hs, rfl, Nat.not_le.mp hplace⟩

/-- Once a query is cached under a target, what was there before is taken off. -/
theorem stats_replaced (hs : Stats s) (cached : CachedIterativeQuery) (target : Id) :
    ({ s with cachedIterativeQueries := s.cachedIterativeQueries.put target cached
      }.decrementCachedIterativeQueryStats (s.cachedIterativeQueries.peek target)).subnetsSum
        = 20 + cachedSubnets (Lru.without target s.cachedIterativeQueries.entries) ∧
    ({ s with cachedIterativeQueries := s.cachedIterativeQueries.put target cached
      }.decrementCachedIterativeQueryStats (s.cachedIterativeQueries.peek target)
        ).respondersBasedDhtSizeEstimatesCount
        = cachedValues (Lru.without target s.cachedIterativeQueries.entries)
          + s.findNodesCached := by
  cases hprevious : s.cachedIterativeQueries.peek target with
  | none =>
    rw [Lru.Cache.peek_eq_none hprevious]
    exact ⟨hs.subnets, hs.count⟩
  | some previous =>
    have hperm := Lru.perm_cons_without s.cachedIterativeQueries.nodup
      (Lru.Cache.peek_eq_some.mp hprevious)
    exact stats_decrement
      (s := { s with cachedIterativeQueries := s.cachedIterativeQueries.put target cached })
      hperm hs.subnets hs.count

/-- A query that is cached keeps the statistics. -/
theorem stats_cacheIterativeQuery (hs : Stats s) (query : IterativeQuery) (nodes : List Node) :
    Stats (s.cacheIterativeQuery query nodes) ∧
      s.everCached <:+ (s.cacheIterativeQuery query nodes).everCached := by
  obtain ⟨hstats, hever, hplace⟩ := stats_makePlace hs
  unfold cacheIterativeQuery
  simp only
  split
  · exact ⟨hstats, hever ▸ List.suffix_refl _⟩
  · rw [← hever]
    obtain ⟨hsubnets, hcount⟩ :=
      stats_replaced hstats ⟨nodes, query.closest.subnetsCount, query.isFindNode⟩ query.target
    rw [← hstats.capacity] at hplace
    have hentries := Lru.Cache.entries_put_of_lt query.target
      (⟨nodes, query.closest.subnetsCount, query.isFindNode⟩ : CachedIterativeQuery) hplace
    generalize s.makePlace = t at *
    have hsame := decrement_frame
      { t with
        cachedIterativeQueries := t.cachedIterativeQueries.put query.target
          ⟨nodes, query.closest.subnetsCount, query.isFindNode⟩ }
      (t.cachedIterativeQueries.peek query.target)
    refine ⟨⟨?_, ?_, ?_⟩, ?_⟩
    · simp only [hsame.1]
      exact hstats.capacity
    · simp only [hsame.1]
      rw [hentries, cachedSubnets_cons, hsubnets]
      simp only
      omega
    · simp only [findNodesCached, hsame.1, hsame.2]
      rw [hentries, cachedValues_cons, List.countP_cons, hcount, findNodesCached]
      simp only
      cases query.isFindNode with
      | true => simp only [if_true]; omega
      | false => simp only [Bool.false_eq_true, if_false]; omega
    · simp only [hsame.2]
      exact List.suffix_cons _ _

theorem Stats.change {m : Moment} {origin : Rpc} {call : Option Call}
    {heard : Option (Message × SocketAddrV4)} {ending : Over} (hs : Stats s)
    (h : Change crypto m origin call heard ending s s') :
    Stats s' ∧ s.everCached <:+ s'.everCached := by
  cases h with
  | touched target =>
    have hperm := Lru.Cache.perm_touch s.cachedIterativeQueries target
    refine ⟨⟨(Lru.Cache.capacity_touch _ _).trans hs.capacity, ?_, ?_⟩, List.suffix_refl _⟩
    · simp only
      rw [cachedSubnets_perm hperm]
      exact hs.subnets
    · simp only
      rw [cachedValues_perm hperm]
      exact hs.count
  | cached query nodes => exact stats_cacheIterativeQuery hs query nodes
  | _ => exact ⟨⟨hs.capacity, hs.subnets, hs.count⟩, List.suffix_refl _⟩

/-- After any run: the subnets of the cached queries are summed up, on top of the twenty of the
beginning, so that none is taken off that was not added. The count of queries is that of the
cached ones that are not for nodes, and of every one for nodes that was ever cached. However
the run goes on, these stay counted. -/
theorem stats_of_run (bootstrap : List SocketAddrV4) (socket : KrpcSocket) (id : Id)
    (server : Server) (now : ℕ) {es : List Event}
    (h : after crypto (.new bootstrap socket id server now) es = some s) :
    s.subnetsSum = 20 + cachedSubnets s.cachedIterativeQueries.entries ∧
    s.respondersBasedDhtSizeEstimatesCount =
      cachedValues s.cachedIterativeQueries.entries + s.findNodesCached ∧
    ∀ es' s', after crypto s es' = some s' → s.everCached <:+ s'.everCached := by
  have hnew : Stats (.new bootstrap socket id server now) := ⟨rfl, rfl, rfl⟩
  have hstats : Stats s :=
    after_invariant (fun _ _ _ _ _ _ _ hchange hs => (hs.change hchange).1) hnew h
  refine ⟨hstats.subnets, hstats.count, ?_⟩
  intro es' s' hafter
  have hboth : Stats s' ∧ s.everCached <:+ s'.everCached := by
    refine after_invariant (P := fun t => Stats t ∧ s.everCached <:+ t.everCached) ?_
      ⟨hstats, List.suffix_refl _⟩ hafter
    rintro m origin call heard ending t t' hchange ⟨ht, hle⟩
    obtain ⟨ht', hle'⟩ := ht.change hchange
    exact ⟨ht', hle.trans hle'⟩
  exact hboth.2

/-- The node asks for nodes and hears of one. It asks that one too, and is done later on. -/
def demoSearch : List Event :=
  [.get (demoMoment 0) (.findNode RoutingTable.oneId) (some [Server.demoSource]),
    .tick (demoMoment 0) (some (Server.demoSource, some ⟨0, none, none,
      .response (.findNode RoutingTable.oneId [.new RoutingTable.oneId demoAddress 0]), false⟩)),
    .tick (demoMoment 100) none,
    .tick (demoMoment 200) none]

theorem stats_of_run_demo :
    ∃ s, after Server.demoCrypto demoNode demoSearch = some s ∧
      s.cachedIterativeQueries.entries.length = 1 ∧ s.findNodesCached = 1 ∧
      s.respondersBasedDhtSizeEstimatesCount =
        cachedValues s.cachedIterativeQueries.entries + s.findNodesCached := by
  have hgoes : (after Server.demoCrypto demoNode demoSearch).any (fun s =>
      s.cachedIterativeQueries.entries.length = 1 ∧ s.findNodesCached = 1) = true := by
    decide +kernel
  obtain ⟨s, hs, hcached⟩ := (Option.any_eq_true _ _).mp hgoes
  obtain ⟨-, hcount, -⟩ :=
    stats_of_run [] (.new 0 true 100) RoutingTable.zeroId Server.demoServer 0 hs
  have hends := of_decide_eq_true hcached
  exact ⟨s, hs, hends.1, hends.2, hcount⟩

end Statistics

end Rpc

end Nerea.Mainline
