import Nerea.Mainline.RpcPuts
import Nerea.Shared.Waiters

/-!
# The thread of the node

The node runs in a thread of its own, which takes one message a turn and then lets the node
tick. Who asks for a value or puts one waits for what comes of it: calls for one target share
a query, and what the node reports goes to all of those that wait for it. Each put is answered
once, and no answer to a get is lost on the way or comes twice.
-/

set_option autoImplicit false

namespace Nerea.Mainline

/-- What the caller of a get wants to hear of. -/
inductive ResponseSender where
  | closestNodes
  | peers
  | mutable
  | immutable
deriving DecidableEq

def ResponseSender.accepts : ResponseSender → Response → Bool
  | .peers, .peers _ => true
  | .mutable, .mutable _ => true
  | .immutable, .immutable _ => true
  | _, _ => false

inductive ActorMessage where
  | put (request : PutRequestSpecific) (extraNodes : Option (List Node))
  | get (request : GetRequestSpecific) (sender : ResponseSender)

/-- The caller of a get, and what has been sent to it. -/
structure Getter where
  request : GetRequestSpecific
  sender : ResponseSender
  received : List Response
  closestNodes : Option (List Node)

namespace Getter

def send (getter : Getter) (response : Response) : Getter :=
  match getter.sender, response with
  | .peers, .peers _ => { getter with received := getter.received ++ [response] }
  | .mutable, .mutable _ => { getter with received := getter.received ++ [response] }
  | .immutable, .immutable _ => { getter with received := getter.received ++ [response] }
  | _, _ => getter

/-- Who asked for what. -/
def call (getter : Getter) : GetRequestSpecific × ResponseSender :=
  (getter.request, getter.sender)

theorem send_eq (getter : Getter) (response : Response) :
    getter.send response = { getter with
      received := getter.received ++ [response].filter getter.sender.accepts } := by
  obtain ⟨request, sender, received, closestNodes⟩ := getter
  cases sender <;> cases response <;> simp [send, List.filter, ResponseSender.accepts]

theorem foldl_send (responses : List Response) (getter : Getter) :
    responses.foldl send getter = { getter with
      received := getter.received ++ responses.filter getter.sender.accepts } := by
  induction responses generalizing getter with
  | nil => rw [List.foldl_nil, List.filter_nil, List.append_nil]
  | cons response responses ih =>
    have hcons : [response].filter getter.sender.accepts ++
        responses.filter getter.sender.accepts =
          (response :: responses).filter getter.sender.accepts := by
      rw [← List.filter_append, List.singleton_append]
    rw [List.foldl_cons, ih, send_eq, List.append_assoc, hcons]

/-- The query is over. -/
def finish (getter : Getter) (closestNodes : List Node) : Getter :=
  match getter.sender with
  | .closestNodes => { getter with closestNodes := some closestNodes }
  | _ => getter

theorem finish_frame (getter : Getter) (closestNodes : List Node) :
    ∃ nodes, getter.finish closestNodes = { getter with closestNodes := nodes } ∧
      (getter.sender = .closestNodes → nodes.isSome = true) := by
  unfold finish
  split
  · exact ⟨_, rfl, fun _ => rfl⟩
  · rename_i hother
    exact ⟨_, rfl, fun hsender => absurd hsender hother⟩

end Getter

/-- The thread: the node, those that wait, and those that have been served. -/
structure Actor where
  rpc : Rpc
  putSenders : Waiters Id PutRequestSpecific
  getSenders : Waiters Id Getter
  answered : List (PutRequestSpecific × Except PutError Id)
  served : List Getter

namespace Actor

def new (rpc : Rpc) : Actor := ⟨rpc, ∅, ∅, [], []⟩

variable (crypto : Crypto) (a : Actor) (m : Moment)

-- the messages that only look at the node, and the one for networks of tests, are left out
/-- Nothing where the source stops the program. -/
def handle : ActorMessage → Option Actor
  | .put request extraNodes =>
    match a.rpc.put m request extraNodes with
    | none => none
    | some (rpc, .ok ()) =>
      some { a with rpc := rpc, putSenders := a.putSenders.join request.target request }
    | some (rpc, .error err) =>
      some { a with rpc := rpc, answered := a.answered ++ [(request, .error err)] }
  | .get request sender =>
    let (rpc, responses) := a.rpc.get m request none
    let getter := (responses.getD []).foldl Getter.send ⟨request, sender, [], none⟩
    some { a with rpc := rpc, getSenders := a.getSenders.join request.target getter }

def newQueryResponse (report : Option (Id × Response)) : Actor :=
  match report with
  | some (target, response) =>
    { a with getSenders := a.getSenders.tell target (fun getter => getter.send response) }
  | none => a

def doneGetQuery (done : Id × List Node) : Actor :=
  match a.getSenders.lookup done.1 with
  | some senders =>
    { a with
      getSenders := a.getSenders.leave done.1
      served := a.served ++ senders.map (fun getter => getter.finish done.2) }
  | none => a

def donePutQuery (done : Id × Option PutError) : Actor :=
  match a.putSenders.lookup done.1 with
  | some senders =>
    let result : Except PutError Id :=
      match done.2 with
      | some error => .error error
      | none => .ok done.1
    { a with
      putSenders := a.putSenders.leave done.1
      answered := a.answered ++ senders.map (fun request => (request, result)) }
  | none => a

def deliver (report : RpcTickReport) : Actor :=
  report.donePutQueries.foldl donePutQuery
    (report.doneGetQueries.foldl doneGetQuery (a.newQueryResponse report.newQueryResponse))

/-- A message that has come comes with its own moment. -/
structure Turn where
  message : Option (Moment × ActorMessage)
  moment : Moment
  datagram : Option KrpcSocket.Datagram

def take (message : Option (Moment × ActorMessage)) : Option Actor :=
  match message with
  | some (m, message) => a.handle m message
  | none => some a

def turn (t : Turn) : Option Actor :=
  (a.take t.message).bind fun a =>
    (a.rpc.tick crypto t.moment t.datagram).map fun (rpc, report) =>
      { a with rpc := rpc }.deliver report

/-- The thread after some turns, if the program still goes on. -/
def after (turns : List Turn) : Option Actor :=
  Run.run (fun state t => state.bind fun a => turn crypto a t) (some a) turns

variable {crypto a m} {a' : Actor}

/-- The caller of a get is sent at once what there is, and waits. -/
theorem handle_get (a : Actor) (m : Moment) (request : GetRequestSpecific)
    (sender : ResponseSender) :
    a.handle m (.get request sender) = some { a with
      rpc := (a.rpc.get m request none).1
      getSenders := a.getSenders.join request.target
        (((a.rpc.get m request none).2.getD []).foldl Getter.send
          ⟨request, sender, [], none⟩) } := rfl

theorem handle_put {request : PutRequestSpecific} {extraNodes : Option (List Node)}
    (h : a.handle m (.put request extraNodes) = some a') :
    ∃ rpc result putSenders answered, a.rpc.put m request extraNodes = some (rpc, result) ∧
      a' = { a with rpc := rpc, putSenders := putSenders, answered := answered } := by
  simp only [handle] at h
  split at h
  · cases h
  · rename_i rpc hput
    obtain rfl := Option.some.inj h
    exact ⟨rpc, _, _, _, hput, rfl⟩
  · rename_i rpc error hput
    obtain rfl := Option.some.inj h
    exact ⟨rpc, _, _, _, hput, rfl⟩

theorem after_concat (turns : List Turn) (t : Turn) :
    after crypto a (turns ++ [t]) = (after crypto a turns).bind fun a => turn crypto a t :=
  Run.run_concat (some a) turns t

/-- What every turn keeps with the turns so far holds after every run. -/
theorem after_induction {P : List Turn → Actor → Prop} (ha : P [] a)
    (hturn : ∀ turns t b c, P turns b → turn crypto b t = some c → P (turns ++ [t]) c)
    {turns : List Turn} (h : after crypto a turns = some a') : P turns a' := by
  induction turns using List.reverseRecOn generalizing a' with
  | nil =>
    obtain rfl := Option.some.inj h
    exact ha
  | append_singleton turns t ih =>
    rw [after_concat] at h
    obtain ⟨b, hbefore, hlast⟩ := Option.bind_eq_some_iff.mp h
    exact hturn turns t b a' (ih hbefore) hlast

theorem turn_eq_some {t : Turn} (h : turn crypto a t = some a') :
    ∃ b rpc report, a.take t.message = some b ∧
      b.rpc.tick crypto t.moment t.datagram = some (rpc, report) ∧
      a' = { b with rpc := rpc }.deliver report := by
  obtain ⟨b, htake, hrest⟩ := Option.bind_eq_some_iff.mp h
  obtain ⟨⟨rpc, report⟩, htick, rfl⟩ := Option.map_eq_some_iff.mp hrest
  exact ⟨b, rpc, report, htake, htick, rfl⟩

section Deliver

theorem newQueryResponse_frame (a : Actor) (report : Option (Id × Response)) :
    ∃ getSenders, a.newQueryResponse report = { a with getSenders := getSenders } := by
  unfold newQueryResponse
  split
  · exact ⟨_, rfl⟩
  · exact ⟨_, rfl⟩

theorem doneGetQueries_frame (a : Actor) (done : List (Id × List Node)) :
    ∃ getSenders served,
      done.foldl doneGetQuery a = { a with getSenders := getSenders, served := served } := by
  induction done generalizing a with
  | nil => exact ⟨_, _, rfl⟩
  | cons next done ih =>
    obtain ⟨getSenders, served, hrest⟩ := ih (a.doneGetQuery next)
    refine ⟨getSenders, served, hrest.trans ?_⟩
    unfold doneGetQuery
    split
    · rfl
    · rfl

theorem donePutQueries_frame (a : Actor) (done : List (Id × Option PutError)) :
    ∃ putSenders answered,
      done.foldl donePutQuery a = { a with putSenders := putSenders, answered := answered } := by
  induction done generalizing a with
  | nil => exact ⟨_, _, rfl⟩
  | cons next done ih =>
    obtain ⟨putSenders, answered, hrest⟩ := ih (a.donePutQuery next)
    refine ⟨putSenders, answered, hrest.trans ?_⟩
    unfold donePutQuery
    split
    · rfl
    · rfl

theorem putSenders_donePutQuery (a : Actor) (done : Id × Option PutError) :
    (a.donePutQuery done).putSenders = a.putSenders.leave done.1 := by
  unfold donePutQuery
  split
  · rfl
  · rename_i hnone
    exact (Waiters.leave_of_lookup hnone).symm

theorem getSenders_doneGetQuery (a : Actor) (done : Id × List Node) :
    (a.doneGetQuery done).getSenders = a.getSenders.leave done.1 := by
  unfold doneGetQuery
  split
  · rfl
  · rename_i hnone
    exact (Waiters.leave_of_lookup hnone).symm

/-- Nobody waits any more for a put that is done. -/
theorem lookup_donePutQueries (done : List (Id × Option PutError)) (a : Actor) {id : Id} :
    (done.foldl donePutQuery a).putSenders.lookup id =
      if id ∈ done.map Prod.fst then none else a.putSenders.lookup id := by
  rw [← Waiters.lookup_leaveAll, List.foldl_map]
  congr 1
  induction done generalizing a with
  | nil => rfl
  | cons next done ih => rw [List.foldl_cons, ih, putSenders_donePutQuery, List.foldl_cons]

theorem lookup_doneGetQueries (done : List (Id × List Node)) (a : Actor) {id : Id} :
    (done.foldl doneGetQuery a).getSenders.lookup id =
      if id ∈ done.map Prod.fst then none else a.getSenders.lookup id := by
  rw [← Waiters.lookup_leaveAll, List.foldl_map]
  congr 1
  induction done generalizing a with
  | nil => rfl
  | cons next done ih => rw [List.foldl_cons, ih, getSenders_doneGetQuery, List.foldl_cons]

end Deliver

section Puts

/-- The put that is asked for in the turn. -/
def Turn.puts (t : Turn) : List PutRequestSpecific :=
  match t.message with
  | some (_, .put request _) => [request]
  | _ => []

/-- Every put that was asked for has been answered or waits under its target. -/
structure Puts (calls : List PutRequestSpecific) (a : Actor) : Prop where
  calls : calls.Perm (a.answered.map Prod.fst ++ a.putSenders.all)
  target : a.putSenders.Each fun id request => request.target = id
  result : ∀ request id, (request, .ok id) ∈ a.answered → request.target = id

/-- Those wait whose put is under way: it is the put of one of them. -/
structure Placed (a : Actor) : Prop where
  under : ∀ id ∈ a.putSenders, id ∈ a.rpc.putQueries
  request : ∀ id query, a.rpc.putQueries.lookup id = some query →
    ∃ senders, a.putSenders.lookup id = some senders ∧ query.request ∈ senders

variable {calls : List PutRequestSpecific} {request : PutRequestSpecific}

theorem Puts.join (h : Puts calls a) (rpc : Rpc) (request : PutRequestSpecific) :
    Puts (calls ++ [request])
      { a with rpc := rpc, putSenders := a.putSenders.join request.target request } where
  calls := by
    have hall : (a.answered.map Prod.fst ++ (a.putSenders.join request.target request).all).Perm
        (a.answered.map Prod.fst ++ (a.putSenders.all ++ [request])) :=
      List.Perm.append_left _ (a.putSenders.all_join request.target request)
    rw [← List.append_assoc] at hall
    exact (h.calls.append_right [request]).trans hall.symm
  target := h.target.join rfl
  result := h.result

theorem Puts.refuse (h : Puts calls a) (rpc : Rpc) (request : PutRequestSpecific)
    (error : PutError) :
    Puts (calls ++ [request])
      { a with rpc := rpc, answered := a.answered ++ [(request, .error error)] } where
  calls := by
    have hmove : (a.answered.map Prod.fst ++ a.putSenders.all ++ [request]).Perm
        (a.answered.map Prod.fst ++ [request] ++ a.putSenders.all) := by
      rw [List.append_assoc, List.append_assoc]
      exact List.Perm.append_left _ List.perm_append_comm
    simp only [List.map_append, List.map_cons, List.map_nil]
    exact (h.calls.append_right [request]).trans hmove
  target := h.target
  result := by
    intro request' id hmem
    rcases List.mem_append.mp hmem with hold | hnew
    · exact h.result request' id hold
    · cases List.mem_singleton.mp hnew

theorem Puts.donePutQuery (h : Puts calls a) (done : Id × Option PutError) :
    Puts calls (a.donePutQuery done) := by
  unfold Actor.donePutQuery
  split
  · rename_i senders hsenders
    have hanswered : ∀ result : Except PutError Id,
        (senders.map (fun request => (request, result))).map Prod.fst = senders := by
      intro result
      rw [List.map_map]
      exact List.map_id senders
    refine ⟨?_, h.target.leave done.1, ?_⟩
    · have hall := a.putSenders.all_perm done.1
      rw [hsenders, Option.getD_some] at hall
      simp only [List.map_append, hanswered, List.append_assoc]
      exact h.calls.trans (List.Perm.append_left _ hall)
    · intro request id hmem
      rcases List.mem_append.mp hmem with hold | hnew
      · exact h.result request id hold
      · obtain ⟨request', hrequest, heq⟩ := List.mem_map.mp hnew
        obtain ⟨rfl, hresult⟩ := Prod.mk.inj heq
        have htarget : request'.target = done.1 := h.target done.1 senders hsenders _ hrequest
        cases hdone : done.2 with
        | some error =>
          rw [hdone] at hresult
          cases hresult
        | none =>
          rw [hdone] at hresult
          rw [htarget]
          exact Except.ok.inj hresult
  · exact h

theorem Puts.handle {message : ActorMessage} (h : Puts calls a)
    (hmessage : a.handle m message = some a') :
    Puts (calls ++ Turn.puts ⟨some (m, message), m, none⟩) a' := by
  cases message with
  | put request extraNodes =>
    simp only [Actor.handle] at hmessage
    split at hmessage
    · cases hmessage
    · obtain rfl := Option.some.inj hmessage
      exact h.join _ request
    · obtain rfl := Option.some.inj hmessage
      exact h.refuse _ request _
  | get request sender =>
    rw [handle_get] at hmessage
    obtain rfl := Option.some.inj hmessage
    simp only [Turn.puts, List.append_nil]
    exact ⟨h.calls, h.target, h.result⟩

theorem Placed.handle {message : ActorMessage} (h : Placed a)
    (hmessage : a.handle m message = some a') : Placed a' := by
  cases message with
  | put request extraNodes =>
    simp only [Actor.handle] at hmessage
    split at hmessage
    · cases hmessage
    · rename_i rpc hput
      obtain rfl := Option.some.inj hmessage
      obtain ⟨⟨query, hquery, hwhose⟩, hother⟩ := Rpc.put_ok hput
      refine ⟨?_, ?_⟩
      · intro id hid
        rcases Waiters.mem_join.mp hid with rfl | hold
        · exact AList.lookup_isSome.mp (Option.isSome_iff_exists.mpr ⟨query, hquery⟩)
        · by_cases hsame : id = request.target
          · rw [hsame]
            exact AList.lookup_isSome.mp (Option.isSome_iff_exists.mpr ⟨query, hquery⟩)
          · have hunder := AList.lookup_isSome.mpr (h.under id hold)
            rw [← hother id hsame] at hunder
            exact AList.lookup_isSome.mp hunder
      · intro id found hfound
        by_cases hsame : id = request.target
        · subst hsame
          obtain rfl := Option.some.inj (hfound.symm.trans hquery)
          refine ⟨_, Waiters.lookup_join _ _ _, ?_⟩
          rcases hwhose with hnew | hold
          · rw [hnew]
            exact List.mem_append_right _ (List.mem_singleton_self _)
          · obtain ⟨senders, hsenders, hmem⟩ := h.request _ _ hold
            rw [hsenders]
            exact List.mem_append_left _ hmem
        · simp only at hfound
          rw [hother id hsame] at hfound
          obtain ⟨senders, hsenders, hmem⟩ := h.request id found hfound
          exact ⟨senders, (Waiters.lookup_join_ne hsame).trans hsenders, hmem⟩
    · rename_i rpc error hput
      obtain rfl := Option.some.inj hmessage
      obtain ⟨rfl, -⟩ := (Rpc.put_error_iff request extraNodes error).mp hput
      exact ⟨h.under, h.request⟩
  | get request sender =>
    rw [handle_get] at hmessage
    obtain rfl := Option.some.inj hmessage
    have hsame := Rpc.putQueries_get a.rpc m request none
    refine ⟨?_, ?_⟩
    · intro id hid
      simp only
      rw [hsame]
      exact h.under id hid
    · intro id query hquery
      simp only at hquery
      rw [hsame] at hquery
      exact h.request id query hquery

theorem Puts.take {t : Turn} (h : Puts calls a) (htake : a.take t.message = some a') :
    Puts (calls ++ t.puts) a' := by
  obtain ⟨message, moment, datagram⟩ := t
  cases message with
  | none =>
    obtain rfl := Option.some.inj htake
    simp only [Turn.puts, List.append_nil]
    exact h
  | some message => exact h.handle htake

theorem Placed.take {t : Turn} (h : Placed a) (htake : a.take t.message = some a') : Placed a' := by
  obtain ⟨message, moment, datagram⟩ := t
  cases message with
  | none =>
    obtain rfl := Option.some.inj htake
    exact h
  | some message => exact h.handle htake

theorem Puts.deliver (h : Puts calls a) (report : RpcTickReport) :
    Puts calls (a.deliver report) := by
  obtain ⟨getSenders, hfirst⟩ := a.newQueryResponse_frame report.newQueryResponse
  obtain ⟨getSenders', served, hsecond⟩ :=
    (a.newQueryResponse report.newQueryResponse).doneGetQueries_frame report.doneGetQueries
  have hbefore : Puts calls
      (report.doneGetQueries.foldl doneGetQuery (a.newQueryResponse report.newQueryResponse)) := by
    rw [hsecond, hfirst]
    exact ⟨h.calls, h.target, h.result⟩
  exact Run.invariant (fun _ done h => h.donePutQuery done) hbefore report.donePutQueries

theorem deliver_frame (a : Actor) (report : RpcTickReport) :
    (a.deliver report).rpc = a.rpc ∧ ∀ id, (a.deliver report).putSenders.lookup id =
      if id ∈ report.donePutQueries.map Prod.fst then none else a.putSenders.lookup id := by
  obtain ⟨getSenders, hfirst⟩ := a.newQueryResponse_frame report.newQueryResponse
  obtain ⟨getSenders', served, hsecond⟩ :=
    (a.newQueryResponse report.newQueryResponse).doneGetQueries_frame report.doneGetQueries
  refine ⟨?_, ?_⟩
  · obtain ⟨putSenders, answered, hthird⟩ := donePutQueries_frame
      (report.doneGetQueries.foldl doneGetQuery (a.newQueryResponse report.newQueryResponse))
      report.donePutQueries
    rw [deliver, hthird, hsecond, hfirst]
  · intro id
    rw [deliver, lookup_donePutQueries, hsecond, hfirst]

theorem Placed.tick {rpc : Rpc} {report : RpcTickReport} {datagram : Option KrpcSocket.Datagram}
    (h : Placed a) (htick : a.rpc.tick crypto m datagram = some (rpc, report)) :
    Placed ({ a with rpc := rpc }.deliver report) := by
  obtain ⟨hrpc, hlookup⟩ := { a with rpc := rpc }.deliver_frame report
  obtain ⟨hleft, hkept⟩ := Rpc.tick_puts htick
  refine ⟨?_, ?_⟩
  · intro id hid
    rw [← AList.lookup_isSome, hlookup] at hid
    split at hid
    · cases hid
    · rename_i hnot
      rw [hrpc]
      refine hkept id (h.under id (AList.lookup_isSome.mp hid)) ?_
      intro e he heq
      exact hnot (List.mem_map.mpr ⟨e, he, heq⟩)
  · intro id query hquery
    rw [hrpc] at hquery
    obtain ⟨hnot, former, hformer, hrequest⟩ := hleft id query hquery
    obtain ⟨senders, hsenders, hmem⟩ := h.request id former hformer
    refine ⟨senders, ?_, hrequest ▸ hmem⟩
    rw [hlookup, if_neg]
    · exact hsenders
    · intro hdone
      obtain ⟨e, he, heq⟩ := List.mem_map.mp hdone
      exact hnot e he heq

end Puts

section Gets

/-- The get that is asked for in the turn. -/
def Turn.gets (t : Turn) : List (GetRequestSpecific × ResponseSender) :=
  match t.message with
  | some (_, .get request sender) => [(request, sender)]
  | _ => []

/-- A value that was checked for the target, or one that the user has put there. -/
def Genuine (crypto : Crypto) (puts : List PutRequestSpecific) (target : Id)
    (response : Response) : Prop :=
  (∃ salt, response.Checked crypto target salt) ∨
    ∃ args, .putMutable args ∈ puts ∧ args.target = target ∧
      response = .mutable (.ofRequest args)

/-- The caller has been sent what the query for the id has found, as far as it is of its kind, in
the order it was found, and with it at most one item that the user is putting. -/
structure Follows (puts : List PutRequestSpecific) (id : Id) (responses : List Response)
    (getter : Getter) : Prop where
  target : getter.request.target = id
  received : ∃ found own later, responses = found ++ later ∧ own.length ≤ 1 ∧
    (∀ response ∈ own, ∃ args, .putMutable args ∈ puts ∧ args.target = id ∧
      response = .mutable (.ofRequest args)) ∧
    getter.received = (found ++ own ++ later).filter getter.sender.accepts

/-- Every get that was asked for has been served or waits under its target. -/
structure Served (crypto : Crypto) (puts : List PutRequestSpecific)
    (calls : List (GetRequestSpecific × ResponseSender)) (a : Actor) : Prop where
  calls : calls.Perm ((a.served ++ a.getSenders.all).map Getter.call)
  each : a.getSenders.Each fun id getter => getter.request.target = id ∧
    ∀ response ∈ getter.received, Genuine crypto puts id response
  served : ∀ getter ∈ a.served,
    (∀ response ∈ getter.received, Genuine crypto puts getter.request.target response) ∧
    (getter.sender = .closestNodes → getter.closestNodes.isSome = true)

/-- Those that wait follow a query that is under way. -/
structure Following (crypto : Crypto) (puts : List PutRequestSpecific) (a : Actor) : Prop where
  sound : a.rpc.Sound crypto
  follows : ∀ id senders, a.getSenders.lookup id = some senders →
    ∃ query, a.rpc.iterativeQueries.lookup id = some query ∧
      ∀ getter ∈ senders, Follows puts id query.responses getter

variable {puts puts' : List PutRequestSpecific} {id : Id} {responses more : List Response}
  {getter : Getter} {calls : List (GetRequestSpecific × ResponseSender)}

theorem Genuine.mono (hsub : puts ⊆ puts') {response : Response}
    (h : Genuine crypto puts id response) : Genuine crypto puts' id response := by
  rcases h with hchecked | ⟨args, hargs, hrest⟩
  · exact Or.inl hchecked
  · exact Or.inr ⟨args, hsub hargs, hrest⟩

theorem Follows.mono (hsub : puts ⊆ puts') (h : Follows puts id responses getter) :
    Follows puts' id responses getter := by
  obtain ⟨found, own, later, hresponses, hfew, hown, hreceived⟩ := h.received
  refine ⟨h.target, found, own, later, hresponses, hfew, ?_, hreceived⟩
  intro response hresponse
  obtain ⟨args, hargs, hrest⟩ := hown response hresponse
  exact ⟨args, hsub hargs, hrest⟩

/-- What is found later on is sent on. -/
theorem Follows.later (h : Follows puts id responses getter) (more : List Response) :
    Follows puts id (responses ++ more) (more.foldl Getter.send getter) := by
  obtain ⟨found, own, later, hresponses, hfew, hown, hreceived⟩ := h.received
  rw [Getter.foldl_send]
  refine ⟨h.target, found, own, later ++ more, ?_, hfew, hown, ?_⟩
  · rw [hresponses, List.append_assoc]
  · simp only
    rw [hreceived, ← List.filter_append, List.append_assoc _ later more]

theorem Follows.genuine (h : Follows puts id responses getter)
    (hchecked : ∀ response ∈ responses, ∃ salt, response.Checked crypto id salt) :
    ∀ response ∈ getter.received, Genuine crypto puts id response := by
  obtain ⟨found, own, later, hresponses, -, hown, hreceived⟩ := h.received
  intro response hresponse
  rw [hreceived] at hresponse
  have hmem := (List.mem_filter.mp hresponse).1
  rw [List.mem_append, List.mem_append] at hmem
  rcases hmem with (hfound | hmine) | hlater
  · exact Or.inl (hchecked response (hresponses ▸ List.mem_append_left later hfound))
  · exact Or.inr (hown response hmine)
  · exact Or.inl (hchecked response (hresponses ▸ List.mem_append_right found hlater))

theorem Following.genuine (h : Following crypto puts a) :
    a.getSenders.Each fun id getter => getter.request.target = id ∧
      ∀ response ∈ getter.received, Genuine crypto puts id response := by
  intro id senders hsenders getter hgetter
  obtain ⟨query, hquery, hfollows⟩ := h.follows id senders hsenders
  refine ⟨(hfollows getter hgetter).target, (hfollows getter hgetter).genuine ?_⟩
  exact fun response hresponse => ⟨_, (h.sound id query hquery).checked response hresponse⟩

/-- A query goes on when something is asked for. -/
theorem Following.keeps {rpc : Rpc} {call : Option Rpc.Call} {ending : Id → Prop}
    (h : Following crypto puts a) (hsub : puts ⊆ puts')
    (hchanges : Rpc.Changes crypto m a.rpc call none ⟨ending, fun _ => False⟩ a.rpc rpc) :
    Following crypto puts' { a with rpc := rpc } := by
  refine ⟨h.sound.changes hchanges, ?_⟩
  intro id senders hsenders
  obtain ⟨query, hquery, hfollows⟩ := h.follows id senders hsenders
  obtain ⟨query', hquery', hsame⟩ :=
    hchanges.keeps_query (fun _ _ hnone => by cases hnone) not_false hquery
  refine ⟨query', hquery', ?_⟩
  rw [hsame]
  exact fun getter hgetter => (hfollows getter hgetter).mono hsub

/-- The caller that comes in follows the query that it meets, or begins. -/
theorem Following.get (h : Following crypto puts a)
    (hown : ∀ target response, a.rpc.responseFromInflightPut target = some response →
      ∃ args, .putMutable args ∈ puts ∧ args.target = target ∧
        response = .mutable (.ofRequest args))
    {request : GetRequestSpecific} {sender : ResponseSender}
    (hmessage : a.handle m (.get request sender) = some a') : Following crypto puts a' := by
  rw [handle_get] at hmessage
  obtain rfl := Option.some.inj hmessage
  have hchanges : Rpc.Changes crypto m a.rpc (some (.get request)) none
      ⟨fun _ => False, fun _ => False⟩ a.rpc (a.rpc.get m request none).1 :=
    Rpc.get_changes _ _ _ (Or.inr ⟨_, rfl, rfl⟩)
  have hkept := h.keeps (List.Subset.refl _) hchanges
  obtain ⟨query, hquery, hresponses⟩ := a.rpc.get_found m request none
  refine ⟨hkept.sound, ?_⟩
  intro id senders hsenders
  by_cases hid : id = request.target
  · subst hid
    simp only at hsenders
    rw [Waiters.lookup_join] at hsenders
    obtain rfl := Option.some.inj hsenders
    refine ⟨query, hquery, ?_⟩
    intro getter hgetter
    rcases List.mem_append.mp hgetter with hold | hnew
    · cases hbefore : a.getSenders.lookup request.target with
      | none =>
        rw [hbefore] at hold
        exact absurd hold List.not_mem_nil
      | some others =>
        rw [hbefore] at hold
        obtain ⟨query', hquery', hfollows⟩ := hkept.follows request.target others hbefore
        obtain rfl := Option.some.inj (hquery'.symm.trans hquery)
        exact hfollows getter hold
    · rw [List.mem_singleton.mp hnew, Getter.foldl_send]
      refine ⟨rfl, query.responses, (a.rpc.responseFromInflightPut request.target).toList, [],
        (List.append_nil _).symm, ?_, ?_, ?_⟩
      · cases a.rpc.responseFromInflightPut request.target with
        | none => exact Nat.zero_le 1
        | some response => exact Nat.le_refl 1
      · exact fun response hmem => hown _ response (Option.mem_toList.mp hmem)
      · rw [hresponses, List.append_nil]
        rfl
  · simp only at hsenders
    rw [Waiters.lookup_join_ne hid] at hsenders
    exact hkept.follows id senders hsenders

theorem Following.handle {message : ActorMessage} (h : Following crypto puts a)
    (hown : ∀ target response, a.rpc.responseFromInflightPut target = some response →
      ∃ args, .putMutable args ∈ puts ∧ args.target = target ∧
        response = .mutable (.ofRequest args))
    (hmessage : a.handle m message = some a') :
    Following crypto (puts ++ Turn.puts ⟨some (m, message), m, none⟩) a' := by
  cases message with
  | put request extraNodes =>
    obtain ⟨rpc, result, putSenders, answered, hput, rfl⟩ := handle_put hmessage
    have hchanges : Rpc.Changes crypto m a.rpc (some (.put request)) none
        ⟨fun id => request.target = id, fun _ => False⟩ a.rpc rpc := Rpc.put_changes rfl rfl hput
    have hkept := h.keeps (List.subset_append_left puts [request]) hchanges
    exact ⟨hkept.sound, hkept.follows⟩
  | get request sender =>
    simp only [Turn.puts, List.append_nil]
    exact h.get hown hmessage

/-- The callers of a get are among the served or the waiting ones from then on. -/
theorem Served.handle {message : ActorMessage} (h : Served crypto puts calls a)
    (hfollowing : Following crypto puts' a') (hsub : puts ⊆ puts')
    (hmessage : a.handle m message = some a') :
    Served crypto puts' (calls ++ Turn.gets ⟨some (m, message), m, none⟩) a' := by
  have hserved : ∀ getter ∈ a.served,
      (∀ response ∈ getter.received, Genuine crypto puts' getter.request.target response) ∧
        (getter.sender = .closestNodes → getter.closestNodes.isSome = true) := by
    intro getter hgetter
    obtain ⟨hgenuine, hnodes⟩ := h.served getter hgetter
    exact ⟨fun response hresponse => (hgenuine response hresponse).mono hsub, hnodes⟩
  refine ⟨?_, hfollowing.genuine, ?_⟩
  · cases message with
    | put request extraNodes =>
      obtain ⟨rpc, result, putSenders, answered, hput, rfl⟩ := handle_put hmessage
      simp only [Turn.gets, List.append_nil]
      exact h.calls
    | get request sender =>
      rw [handle_get] at hmessage
      obtain rfl := Option.some.inj hmessage
      simp only [Turn.gets, Getter.foldl_send]
      have hjoin := (Waiters.all_join a.getSenders request.target ⟨request, sender,
        [] ++ ((a.rpc.get m request none).2.getD []).filter sender.accepts, none⟩).map Getter.call
      have hall := List.Perm.append_left (a.served.map Getter.call) hjoin
      have hcalls := h.calls
      rw [List.map_append] at hcalls ⊢
      rw [List.map_append, ← List.append_assoc] at hall
      exact (hcalls.append_right [(request, sender)]).trans hall.symm
  · cases message with
    | put request extraNodes =>
      obtain ⟨rpc, result, putSenders, answered, hput, rfl⟩ := handle_put hmessage
      exact hserved
    | get request sender =>
      rw [handle_get] at hmessage
      obtain rfl := Option.some.inj hmessage
      exact hserved

/-- Those that wait for the target are sent what is reported for it. -/
theorem lookup_newQueryResponse (a : Actor) (report : Option (Id × Response)) (id : Id) :
    (a.newQueryResponse report).getSenders.lookup id = (a.getSenders.lookup id).map
      (List.map fun getter => (Rpc.foundFor report id).foldl Getter.send getter) := by
  have hnothing : a.getSenders.lookup id = (a.getSenders.lookup id).map
      (List.map fun getter => ([] : List Response).foldl Getter.send getter) := by
    cases a.getSenders.lookup id with
    | none => rfl
    | some senders => exact congrArg some (List.map_id senders).symm
  unfold newQueryResponse
  cases report with
  | none => exact hnothing
  | some found =>
    obtain ⟨target, response⟩ := found
    simp only [Rpc.foundFor]
    by_cases hid : id = target
    · subst hid
      rw [Waiters.lookup_tell, if_pos rfl]
      rfl
    · rw [Waiters.lookup_tell_ne hid, if_neg (Ne.symm hid)]
      exact hnothing

theorem Served.newQueryResponse (h : Served crypto puts calls a)
    {report : Option (Id × Response)}
    (hchecked : ∀ id, ∀ response ∈ Rpc.foundFor report id,
      ∃ salt, response.Checked crypto id salt) :
    Served crypto puts calls (a.newQueryResponse report) := by
  refine ⟨?_, ?_, ?_⟩
  · have hcalls := h.calls
    rw [List.map_append] at hcalls ⊢
    unfold Actor.newQueryResponse
    cases report with
    | none => exact hcalls
    | some found =>
      have hcall : ∀ getter : Getter, (getter.send found.2).call = getter.call := by
        intro getter
        rw [Getter.send_eq]
        rfl
      have htold := Waiters.all_tell hcall a.getSenders found.1
      exact hcalls.trans (List.Perm.append_left _ htold.symm)
  · intro id senders hsenders getter hgetter
    rw [lookup_newQueryResponse] at hsenders
    obtain ⟨before, hbefore, rfl⟩ := Option.map_eq_some_iff.mp hsenders
    obtain ⟨former, hformer, rfl⟩ := List.mem_map.mp hgetter
    obtain ⟨htarget, hgenuine⟩ := h.each id before hbefore former hformer
    rw [Getter.foldl_send]
    refine ⟨htarget, ?_⟩
    intro response hresponse
    rcases List.mem_append.mp hresponse with hold | hnew
    · exact hgenuine response hold
    · exact Or.inl (hchecked id response (List.mem_filter.mp hnew).1)
  · obtain ⟨getSenders, hframe⟩ := a.newQueryResponse_frame report
    rw [hframe]
    exact h.served

theorem Served.doneGetQuery (h : Served crypto puts calls a) (done : Id × List Node) :
    Served crypto puts calls (a.doneGetQuery done) := by
  unfold Actor.doneGetQuery
  split
  · rename_i senders hsenders
    have hcall : (senders.map (fun getter => getter.finish done.2)).map Getter.call =
        senders.map Getter.call := by
      rw [List.map_map]
      refine List.map_congr_left (fun getter _ => ?_)
      obtain ⟨nodes, hfinish, -⟩ := getter.finish_frame done.2
      rw [Function.comp_apply, hfinish]
      rfl
    refine ⟨?_, h.each.leave done.1, ?_⟩
    · have hall := (a.getSenders.all_perm done.1).map Getter.call
      have hcalls := h.calls
      rw [hsenders, Option.getD_some, List.map_append] at hall
      rw [List.map_append] at hcalls
      simp only [List.map_append, hcall, List.append_assoc]
      exact hcalls.trans (List.Perm.append_left _ hall)
    · intro getter hgetter
      rcases List.mem_append.mp hgetter with hold | hnew
      · exact h.served getter hold
      · obtain ⟨former, hformer, rfl⟩ := List.mem_map.mp hnew
        obtain ⟨htarget, hgenuine⟩ := h.each done.1 senders hsenders former hformer
        obtain ⟨nodes, hfinish, hnodes⟩ := former.finish_frame done.2
        rw [hfinish]
        rw [← htarget] at hgenuine
        exact ⟨hgenuine, hnodes⟩
  · exact h

theorem Served.deliver (h : Served crypto puts calls a) {report : RpcTickReport}
    (hchecked : ∀ id, ∀ response ∈ Rpc.foundFor report.newQueryResponse id,
      ∃ salt, response.Checked crypto id salt) :
    Served crypto puts calls (a.deliver report) := by
  have hdone : Served crypto puts calls (report.doneGetQueries.foldl Actor.doneGetQuery
      (a.newQueryResponse report.newQueryResponse)) :=
    Run.invariant (fun _ done h => h.doneGetQuery done) (h.newQueryResponse hchecked)
      report.doneGetQueries
  obtain ⟨putSenders, answered, hlast⟩ := donePutQueries_frame
    (report.doneGetQueries.foldl Actor.doneGetQuery (a.newQueryResponse report.newQueryResponse))
    report.donePutQueries
  rw [Actor.deliver, hlast]
  exact ⟨hdone.calls, hdone.each, hdone.served⟩

theorem lookup_deliver (a : Actor) (report : RpcTickReport) (id : Id) :
    (a.deliver report).getSenders.lookup id =
      if id ∈ report.doneGetQueries.map Prod.fst then none else (a.getSenders.lookup id).map
        (List.map fun getter =>
          (Rpc.foundFor report.newQueryResponse id).foldl Getter.send getter) := by
  obtain ⟨putSenders, answered, hlast⟩ := donePutQueries_frame
    (report.doneGetQueries.foldl doneGetQuery (a.newQueryResponse report.newQueryResponse))
    report.donePutQueries
  rw [deliver, hlast, lookup_doneGetQueries, lookup_newQueryResponse]

theorem Following.tick {rpc : Rpc} {report : RpcTickReport}
    {datagram : Option KrpcSocket.Datagram} (h : Following crypto puts a)
    (htick : a.rpc.tick crypto m datagram = some (rpc, report)) :
    Following crypto puts ({ a with rpc := rpc }.deliver report) := by
  obtain ⟨hrpc, -⟩ := { a with rpc := rpc }.deliver_frame report
  refine ⟨?_, ?_⟩
  · obtain ⟨t, hbefore, hafter, -⟩ := Rpc.tick_changes htick
    rw [hrpc]
    exact (h.sound.changes (hbefore none)).changes hafter
  · intro id senders hsenders
    rw [lookup_deliver] at hsenders
    split at hsenders
    · cases hsenders
    · rename_i hnot
      obtain ⟨before, hbefore, rfl⟩ := Option.map_eq_some_iff.mp hsenders
      obtain ⟨query, hquery, hfollows⟩ := h.follows id before hbefore
      obtain ⟨query', hquery', hresponses⟩ := Rpc.tick_found h.sound htick
        (fun e he heq => hnot (List.mem_map.mpr ⟨e, he, heq⟩)) hquery
      rw [hrpc]
      refine ⟨query', hquery', ?_⟩
      intro getter hgetter
      obtain ⟨former, hformer, rfl⟩ := List.mem_map.mp hgetter
      rw [hresponses]
      exact (hfollows former hformer).later _

/-- What holds of the puts and the gets of a run. -/
structure Reached (crypto : Crypto) (turns : List Turn) (a : Actor) : Prop where
  puts : Puts (turns.flatMap Turn.puts) a
  placed : Placed a
  following : Following crypto (turns.flatMap Turn.puts) a
  served : Served crypto (turns.flatMap Turn.puts) (turns.flatMap Turn.gets) a

/-- An item that a get is handed out before it is stored was put by the user. -/
theorem own_of_placed {calls : List PutRequestSpecific} (hputs : Puts calls a) (h : Placed a)
    {target : Id} {response : Response}
    (hresponse : a.rpc.responseFromInflightPut target = some response) :
    ∃ args, .putMutable args ∈ calls ∧ args.target = target ∧
      response = .mutable (.ofRequest args) := by
  obtain ⟨query, args, hquery, hrequest, rfl⟩ := Rpc.of_responseFromInflightPut hresponse
  obtain ⟨senders, hsenders, hmem⟩ := h.request target query hquery
  rw [hrequest] at hmem
  refine ⟨args, ?_, hputs.target target senders hsenders _ hmem, rfl⟩
  have hall : .putMutable args ∈ a.putSenders.all := by
    have hsplit := (a.putSenders.all_perm target).mem_iff (a := .putMutable args)
    rw [hsenders] at hsplit
    exact hsplit.mpr (List.mem_append_left _ hmem)
  exact hputs.calls.mem_iff.mpr (List.mem_append_right _ hall)

theorem Served.take {t : Turn} (h : Served crypto puts calls a)
    (hfollowing : Following crypto (puts ++ t.puts) a') (htake : a.take t.message = some a') :
    Served crypto (puts ++ t.puts) (calls ++ t.gets) a' := by
  obtain ⟨message, moment, datagram⟩ := t
  cases message with
  | none =>
    obtain rfl := Option.some.inj htake
    simp only [Turn.puts, Turn.gets, List.append_nil]
    exact h
  | some message => exact h.handle hfollowing (List.subset_append_left _ _) htake

theorem Following.take {t : Turn} (h : Following crypto puts a)
    (hown : ∀ target response, a.rpc.responseFromInflightPut target = some response →
      ∃ args, .putMutable args ∈ puts ∧ args.target = target ∧
        response = .mutable (.ofRequest args))
    (htake : a.take t.message = some a') : Following crypto (puts ++ t.puts) a' := by
  obtain ⟨message, moment, datagram⟩ := t
  cases message with
  | none =>
    obtain rfl := Option.some.inj htake
    simp only [Turn.puts, List.append_nil]
    exact h
  | some message => exact h.handle hown htake

theorem Reached.turn {turns : List Turn} {t : Turn} (h : Reached crypto turns a)
    (hturn : a.turn crypto t = some a') : Reached crypto (turns ++ [t]) a' := by
  obtain ⟨b, rpc, report, htake, htick, rfl⟩ := turn_eq_some hturn
  have hputs := h.puts.take htake
  have hplaced := h.placed.take htake
  have hfollowing := h.following.take (fun _ _ => own_of_placed h.puts h.placed) htake
  have hserved := h.served.take hfollowing htake
  have hchecked : ∀ id, ∀ response ∈ Rpc.foundFor report.newQueryResponse id,
      ∃ salt, response.Checked crypto id salt :=
    fun id response hfound => Rpc.checked_of_tick hfollowing.sound htick hfound
  have hputs' : Puts (turns.flatMap Turn.puts ++ t.puts) { b with rpc := rpc } :=
    ⟨hputs.calls, hputs.target, hputs.result⟩
  have hserved' : Served crypto (turns.flatMap Turn.puts ++ t.puts)
      (turns.flatMap Turn.gets ++ t.gets) { b with rpc := rpc } :=
    ⟨hserved.calls, hserved.each, hserved.served⟩
  refine ⟨?_, hplaced.tick htick, ?_, ?_⟩
  · rw [List.flatMap_append, List.flatMap_singleton]
    exact hputs'.deliver report
  · rw [List.flatMap_append, List.flatMap_singleton]
    exact hfollowing.tick htick
  · rw [List.flatMap_append, List.flatMap_append, List.flatMap_singleton, List.flatMap_singleton]
    exact hserved'.deliver hchecked

theorem reached_new (crypto : Crypto) (bootstrap : List SocketAddrV4) (socket : KrpcSocket)
    (id : Id) (server : Server) (now : ℕ) :
    Reached crypto [] (.new (.new bootstrap socket id server now)) where
  puts := ⟨List.Perm.refl _, Waiters.each_empty _,
    fun _ _ hmem => absurd hmem List.not_mem_nil⟩
  placed := ⟨fun target htarget => absurd htarget (AList.notMem_empty target),
    fun _ _ hquery => (by cases hquery)⟩
  following := ⟨fun _ _ hquery => (by cases hquery), fun _ _ hsenders => (by cases hsenders)⟩
  served := ⟨List.Perm.refl _, Waiters.each_empty _,
    fun _ hmem => absurd hmem List.not_mem_nil⟩

theorem reached_after {bootstrap : List SocketAddrV4} {socket : KrpcSocket} {id : Id}
    {server : Server} {now : ℕ} {turns : List Turn}
    (h : after crypto (.new (.new bootstrap socket id server now)) turns = some a) :
    Reached crypto turns a :=
  after_induction (reached_new crypto bootstrap socket id server now)
    (fun _ _ _ _ hreached hturn => hreached.turn hturn) h

end Gets

section Runs

/-- Another node makes itself known, a value is asked for and comes, and one is put. -/
def demoTurns : List Turn :=
  [⟨none, Rpc.demoMoment 0, some (Rpc.demoAddress, some ⟨7, none, none,
      .request ⟨RoutingTable.zeroId, .findNode RoutingTable.oneId⟩, false⟩)⟩,
    ⟨some (Rpc.demoMoment 0, .get (.getValue ⟨Server.demoHash, none, none⟩) .immutable),
      Rpc.demoMoment 0, none⟩,
    ⟨some (Rpc.demoMoment 0, .put (.putImmutable ⟨RoutingTable.zeroId, [98]⟩) none),
      Rpc.demoMoment 0, some (Rpc.demoAddress, some ⟨0, none, none,
        .response (.getImmutable ⟨RoutingTable.oneId, [], none, [97]⟩), false⟩)⟩]

variable (bootstrap : List SocketAddrV4) (socket : KrpcSocket) (id : Id) (server : Server)
  (now : ℕ) {turns : List Turn}

/-- After any run, every put that was asked for has been answered, or waits for the put that is
under way for its target, and none is answered twice. That put is one of those that wait for it,
and an answer of success names the target that was asked for. -/
theorem puts_answered_once
    (h : after crypto (.new (.new bootstrap socket id server now)) turns = some a) :
    (turns.flatMap Turn.puts).Perm (a.answered.map Prod.fst ++ a.putSenders.all) ∧
    (∀ target senders, a.putSenders.lookup target = some senders →
      target ∈ a.rpc.putQueries ∧ ∀ request ∈ senders, request.target = target) ∧
    (∀ target query, a.rpc.putQueries.lookup target = some query →
      ∃ senders, a.putSenders.lookup target = some senders ∧ query.request ∈ senders) ∧
    ∀ request target, (request, .ok target) ∈ a.answered → request.target = target := by
  have hreached := reached_after h
  refine ⟨hreached.puts.calls, ?_, hreached.placed.request, hreached.puts.result⟩
  intro target senders hsenders
  refine ⟨hreached.placed.under target ?_, hreached.puts.target target senders hsenders⟩
  exact AList.lookup_isSome.mp (Option.isSome_iff_exists.mpr ⟨senders, hsenders⟩)

theorem puts_answered_once_demo :
    ∃ a, after Server.demoCrypto (.new Rpc.demoNode) demoTurns = some a ∧
      (demoTurns.flatMap Turn.puts).Perm (a.answered.map Prod.fst ++ a.putSenders.all) ∧
      a.putSenders.all ≠ [] := by
  have hgoes : (after Server.demoCrypto (.new Rpc.demoNode) demoTurns).any
      (fun a => a.putSenders.all ≠ []) = true := by decide +kernel
  obtain ⟨a, ha, hwaits⟩ := (Option.any_eq_true _ _).mp hgoes
  obtain ⟨hcalls, -⟩ :=
    puts_answered_once [] (.new 0 true 100) RoutingTable.zeroId Server.demoServer 0 ha
  exact ⟨a, ha, hcalls, of_decide_eq_true hwaits⟩

/-- After any run, every get that was asked for is over, or waits for the query that is under way
for its target. Whenever it came in, it has been sent what the query has found, in that order and
as far as it is of its kind, and besides it at most one item that the user is putting. One that
asks for nodes has got them when it is over. -/
theorem gets_follow
    (h : after crypto (.new (.new bootstrap socket id server now)) turns = some a) :
    (turns.flatMap Turn.gets).Perm ((a.served ++ a.getSenders.all).map Getter.call) ∧
    (∀ target senders, a.getSenders.lookup target = some senders →
      ∃ query, a.rpc.iterativeQueries.lookup target = some query ∧ ∀ getter ∈ senders,
        getter.request.target = target ∧
        ∃ found own later, query.responses = found ++ later ∧ own.length ≤ 1 ∧
          (∀ response ∈ own, ∃ args, .putMutable args ∈ turns.flatMap Turn.puts ∧
            args.target = target ∧ response = .mutable (.ofRequest args)) ∧
          getter.received = (found ++ own ++ later).filter getter.sender.accepts) ∧
    ∀ getter ∈ a.served, getter.sender = .closestNodes → getter.closestNodes.isSome = true := by
  have hreached := reached_after h
  refine ⟨hreached.served.calls, ?_, fun getter hgetter =>
    (hreached.served.served getter hgetter).2⟩
  intro target senders hsenders
  obtain ⟨query, hquery, hfollows⟩ := hreached.following.follows target senders hsenders
  refine ⟨query, hquery, ?_⟩
  intro getter hgetter
  exact ⟨(hfollows getter hgetter).target, (hfollows getter hgetter).received⟩

theorem gets_follow_demo :
    ∃ a, after Server.demoCrypto (.new Rpc.demoNode) demoTurns = some a ∧
      ∃ getter query, a.getSenders.lookup Server.demoHash = some [getter] ∧
        a.rpc.iterativeQueries.lookup Server.demoHash = some query ∧
        getter.received = [.immutable [97]] ∧
        ∃ found own later, query.responses = found ++ later ∧ own.length ≤ 1 ∧
          getter.received = (found ++ own ++ later).filter getter.sender.accepts := by
  have hgoes : (after Server.demoCrypto (.new Rpc.demoNode) demoTurns).any (fun a =>
      (a.getSenders.lookup Server.demoHash).any (fun senders => senders.length = 1 ∧
        ∀ getter ∈ senders, getter.received = [.immutable [97]])) = true := by decide +kernel
  obtain ⟨a, ha, hsenders⟩ := (Option.any_eq_true _ _).mp hgoes
  obtain ⟨senders, hfound, hboth⟩ := (Option.any_eq_true _ _).mp hsenders
  obtain ⟨hone, hreceived⟩ := of_decide_eq_true hboth
  obtain ⟨getter, rfl⟩ := List.length_eq_one_iff.mp hone
  obtain ⟨-, hfollow, -⟩ :=
    gets_follow [] (.new 0 true 100) RoutingTable.zeroId Server.demoServer 0 ha
  obtain ⟨query, hquery, hall⟩ := hfollow Server.demoHash [getter] hfound
  obtain ⟨-, found, own, later, hresponses, hfew, -, hrest⟩ :=
    hall getter (List.mem_singleton_self getter)
  exact ⟨a, ha, getter, query, hfound, hquery, hreceived getter (List.mem_singleton_self getter),
    found, own, later, hresponses, hfew, hrest⟩

/-- After any run, whoever asked for a value has been sent such only as were checked for its
target, or as the user has put there. -/
theorem received_genuine
    (h : after crypto (.new (.new bootstrap socket id server now)) turns = some a) :
    ∀ getter ∈ a.served ++ a.getSenders.all, ∀ response ∈ getter.received,
      (∃ salt, response.Checked crypto getter.request.target salt) ∨
        ∃ args, .putMutable args ∈ turns.flatMap Turn.puts ∧
          args.target = getter.request.target ∧ response = .mutable (.ofRequest args) := by
  have hserved := (reached_after h).served
  intro getter hgetter
  rcases List.mem_append.mp hgetter with hover | hwaits
  · exact (hserved.served getter hover).1
  · obtain ⟨target, htarget, hgenuine⟩ := hserved.each.mem_all hwaits
    rw [htarget]
    exact hgenuine

theorem received_genuine_demo :
    ∃ a getter response, after Server.demoCrypto (.new Rpc.demoNode) demoTurns = some a ∧
      getter ∈ a.served ++ a.getSenders.all ∧ response ∈ getter.received ∧
      ((∃ salt, response.Checked Server.demoCrypto getter.request.target salt) ∨
        ∃ args, .putMutable args ∈ demoTurns.flatMap Turn.puts ∧
          args.target = getter.request.target ∧ response = .mutable (.ofRequest args)) := by
  have hgoes : (after Server.demoCrypto (.new Rpc.demoNode) demoTurns).any (fun a =>
      (a.served ++ a.getSenders.all).any (fun getter => getter.received ≠ [])) = true := by
    decide +kernel
  obtain ⟨a, ha, hany⟩ := (Option.any_eq_true _ _).mp hgoes
  obtain ⟨getter, hgetter, hreceived⟩ := List.any_eq_true.mp hany
  obtain ⟨response, hresponse⟩ := List.exists_mem_of_ne_nil _ (of_decide_eq_true hreceived)
  exact ⟨a, getter, response, ha, hgetter, hresponse, received_genuine [] (.new 0 true 100)
    RoutingTable.zeroId Server.demoServer 0 ha getter hgetter response hresponse⟩

end Runs

end Actor

namespace Dht

/-- The loop of `get_mutable_most_recent`. -/
def moreRecent (mostRecent : Option MutableItem) (item : MutableItem) : Option MutableItem :=
  match mostRecent with
  | some mr => if item.seq = mr.seq ∧ mr.value < item.value then some item else some mr
  | none => some item

/-- The items are those that the caller receives, in the order they come. -/
def getMutableMostRecent (items : List MutableItem) : Option MutableItem :=
  items.foldl moreRecent none

theorem foldl_moreRecent (items : List MutableItem) (mr : MutableItem) :
    ∃ found, items.foldl moreRecent (some mr) = some found ∧ found ∈ mr :: items ∧
      found.seq = mr.seq ∧
      ∀ item ∈ mr :: items, item.seq = mr.seq → item.value ≤ found.value := by
  induction items generalizing mr with
  | nil =>
    refine ⟨mr, rfl, List.mem_cons_self, rfl, ?_⟩
    intro item hitem _
    rw [List.mem_singleton.mp hitem]
    exact List.le_refl _
  | cons next items ih =>
    rw [List.foldl_cons]
    by_cases hmore : next.seq = mr.seq ∧ mr.value < next.value
    · obtain ⟨found, hfold, hmem, hseq, hgreatest⟩ := ih next
      have hstep : moreRecent (some mr) next = some next := if_pos hmore
      rw [hstep]
      refine ⟨found, hfold, List.mem_cons_of_mem mr hmem, hseq.trans hmore.1, ?_⟩
      intro item hitem hsame
      rcases List.mem_cons.mp hitem with rfl | hrest
      · intro hless
        exact hgreatest next List.mem_cons_self rfl (List.lt_trans hless hmore.2)
      · exact hgreatest item hrest (hsame.trans hmore.1.symm)
    · obtain ⟨found, hfold, hmem, hseq, hgreatest⟩ := ih mr
      have hstep : moreRecent (some mr) next = some mr := if_neg hmore
      rw [hstep]
      have hfirst : mr.value ≤ found.value := hgreatest mr List.mem_cons_self rfl
      refine ⟨found, hfold, ?_, hseq, ?_⟩
      · rcases List.mem_cons.mp hmem with rfl | hrest
        · exact List.mem_cons_self
        · exact List.mem_cons_of_mem mr (List.mem_cons_of_mem next hrest)
      · intro item hitem hsame
        rcases List.mem_cons.mp hitem with rfl | hrest
        · exact hfirst
        · rcases List.mem_cons.mp hrest with rfl | hlater
          · intro hless
            exact hmore ⟨hsame, List.lt_of_le_of_lt hfirst hless⟩
          · exact hgreatest item (List.mem_cons_of_mem mr hlater) hsame

/-- What is given out has the number of the first item that came, and the greatest value under
that number. So it is the most recent one if and only if none that came later has a greater
number: a more recent item that comes after an older one is passed over. -/
theorem getMutableMostRecent_iff (first : MutableItem) (items : List MutableItem) :
    ∃ found, getMutableMostRecent (first :: items) = some found ∧ found ∈ first :: items ∧
      found.seq = first.seq ∧
      (∀ item ∈ first :: items, item.seq = first.seq → item.value ≤ found.value) ∧
      ((∀ item ∈ first :: items, item.seq ≤ found.seq) ↔
        ∀ item ∈ items, item.seq ≤ first.seq) := by
  obtain ⟨found, hfold, hmem, hseq, hgreatest⟩ := foldl_moreRecent items first
  refine ⟨found, hfold, hmem, hseq, hgreatest, ?_⟩
  rw [hseq, List.forall_mem_cons, and_iff_right (Int.le_refl _)]

end Dht

end Nerea.Mainline
