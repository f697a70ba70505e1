import Nerea.Mainline.Socket
import Nerea.Shared.Tally

/-!
# Put queries

A value is sent to the nodes that gave a token, and the query counts who stored it and which
errors came back. It is done when every node has answered or is late. A mutable item is given
up as soon as more than half of the nodes refuse it for one of two reasons.
-/

set_option autoImplicit false

namespace Nerea.Mainline

inductive PutQueryError where
  | noClosestNodes
  | errorResponse (error : ErrorSpecific)
  | timeout
deriving DecidableEq

inductive ConcurrencyError where
  | conflictRisk
  | notMostRecent
  | casFailed
deriving DecidableEq

inductive PutError where
  | query (error : PutQueryError)
  | concurrency (error : ConcurrencyError)
deriving DecidableEq

/-- A counter of eight bits; a build that checks for overflow stops instead. -/
def nextU8 (n : ℕ) : ℕ := (n + 1) % 256

structure PutQuery where
  target : Id
  storedAt : ℕ
  inflightRequests : List (BitVec 32)
  request : PutRequestSpecific
  errors : List (ℕ × ErrorSpecific)
  extraNodes : List Node

namespace PutQuery

def new (target : Id) (request : PutRequestSpecific) (extraNodes : Option (List Node)) :
    PutQuery :=
  ⟨target, 0, [], request, [], extraNodes.getD []⟩

variable (q : PutQuery) (socket : KrpcSocket) (now : ℕ)

def started : Bool := !q.inflightRequests.isEmpty

/-- The loop of `start`; `randomId` are the ids that are drawn, by the number of the request. -/
def sendAll (randomId : BitVec 32 → Id) (request : PutRequestSpecific) :
    List Node → KrpcSocket → List (BitVec 32) → KrpcSocket × List (BitVec 32)
  | [], socket, tids => (socket, tids)
  | node :: nodes, socket, tids =>
    match node.token with
    | some token =>
      let (socket, tid) := socket.request now node.address
        ⟨randomId socket.nextTid, .put ⟨token, request⟩⟩
      sendAll randomId request nodes socket (tids ++ [tid])
    | none => sendAll randomId request nodes socket tids

/-- Nothing where the source stops the program. -/
def start (randomId : BitVec 32 → Id) (closestNodes : List Node) :
    Option (Except PutError (PutQuery × KrpcSocket)) :=
  if q.started then none
  else if closestNodes.isEmpty then some (.error (.query .noClosestNodes))
  else if 255 < closestNodes.length then none
  else
    let (socket, tids) :=
      sendAll now randomId q.request (closestNodes ++ q.extraNodes) socket q.inflightRequests
    some (.ok ({ q with inflightRequests := tids }, socket))

def inflight (tid : BitVec 32) : Bool := q.inflightRequests.any (fun t => t = tid)

def success : PutQuery := { q with storedAt := nextU8 q.storedAt }

def error (error : ErrorSpecific) : PutQuery :=
  { q with errors := Tally.record ErrorSpecific.code nextU8 q.errors error }

def isDone : Bool := !q.inflightRequests.any (fun tid => socket.inflight now tid)

def mostCommonError : Option (ℕ × PutError) :=
  q.errors.head?.bind fun (count, error) =>
    if error.code = 301 then some (count, .concurrency .casFailed)
    else if error.code = 302 then some (count, .concurrency .notMostRecent)
    else none

def majorityNodesRejectedPutMutable : Option ConcurrencyError :=
  let half := (q.inflightRequests.length / 2 + 1) % 256
  match q.request with
  | .putMutable _ =>
    q.mostCommonError.bind fun (count, error) =>
      if half ≤ count then
        match error with
        | .concurrency err => some err
        | _ => none
      else none
  | _ => none

def tick : Except PutError Bool :=
  if q.inflightRequests.isEmpty then .ok false
  else if q.isDone socket now then
    if q.storedAt = 0 then
      .error ((q.mostCommonError.map Prod.snd).getD (.query .timeout))
    else .ok true
  else
    match q.majorityNodesRejectedPutMutable with
    | some mostCommonError => .error (.concurrency mostCommonError)
    | none => .ok false

/-- What a node may answer to a put. -/
inductive Reply where
  | success
  | error (error : ErrorSpecific)
deriving DecidableEq

def reply (q : PutQuery) : Reply → PutQuery
  | .success => q.success
  | .error err => q.error err

def Reply.isSuccess : Reply → Bool
  | .success => true
  | .error _ => false

def Reply.error? : Reply → Option ErrorSpecific
  | .success => none
  | .error err => some err

def replies (rs : List Reply) : PutQuery := rs.foldl reply q

/-- How many answers are errors of the code. -/
def rejections (rs : List Reply) (code : ℤ) : ℕ :=
  (rs.filterMap Reply.error?).countP (fun error => error.code = code)

section Replies
variable {q} {rs : List Reply}

theorem nextU8_of_lt : ∀ n < 255, nextU8 n = n + 1 := by
  intro n hn
  rw [nextU8, Nat.mod_eq_of_lt (by omega)]

theorem replies_concat (q : PutQuery) (rs : List Reply) (r : Reply) :
    q.replies (rs ++ [r]) = (q.replies rs).reply r := by
  rw [replies, List.foldl_append]
  rfl

/-- The answers change the counts only, each its own. -/
theorem replies_spec (q : PutQuery) (rs : List Reply) :
    q.replies rs = { q with
      storedAt := (rs.filter Reply.isSuccess).foldl (fun n _ => nextU8 n) q.storedAt
      errors := (rs.filterMap Reply.error?).foldl (Tally.record ErrorSpecific.code nextU8)
        q.errors } := by
  induction rs using List.reverseRecOn with
  | nil => rfl
  | append_singleton rs r ih =>
    rw [replies_concat, ih, List.filter_append, List.filterMap_append, List.foldl_append,
      List.foldl_append]
    cases r with
    | success => rfl
    | error err => rfl

theorem foldl_nextU8 (rs : List Reply) (n : ℕ) (h : n + rs.length < 256) :
    rs.foldl (fun n _ => nextU8 n) n = n + rs.length := by
  induction rs generalizing n with
  | nil => rfl
  | cons r rs ih =>
    rw [List.length_cons] at h ⊢
    rw [List.foldl_cons, nextU8_of_lt n (by omega), ih (n + 1) (by omega)]
    omega

/-- A query that has been started and has no answers yet. -/
structure Fresh (q : PutQuery) : Prop where
  started : q.inflightRequests ≠ []
  storedAt : q.storedAt = 0
  errors : q.errors = []

theorem storedAt_replies (h : q.Fresh) (hlen : rs.length < 256) :
    (q.replies rs).storedAt = (rs.filter Reply.isSuccess).length := by
  have hle : (rs.filter Reply.isSuccess).length ≤ rs.length := List.length_filter_le _ _
  rw [replies_spec, h.storedAt]
  simp only
  rw [foldl_nextU8 _ 0 (by omega), Nat.zero_add]

theorem counts_replies (h : q.Fresh) (hlen : rs.length < 256) :
    Tally.Counts ErrorSpecific.code (q.replies rs).errors (rs.filterMap Reply.error?) := by
  have hle : (rs.filterMap Reply.error?).length ≤ rs.length := List.length_filterMap_le _ _
  rw [replies_spec, h.errors]
  exact Tally.counts_foldl 255 nextU8_of_lt _ (by omega)

/-- Errors of two codes are different answers. -/
theorem rejections_add_le (rs : List Reply) {code code' : ℤ} (hne : code ≠ code') :
    rejections rs code + rejections rs code' ≤ rs.length := by
  have hle : (rs.filterMap Reply.error?).length ≤ rs.length := List.length_filterMap_le _ _
  refine Nat.le_trans ?_ hle
  unfold rejections
  induction rs.filterMap Reply.error? with
  | nil => exact Nat.le_refl 0
  | cons error errors ih =>
    rw [List.countP_cons, List.countP_cons, List.length_cons]
    simp only [decide_eq_true_eq]
    split
    · rename_i hcode
      rw [if_neg (by rw [hcode]; exact hne)]
      omega
    · split <;> omega

/-- The error that most nodes answered with, if there are errors. -/
theorem mostCommonError_spec (h : q.Fresh) (hlen : rs.length < 256) :
    ((∀ code, rejections rs code = 0) ∧ (q.replies rs).mostCommonError = none) ∨
    ∃ code, 0 < rejections rs code ∧ (∀ code', rejections rs code' ≤ rejections rs code) ∧
      (q.replies rs).mostCommonError
        = if code = 301 then some (rejections rs code, .concurrency .casFailed)
          else if code = 302 then some (rejections rs code, .concurrency .notMostRecent)
          else none := by
  have hcounts := counts_replies h hlen
  unfold mostCommonError
  cases herrors : (q.replies rs).errors with
  | nil =>
    left
    refine ⟨?_, rfl⟩
    intro code
    rw [rejections, List.countP_eq_zero]
    intro error herror
    obtain ⟨p, hp, -⟩ := hcounts.all error herror
    rw [herrors] at hp
    exact absurd hp List.not_mem_nil
  | cons p rest =>
    right
    rw [herrors] at hcounts
    have hcount : p.1 = rejections rs p.2.code := hcounts.count p List.mem_cons_self
    refine ⟨p.2.code, ?_, ?_, ?_⟩
    · exact List.countP_pos_iff.mpr ⟨p.2, hcounts.mem p List.mem_cons_self, decide_eq_true rfl⟩
    · intro code'
      rw [← hcount]
      exact hcounts.head_max code'
    · rw [← hcount]
      rfl

theorem isDone_replies (q : PutQuery) (rs : List Reply) (socket : KrpcSocket) (now : ℕ) :
    (q.replies rs).isDone socket now = q.isDone socket now := by
  rw [replies_spec]
  rfl

/-- What a query that every node has answered, or has left unanswered for too long, comes to:
it is stored if one node stored it, and fails else, with the reason that most nodes gave if it
is one of two, and as if no answer had come if it is another. -/
theorem tick_of_isDone (h : q.Fresh) (hlen : rs.length < 256) {socket : KrpcSocket} {now : ℕ}
    (hdone : q.isDone socket now = true) :
    (.success ∈ rs → (q.replies rs).tick socket now = .ok true) ∧
    (.success ∉ rs →
      ((∀ code, rejections rs code = 0) ∨ ∃ code, code ≠ 301 ∧ code ≠ 302 ∧
          ∀ code', rejections rs code' ≤ rejections rs code) ∧
        (q.replies rs).tick socket now = .error (.query .timeout) ∨
      (0 < rejections rs 301 ∧ ∀ code, rejections rs code ≤ rejections rs 301) ∧
        (q.replies rs).tick socket now = .error (.concurrency .casFailed) ∨
      (0 < rejections rs 302 ∧ ∀ code, rejections rs code ≤ rejections rs 302) ∧
        (q.replies rs).tick socket now = .error (.concurrency .notMostRecent)) := by
  have hstarted : (q.replies rs).inflightRequests.isEmpty = false := by
    rw [replies_spec]
    exact List.isEmpty_eq_false_iff.mpr h.started
  have htick : (q.replies rs).tick socket now
      = if (q.replies rs).storedAt = 0 then
          .error (((q.replies rs).mostCommonError.map Prod.snd).getD (.query .timeout))
        else .ok true := by
    rw [tick, hstarted, if_neg Bool.false_ne_true, isDone_replies, hdone, if_pos rfl]
  rw [htick, storedAt_replies h hlen]
  constructor
  · intro hsuccess
    have hmem : Reply.success ∈ rs.filter Reply.isSuccess := List.mem_filter.mpr ⟨hsuccess, rfl⟩
    rw [if_neg (Nat.ne_of_gt (List.length_pos_of_mem hmem))]
  · intro hnone
    have hempty : rs.filter Reply.isSuccess = [] := by
      rw [List.filter_eq_nil_iff]
      intro r hr
      cases r with
      | success => exact absurd hr hnone
      | error err => exact Bool.false_ne_true
    rw [hempty, List.length_nil, if_pos rfl]
    rcases mostCommonError_spec h hlen with ⟨hzero, hcommon⟩ | ⟨code, hpos, hmax, hcommon⟩
    · rw [hcommon]
      exact Or.inl ⟨Or.inl hzero, rfl⟩
    · rw [hcommon]
      by_cases hcas : code = 301
      · subst hcas
        exact Or.inr (Or.inl ⟨⟨hpos, hmax⟩, rfl⟩)
      · rw [if_neg hcas]
        by_cases hseq : code = 302
        · subst hseq
          exact Or.inr (Or.inr ⟨⟨hpos, hmax⟩, rfl⟩)
        · rw [if_neg hseq]
          exact Or.inl ⟨Or.inr ⟨code, hcas, hseq, hmax⟩, rfl⟩

/-- More than half of the nodes can only be those that gave the most common error. -/
theorem majority_spec (h : q.Fresh) (hlen : rs.length ≤ q.inflightRequests.length)
    (hfew : q.inflightRequests.length < 256) {args : PutMutableRequestArguments}
    (hrequest : q.request = .putMutable args) :
    (q.replies rs).majorityNodesRejectedPutMutable
      = if q.inflightRequests.length < 2 * rejections rs 301 then some .casFailed
        else if q.inflightRequests.length < 2 * rejections rs 302 then some .notMostRecent
        else none := by
  have hhalf : ((q.replies rs).inflightRequests.length / 2 + 1) % 256
      = q.inflightRequests.length / 2 + 1 := by
    rw [replies_spec]
    exact Nat.mod_eq_of_lt (by simp only; omega)
  have hrequest' : (q.replies rs).request = .putMutable args := by
    rw [replies_spec]
    exact hrequest
  unfold majorityNodesRejectedPutMutable
  rw [hhalf, hrequest']
  simp only
  rcases mostCommonError_spec h (Nat.lt_of_le_of_lt hlen hfew) with
    ⟨hzero, hcommon⟩ | ⟨code, hpos, hmax, hcommon⟩
  · rw [hcommon, hzero, hzero, if_neg (by omega), if_neg (by omega)]
    rfl
  · rw [hcommon]
    have hfirst := hmax 301
    have hsecond := hmax 302
    by_cases hcas : code = 301
    · subst hcas
      rw [if_pos rfl, Option.bind_some]
      by_cases hmajority : q.inflightRequests.length < 2 * rejections rs 301
      · rw [if_pos (by omega), if_pos hmajority]
      · rw [if_neg (by omega), if_neg hmajority, if_neg (by omega)]
    · rw [if_neg hcas]
      have hapart := rejections_add_le rs hcas
      by_cases hseq : code = 302
      · subst hseq
        rw [if_pos rfl, Option.bind_some]
        by_cases hmajority : q.inflightRequests.length < 2 * rejections rs 302
        · rw [if_pos (by omega), if_neg (by omega), if_pos hmajority]
        · rw [if_neg (by omega), if_neg (by omega), if_neg hmajority]
      · have hapart' := rejections_add_le rs hseq
        rw [if_neg hseq, Option.bind_none, if_neg (by omega), if_neg (by omega)]

/-- Before that, only a mutable item is given up, and only when more than half of the nodes
refused it for the same one of the two reasons, and at once then. -/
theorem tick_of_not_isDone (h : q.Fresh) (hlen : rs.length ≤ q.inflightRequests.length)
    (hfew : q.inflightRequests.length < 256) {socket : KrpcSocket} {now : ℕ}
    (hdone : q.isDone socket now = false) :
    (q.replies rs).tick socket now =
      match q.request with
      | .putMutable _ =>
        if q.inflightRequests.length < 2 * rejections rs 301 then
          .error (.concurrency .casFailed)
        else if q.inflightRequests.length < 2 * rejections rs 302 then
          .error (.concurrency .notMostRecent)
        else .ok false
      | _ => .ok false := by
  have hstarted : (q.replies rs).inflightRequests.isEmpty = false := by
    rw [replies_spec]
    exact List.isEmpty_eq_false_iff.mpr h.started
  have hsame : (q.replies rs).request = q.request := by rw [replies_spec]
  rw [tick, hstarted, if_neg Bool.false_ne_true, isDone_replies, hdone, if_neg Bool.false_ne_true]
  cases hrequest : q.request with
  | announcePeer args =>
    rw [majorityNodesRejectedPutMutable, hsame, hrequest]
  | putImmutable args =>
    rw [majorityNodesRejectedPutMutable, hsame, hrequest]
  | putMutable args =>
    rw [majority_spec h hlen hfew hrequest]
    simp only
    by_cases hcas : q.inflightRequests.length < 2 * rejections rs 301
    · rw [if_pos hcas, if_pos hcas]
    · rw [if_neg hcas, if_neg hcas]
      by_cases hseq : q.inflightRequests.length < 2 * rejections rs 302
      · rw [if_pos hseq, if_pos hseq]
      · rw [if_neg hseq, if_neg hseq]

/-- What the answers make of a query. When every node has answered or is late, the value is
stored if one node stored it, and else the query fails: with the reason that most nodes gave if
it is one of two, and as if no answer had come if it is another. Before that a mutable item is
given up as soon as more than half of the nodes refused it for the same one of the two. -/
theorem tick_replies (h : q.Fresh) (hlen : rs.length ≤ q.inflightRequests.length)
    (hfew : q.inflightRequests.length < 256) (socket : KrpcSocket) (now : ℕ) :
    (q.isDone socket now = true →
      (.success ∈ rs → (q.replies rs).tick socket now = .ok true) ∧
      (.success ∉ rs →
        ((∀ code, rejections rs code = 0) ∨ ∃ code, code ≠ 301 ∧ code ≠ 302 ∧
            ∀ code', rejections rs code' ≤ rejections rs code) ∧
          (q.replies rs).tick socket now = .error (.query .timeout) ∨
        (0 < rejections rs 301 ∧ ∀ code, rejections rs code ≤ rejections rs 301) ∧
          (q.replies rs).tick socket now = .error (.concurrency .casFailed) ∨
        (0 < rejections rs 302 ∧ ∀ code, rejections rs code ≤ rejections rs 302) ∧
          (q.replies rs).tick socket now = .error (.concurrency .notMostRecent))) ∧
    (q.isDone socket now = false →
      (q.replies rs).tick socket now =
        match q.request with
        | .putMutable _ =>
          if q.inflightRequests.length < 2 * rejections rs 301 then
            .error (.concurrency .casFailed)
          else if q.inflightRequests.length < 2 * rejections rs 302 then
            .error (.concurrency .notMostRecent)
          else .ok false
        | _ => .ok false) :=
  ⟨fun hdone => tick_of_isDone h (Nat.lt_of_le_of_lt hlen hfew) hdone,
    fun hdone => tick_of_not_isDone h hlen hfew hdone⟩

end Replies

/-- A put of a mutable item to three nodes. -/
def demoQuery : PutQuery where
  target := ⟨List.replicate idSize 0, rfl⟩
  storedAt := 0
  inflightRequests := [0, 1, 2]
  request := .putMutable ⟨⟨List.replicate idSize 0, rfl⟩, [], Vector.replicate 32 0, 1,
    Vector.replicate 64 0, none, none⟩
  errors := []
  extraNodes := []

/-- A socket that has sent one request and waits for the answer. -/
def demoWaiting : KrpcSocket :=
  ((KrpcSocket.new 0 false 1).request 0 ⟨⟨127, 0, 0, 1⟩, 6881⟩
    ⟨⟨List.replicate idSize 0, rfl⟩, .ping⟩).1

/-- Two of three nodes are more than half, whatever the third one says. -/
theorem tick_replies_cas :
    (demoQuery.replies [.error ⟨301, ""⟩, .error ⟨301, ""⟩]).tick demoWaiting 0
      = .error (.concurrency .casFailed) :=
  (tick_replies ⟨List.cons_ne_nil _ _, rfl, rfl⟩ (by decide) (by decide) demoWaiting 0).2
    (by decide)

end PutQuery

end Nerea.Mainline
