import Nerea.Mainline.Socket

/-!
# What comes through the socket

Over any run the socket gives out what it would give out without the sweeps. An answer that it
gives out is one to a request of its number that went to the address it comes from and is not
late, and there are no more answers of a number than requests of it.
-/

set_option autoImplicit false

namespace Nerea.Mainline.KrpcSocket

variable {s s' : KrpcSocket} {now : ℕ}

/-- Two sockets that differ in requests only that are late at the time. -/
structure Agree (now : ℕ) (s s' : KrpcSocket) : Prop where
  nextTid : s.nextTid = s'.nextTid
  serverMode : s.serverMode = s'.serverMode
  sent : s.sent = s'.sent
  timeout : s.inflightRequests.timeout = s'.inflightRequests.timeout
  requests : ∀ tid request, now - request.sentAt < s.inflightRequests.timeout →
    (s.inflightRequests.requests tid = some request ↔
      s'.inflightRequests.requests tid = some request)

theorem agree_refl (now : ℕ) (s : KrpcSocket) : Agree now s s :=
  ⟨rfl, rfl, rfl, rfl, fun _ _ _ => Iff.rfl⟩

theorem Agree.later {later : ℕ} (h : Agree now s s') (hle : now ≤ later) :
    Agree later s s' where
  nextTid := h.nextTid
  serverMode := h.serverMode
  sent := h.sent
  timeout := h.timeout
  requests := fun tid request hlive => h.requests tid request (by omega)

/-- An answer is taken by the one if it is taken by the other. -/
theorem Agree.remove (h : Agree now s s') (tid : BitVec 32) (source : SocketAddrV4) :
    (s.inflightRequests.remove tid now source).2
      = (s'.inflightRequests.remove tid now source).2 := by
  apply Option.ext
  intro request
  rw [InflightRequests.remove_eq_some, InflightRequests.remove_eq_some, ← h.timeout]
  constructor
  · rintro ⟨hfound, hearly, hmatch⟩
    exact ⟨(h.requests tid request hearly).mp hfound, hearly, hmatch⟩
  · rintro ⟨hfound, hearly, hmatch⟩
    exact ⟨(h.requests tid request hearly).mpr hfound, hearly, hmatch⟩

/-- Whether the socket waits for an answer does not depend on the sweeps either. -/
theorem Agree.inflight (h : Agree now s s') (tid : BitVec 32) :
    s.inflight now tid = s'.inflight now tid := by
  have hiff : s.inflight now tid = true ↔ s'.inflight now tid = true := by
    have hspec : ∀ k : KrpcSocket, k.inflight now tid = true ↔
        ∃ request, k.inflightRequests.requests tid = some request ∧
          now - request.sentAt < k.inflightRequests.timeout := by
      intro k
      unfold KrpcSocket.inflight InflightRequests.contains
      cases hfound : k.inflightRequests.requests tid with
      | none =>
        constructor
        · intro hfalse
          cases hfalse
        · rintro ⟨request, hsome, -⟩
          cases hsome
      | some found =>
        constructor
        · intro hearly
          exact ⟨found, rfl, of_decide_eq_true hearly⟩
        · rintro ⟨request, hsome, hearly⟩
          obtain rfl := Option.some.inj hsome
          exact decide_eq_true hearly
    rw [hspec, hspec, ← h.timeout]
    constructor
    · rintro ⟨request, hfound, hearly⟩
      exact ⟨request, (h.requests tid request hearly).mp hfound, hearly⟩
    · rintro ⟨request, hfound, hearly⟩
      exact ⟨request, (h.requests tid request hearly).mpr hfound, hearly⟩
  exact Bool.eq_iff_iff.mpr hiff

theorem agree_sweep (s : KrpcSocket) (now : ℕ) : Agree now (s.sweep now) s := by
  unfold sweep
  split
  · refine ⟨rfl, rfl, rfl, rfl, ?_⟩
    intro tid request hlive
    rw [InflightRequests.requests_cleanup]
    have hkept : now < request.sentAt + s.inflightRequests.timeout := by
      simp only [InflightRequests.cleanup] at hlive
      omega
    exact ⟨And.left, fun h => ⟨h, hkept⟩⟩
  · exact agree_refl now s

theorem Agree.trans {k : KrpcSocket} (h : Agree now s s') (h' : Agree now s' k) :
    Agree now s k where
  nextTid := h.nextTid.trans h'.nextTid
  serverMode := h.serverMode.trans h'.serverMode
  sent := h.sent.trans h'.sent
  timeout := h.timeout.trans h'.timeout
  requests := by
    intro tid request hlive
    rw [h.requests tid request hlive]
    exact h'.requests tid request (by rw [← h.timeout]; exact hlive)

/-- A taken number is taken out of both, and one that is not taken stays in both or was late. -/
theorem Agree.requests_remove (h : Agree now s s') (tid : BitVec 32) (source : SocketAddrV4)
    {tid' : BitVec 32} {request : InflightRequest}
    (hlive : now - request.sentAt < s.inflightRequests.timeout)
    (hfound : (s.inflightRequests.remove tid now source).1.requests tid' = some request) :
    (s'.inflightRequests.remove tid now source).1.requests tid' = some request := by
  have hbefore := (h.requests tid' request hlive).mp (InflightRequests.requests_of_remove hfound)
  by_cases htid : tid' = tid
  · subst htid
    have hsame := h.remove tid' source
    cases hremoved : (s.inflightRequests.remove tid' now source).2 with
    | some found =>
      rw [InflightRequests.requests_of_removed hremoved] at hfound
      cases hfound
    | none =>
      rw [hremoved] at hsame
      unfold InflightRequests.remove at hsame ⊢
      rw [hbefore] at hsame ⊢
      simp only at hsame ⊢
      split at hsame
      · rename_i hlate
        rw [← h.timeout] at hlate
        omega
      · rename_i hearly
        rw [if_neg hearly]
        split at hsame
        · rename_i hmatch
          rw [if_pos hmatch]
          exact hbefore
        · cases hsame
  · rw [InflightRequests.requests_remove_ne htid]
    exact hbefore

theorem Agree.symm (h : Agree now s s') : Agree now s' s where
  nextTid := h.nextTid.symm
  serverMode := h.serverMode.symm
  sent := h.sent.symm
  timeout := h.timeout.symm
  requests := by
    intro tid request hlive
    rw [← h.timeout] at hlive
    exact (h.requests tid request hlive).symm

theorem Agree.receive (h : Agree now s s') (datagram : Option Datagram) :
    Agree now (s.receive now datagram).1 (s'.receive now datagram).1 ∧
      (s.receive now datagram).2 = (s'.receive now datagram).2 := by
  match datagram with
  | none => exact ⟨h, rfl⟩
  | some (source, none) => exact ⟨h, rfl⟩
  | some (source, some message) =>
    by_cases hport : source.port = 0
    · unfold KrpcSocket.receive
      simp only
      rw [if_pos hport, if_pos hport]
      exact ⟨h, rfl⟩
    · by_cases hanswer : ∀ r, message.messageType ≠ .request r
      · rw [receive_of_answer hport hanswer, receive_of_answer hport hanswer, h.remove]
        refine ⟨⟨h.nextTid, h.serverMode, h.sent, ?_, ?_⟩, rfl⟩
        · simp only [InflightRequests.timeout_remove]
          exact h.timeout
        · intro tid request hlive
          rw [InflightRequests.timeout_remove] at hlive
          exact ⟨h.requests_remove _ _ hlive, h.symm.requests_remove _ _ (by
            rw [← h.timeout]
            exact hlive)⟩
      · push Not at hanswer
        obtain ⟨r, hrequest⟩ := hanswer
        rw [receive_of_request hport hrequest, receive_of_request hport hrequest]
        exact ⟨h, rfl⟩

theorem Agree.request (h : Agree now s s') (address : SocketAddrV4) (r : RequestSpecific) :
    Agree now (s.request now address r).1 (s'.request now address r).1 where
  nextTid := congrArg (· + 1) h.nextTid
  serverMode := h.serverMode
  sent := by
    unfold KrpcSocket.request requestMessage
    rw [h.nextTid, h.serverMode, h.sent]
  timeout := h.timeout
  requests := by
    intro tid request hlive
    unfold KrpcSocket.request InflightRequests.add
    simp only
    rw [h.nextTid]
    by_cases htid : tid = s'.nextTid
    · rw [htid, InflightRequests.requests_set_self, InflightRequests.requests_set_self]
    · rw [InflightRequests.requests_set_ne htid, InflightRequests.requests_set_ne htid]
      exact h.requests tid request hlive

/-- The times of the events do not go back. -/
def Ordered (start : ℕ) (es : List Event) : Prop :=
  (start :: es.map Event.now).Pairwise (· ≤ ·)

theorem agree_run {es : List Event} {start : ℕ} (h : Agree start s s')
    (hordered : Ordered start es) :
    Run.outputs step received s es = Run.outputs plainStep plainReceived s' es ∧
      ∀ now, (∀ t ∈ start :: es.map Event.now, t ≤ now) →
        Agree now (Run.run step s es) (Run.run plainStep s' es) := by
  induction es generalizing s s' start with
  | nil => exact ⟨rfl, fun now hnow => h.later (hnow start List.mem_cons_self)⟩
  | cons e es ih =>
    have hle : start ≤ e.now := (List.pairwise_cons.mp hordered).1 e.now List.mem_cons_self
    have hrest : Ordered e.now es := (List.pairwise_cons.mp hordered).2
    have hstep : Agree e.now (s.step e) (s'.plainStep e) ∧ s.received e = s'.plainReceived e := by
      cases e with
      | request address r now => exact ⟨(h.later hle).request address r, rfl⟩
      | recv datagram now => exact ((agree_sweep s now).trans (h.later hle)).receive datagram
    obtain ⟨houtputs, hlast⟩ := ih hstep.1 hrest
    refine ⟨?_, ?_⟩
    · rw [Run.outputs, Run.outputs, hstep.2, houtputs]
    · intro now hnow
      exact hlast now (fun t ht => hnow t (List.mem_cons_of_mem start ht))

/-- The sweeps change neither what the socket gives out nor what it says it waits for, whenever
they happen. -/
theorem sweep_unseen (serverMode : Bool) (requestTimeout start : ℕ) (es : List Event)
    (hordered : Ordered start es) :
    Run.outputs step received (new start serverMode requestTimeout) es
      = Run.outputs plainStep plainReceived (new start serverMode requestTimeout) es ∧
    ∀ now tid, (∀ t ∈ start :: es.map Event.now, t ≤ now) →
      (Run.run step (new start serverMode requestTimeout) es).inflight now tid
        = (Run.run plainStep (new start serverMode requestTimeout) es).inflight now tid := by
  obtain ⟨houtputs, hlast⟩ := agree_run (agree_refl start _) hordered
  exact ⟨houtputs, fun now tid hnow => (hlast now hnow).inflight tid⟩

def demoPeer : SocketAddrV4 := ⟨⟨127, 0, 0, 1⟩, 6881⟩

def demoId : Id := ⟨List.replicate 20 7, rfl⟩

/-- A ping, and an answer that comes when the ping may have been swept out. -/
def demoLate : List Event :=
  [.request demoPeer ⟨demoId, .ping⟩ 0,
    .recv (some (demoPeer, some ⟨0, none, none, .response (.ping demoId), false⟩)) (secs 1)]

theorem sweep_unseen_late :
    Run.outputs step received (new 0 false 1) demoLate
      = Run.outputs plainStep plainReceived (new 0 false 1) demoLate :=
  (sweep_unseen false 1 0 demoLate (by
    refine List.pairwise_cons.mpr ⟨fun t _ => Nat.zero_le t, List.pairwise_cons.mpr ⟨?_, ?_⟩⟩
    · exact fun t _ => Nat.zero_le t
    · exact List.pairwise_singleton _ _)).1

/-- An answer that is given out, with where it comes from and when. -/
structure Answer where
  message : Message
  source : SocketAddrV4
  now : ℕ

/-- The answers of a run; requests of others that are given out are none. -/
def answers : KrpcSocket → List Event → List Answer
  | _, [] => []
  | s, .request address r now :: es => answers (s.step (.request address r now)) es
  | s, .recv datagram now :: es =>
    match (s.recvFrom now datagram).2 with
    | some (⟨_, _, _, .request _, _⟩, _) | none => answers (s.step (.recv datagram now)) es
    | some (message, source) => ⟨message, source, now⟩ :: answers (s.step (.recv datagram now)) es

/-- The requests of a run under their numbers. -/
def issued : KrpcSocket → List Event → List (BitVec 32 × InflightRequest)
  | _, [] => []
  | s, .request address r now :: es =>
    (s.nextTid, ⟨address, now⟩) :: issued (s.step (.request address r now)) es
  | s, .recv datagram now :: es => issued (s.step (.recv datagram now)) es

/-- What is waited for after a look at the socket was waited for before. -/
theorem requests_of_recvFrom {datagram : Option Datagram} {tid : BitVec 32}
    {request : InflightRequest}
    (h : (s.recvFrom now datagram).1.inflightRequests.requests tid = some request) :
    s.inflightRequests.requests tid = some request := by
  have hsweep : (s.sweep now).inflightRequests.requests tid = some request →
      s.inflightRequests.requests tid = some request := by
    unfold sweep
    split
    · exact fun hcleanup => (InflightRequests.requests_cleanup.mp hcleanup).1
    · exact id
  apply hsweep
  rcases receive_cases (s.sweep now) now datagram with heq | ⟨source, message, r, -, heq⟩ |
    ⟨source, message, -, heq⟩
  · rw [recvFrom, heq] at h
    exact h
  · rw [recvFrom, heq] at h
    exact h
  · rw [recvFrom, heq] at h
    exact InflightRequests.requests_of_remove h

theorem frame_recvFrom (s : KrpcSocket) (now : ℕ) (datagram : Option Datagram) :
    (s.recvFrom now datagram).1.nextTid = s.nextTid ∧
      (s.recvFrom now datagram).1.inflightRequests.timeout = s.inflightRequests.timeout := by
  have hsweep : (s.sweep now).nextTid = s.nextTid ∧
      (s.sweep now).inflightRequests.timeout = s.inflightRequests.timeout := by
    unfold sweep
    split <;> exact ⟨rfl, rfl⟩
  rcases receive_cases (s.sweep now) now datagram with heq | ⟨source, message, r, -, heq⟩ |
    ⟨source, message, -, heq⟩
  · rw [recvFrom, heq]
    exact hsweep
  · rw [recvFrom, heq]
    exact hsweep
  · rw [recvFrom, heq]
    exact ⟨hsweep.1, (InflightRequests.timeout_remove _ _ _ _).trans hsweep.2⟩

/-- An answer that is given out is one that was waited for, and is not waited for any more. -/
theorem answer_of_recvFrom {datagram : Option Datagram} {message : Message}
    {source : SocketAddrV4} (h : (s.recvFrom now datagram).2 = some (message, source))
    (hanswer : ∀ r, message.messageType ≠ .request r) :
    (∃ request, s.inflightRequests.requests message.transactionId = some request ∧
      now - request.sentAt < s.inflightRequests.timeout ∧ request.doesMatch source = true) ∧
    (s.recvFrom now datagram).1.inflightRequests.requests message.transactionId = none := by
  have hagree := agree_sweep s now
  rcases receive_cases (s.sweep now) now datagram with heq | ⟨source', message', r, hr, heq⟩ |
    ⟨source', message', -, heq⟩
  · rw [recvFrom, heq] at h
    cases h
  · rw [recvFrom, heq] at h
    obtain ⟨rfl, rfl⟩ := Prod.mk.inj (Option.some.inj h)
    exact absurd hr (hanswer r)
  · rw [recvFrom, heq] at h ⊢
    simp only at h ⊢
    split at h
    · rename_i htaken
      obtain ⟨rfl, rfl⟩ := Prod.mk.inj (Option.some.inj h)
      obtain ⟨request, hremoved⟩ := Option.isSome_iff_exists.mp htaken
      obtain ⟨hfound, hearly, hmatch⟩ := InflightRequests.remove_eq_some.mp hremoved
      have hfound' := (hagree.requests _ request hearly).mp hfound
      exact ⟨⟨request, hfound', hagree.timeout ▸ hearly, hmatch⟩,
        InflightRequests.requests_of_removed hremoved⟩
    · cases h

/-- What a run gives out at a look at the socket: nothing that counts, or an answer. -/
theorem answers_recv (s : KrpcSocket) (datagram : Option Datagram) (now : ℕ) (es : List Event) :
    answers s (.recv datagram now :: es) = answers (s.step (.recv datagram now)) es ∨
    ∃ message source, (∀ r, message.messageType ≠ .request r) ∧
      (s.recvFrom now datagram).2 = some (message, source) ∧
      answers s (.recv datagram now :: es)
        = ⟨message, source, now⟩ :: answers (s.step (.recv datagram now)) es := by
  rw [answers]
  split
  · exact Or.inl rfl
  · exact Or.inl rfl
  · rename_i message source hother hreceived
    refine Or.inr ⟨message, source, ?_, hreceived, rfl⟩
    intro r hr
    exact hother message.transactionId message.version message.requesterIp r message.readOnly
      (by rw [← hr])

theorem answer_origin {s : KrpcSocket} {es : List Event} {a : Answer} (ha : a ∈ answers s es) :
    ∃ request, (s.inflightRequests.requests a.message.transactionId = some request ∨
        (a.message.transactionId, request) ∈ issued s es) ∧
      request.doesMatch a.source = true ∧
      a.now - request.sentAt < s.inflightRequests.timeout := by
  induction es generalizing s with
  | nil => exact absurd ha List.not_mem_nil
  | cons e es ih =>
    cases e with
    | request address r now =>
      obtain ⟨request, hwhere, hmatch, hearly⟩ := ih ha
      refine ⟨request, ?_, hmatch, hearly⟩
      rcases hwhere with hfound | hissued
      · by_cases htid : a.message.transactionId = s.nextTid
        · have hnew : (s.step (.request address r now)).inflightRequests.requests
              a.message.transactionId = some ⟨address, now⟩ := by
            rw [htid]
            exact InflightRequests.requests_set_self _ _ _
          rw [hnew] at hfound
          obtain rfl := Option.some.inj hfound
          rw [htid]
          exact Or.inr List.mem_cons_self
        · have hold : (s.step (.request address r now)).inflightRequests.requests
              a.message.transactionId = s.inflightRequests.requests a.message.transactionId :=
            InflightRequests.requests_set_ne htid
          rw [hold] at hfound
          exact Or.inl hfound
      · exact Or.inr (List.mem_cons_of_mem _ hissued)
    | recv datagram now =>
      have hframe := (frame_recvFrom s now datagram).2
      have hrest : a ∈ answers (s.step (.recv datagram now)) es →
          ∃ request, (s.inflightRequests.requests a.message.transactionId = some request ∨
            (a.message.transactionId, request) ∈ issued s (.recv datagram now :: es)) ∧
          request.doesMatch a.source = true ∧
          a.now - request.sentAt < s.inflightRequests.timeout := by
        intro hmem
        obtain ⟨request, hwhere, hmatch, hearly⟩ := ih hmem
        refine ⟨request, ?_, hmatch, hframe ▸ hearly⟩
        rcases hwhere with hfound | hissued
        · exact Or.inl (requests_of_recvFrom hfound)
        · exact Or.inr hissued
      rcases answers_recv s datagram now es with heq | ⟨message, source, hanswer, hreceived, heq⟩
      · rw [heq] at ha
        exact hrest ha
      · rw [heq] at ha
        rcases List.mem_cons.mp ha with rfl | ha
        · obtain ⟨⟨request, hfound, hearly, hmatch⟩, -⟩ := answer_of_recvFrom hreceived hanswer
          exact ⟨request, Or.inl hfound, hmatch, hearly⟩
        · exact hrest ha

/-- There are no more answers of a number than requests, and one more if one is waited for. -/
theorem countP_answers_le (s : KrpcSocket) (es : List Event) (tid : BitVec 32) :
    (answers s es).countP (fun a => a.message.transactionId = tid)
      ≤ (issued s es).countP (fun r => r.1 = tid) +
        (if (s.inflightRequests.requests tid).isSome then 1 else 0) := by
  induction es generalizing s with
  | nil => exact Nat.zero_le _
  | cons e es ih =>
    cases e with
    | request address r now =>
      have hih := ih (s.step (.request address r now))
      rw [answers, issued]
      by_cases htid : s.nextTid = tid
      · rw [List.countP_cons (l := issued _ _), if_pos (decide_eq_true htid)]
        have hone : (if ((s.step (.request address r now)).inflightRequests.requests tid).isSome
            then 1 else 0) ≤ 1 := by split <;> decide
        omega
      · have hold : (s.step (.request address r now)).inflightRequests.requests tid
            = s.inflightRequests.requests tid :=
          InflightRequests.requests_set_ne (Ne.symm htid)
        rw [hold] at hih
        rw [List.countP_cons (l := issued _ _), if_neg (by rw [decide_eq_true_iff]; exact htid)]
        exact hih
    | recv datagram now =>
      have hih := ih (s.step (.recv datagram now))
      have hback : (if ((s.step (.recv datagram now)).inflightRequests.requests tid).isSome
          then 1 else 0) ≤ if (s.inflightRequests.requests tid).isSome then 1 else 0 := by
        cases hafter : (s.step (.recv datagram now)).inflightRequests.requests tid with
        | none => exact Nat.zero_le _
        | some request => rw [requests_of_recvFrom hafter]
      rw [issued]
      rcases answers_recv s datagram now es with heq | ⟨message, source, hanswer, hreceived, heq⟩
      · rw [heq]
        omega
      · rw [heq]
        obtain ⟨⟨request, hfound, -, -⟩, hgone⟩ := answer_of_recvFrom hreceived hanswer
        by_cases htid : message.transactionId = tid
        · subst htid
          have hgone' : (s.step (.recv datagram now)).inflightRequests.requests
              message.transactionId = none := hgone
          rw [hgone'] at hih
          rw [List.countP_cons, if_pos (decide_eq_true rfl), hfound]
          simp only [Option.isSome_none, Bool.false_eq_true, if_false] at hih
          simp only [Option.isSome_some, if_true]
          omega
        · rw [List.countP_cons, if_neg (by rw [decide_eq_true_iff]; exact htid)]
          omega

/-- The numbers are given in turn. -/
theorem issued_tids (s : KrpcSocket) (es : List Event) :
    (issued s es).map Prod.fst
      = (List.range (issued s es).length).map (fun i => s.nextTid + BitVec.ofNat 32 i) := by
  induction es generalizing s with
  | nil => rfl
  | cons e es ih =>
    cases e with
    | request address r now =>
      have hih := ih (s.step (.request address r now))
      rw [issued, List.map_cons, hih, List.length_cons, List.range_succ_eq_map, List.map_cons,
        List.map_map]
      congr 1
      · exact (BitVec.add_zero s.nextTid).symm
      · apply List.map_congr_left
        intro i _
        have hsucc : BitVec.ofNat 32 (i + 1) = 1#32 + BitVec.ofNat 32 i := by
          rw [Nat.add_comm, BitVec.ofNat_add]
        change s.nextTid + 1#32 + BitVec.ofNat 32 i = s.nextTid + BitVec.ofNat 32 (i + 1)
        rw [hsucc, BitVec.add_assoc]
    | recv datagram now =>
      have hih := ih (s.step (.recv datagram now))
      have htid : (s.step (.recv datagram now)).nextTid = s.nextTid :=
        (frame_recvFrom s now datagram).1
      rw [htid] at hih
      exact hih

/-- Whatever comes in, an answer that is given out is one to a request of its number, which
went to the address that it comes from, or to that port with the unspecified IP, and is not
late. There are no more answers of a number than requests of it; the numbers are given in
turn, so as long as they do not run out each request has one answer at most. -/
theorem answered_once (serverMode : Bool) (requestTimeout start : ℕ) (es : List Event) :
    (∀ a ∈ answers (new start serverMode requestTimeout) es, ∃ request,
      (a.message.transactionId, request) ∈ issued (new start serverMode requestTimeout) es ∧
      request.doesMatch a.source = true ∧ a.now - request.sentAt < requestTimeout) ∧
    (∀ tid, (answers (new start serverMode requestTimeout) es).countP
        (fun a => a.message.transactionId = tid)
      ≤ (issued (new start serverMode requestTimeout) es).countP (fun r => r.1 = tid)) ∧
    ((issued (new start serverMode requestTimeout) es).length ≤ 2 ^ 32 →
      ((answers (new start serverMode requestTimeout) es).map
        (fun a => a.message.transactionId)).Nodup) := by
  have hcount : ∀ tid, (answers (new start serverMode requestTimeout) es).countP
        (fun a => a.message.transactionId = tid)
      ≤ (issued (new start serverMode requestTimeout) es).countP (fun r => r.1 = tid) :=
    fun tid => countP_answers_le (new start serverMode requestTimeout) es tid
  refine ⟨?_, hcount, ?_⟩
  · intro a ha
    obtain ⟨request, hfound | hissued, hmatch, hearly⟩ := answer_origin ha
    · cases hfound
    · exact ⟨request, hissued, hmatch, hearly⟩
  · intro hfew
    have hnodup : ((issued (new start serverMode requestTimeout) es).map Prod.fst).Nodup := by
      rw [issued_tids]
      apply List.Nodup.map_on _ List.nodup_range
      intro i hi j hj hij
      rw [List.mem_range] at hi hj
      have hij' := (BitVec.add_right_inj _).mp hij
      have hmod := congrArg BitVec.toNat hij'
      rw [BitVec.toNat_ofNat, BitVec.toNat_ofNat, Nat.mod_eq_of_lt (by omega),
        Nat.mod_eq_of_lt (by omega)] at hmod
      exact hmod
    rw [List.nodup_iff_count_le_one] at hnodup ⊢
    intro tid
    have hissued := hnodup tid
    rw [List.count, List.countP_map] at hissued ⊢
    refine Nat.le_trans ?_ (Nat.le_trans (hcount tid) ?_)
    · exact List.countP_mono_left (fun a _ h => by simpa using h)
    · refine Nat.le_trans ?_ hissued
      exact List.countP_mono_left (fun r _ h => by simpa using h)

end Nerea.Mainline.KrpcSocket
