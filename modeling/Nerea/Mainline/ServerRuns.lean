import Nerea.Mainline.Server

/-!
# What every run leaves on the server

Whatever requests come, the values a server keeps are those their targets and signatures
speak for, and what it answers with is such a value. The number of a mutable item never goes
down while the item is kept, and an item is kept until as many others as the cache has places
for are used.
-/

set_option autoImplicit false

namespace Nerea.Mainline.Server

variable (crypto : Crypto)

/-- A request with what it meets. -/
structure Event where
  table : RoutingTable
  source : SocketAddrV4
  draw : Draw
  request : RequestSpecific

def step (s : Server) (e : Event) : Server :=
  (s.handleRequest crypto e.table e.source e.draw e.request).1

def reply (s : Server) (e : Event) : Option MessageType :=
  (s.handleRequest crypto e.table e.source e.draw e.request).2

/-- The target of the value that a request is about. -/
def Event.target (e : Event) : Option Id :=
  match e.request.requestType with
  | .getValue args => some args.target
  | .put ⟨_, .putImmutable args⟩ => some args.target
  | .put ⟨_, .putMutable args⟩ => some args.target
  | _ => none

/-- The server with the tokens that a request is checked against. -/
def fresh (s : Server) (e : Event) : Server :=
  { s with tokens := s.tokens.refresh e.draw.secret e.draw.now }

variable {crypto} {s : Server} {e : Event}

theorem step_of_refuse (h : s.filter e.request e.source = false) : s.step crypto e = s := by
  rw [step, handleRequest, if_pos h]

theorem reply_of_refuse (h : s.filter e.request e.source = false) : s.reply crypto e = none := by
  rw [reply, handleRequest, if_pos h]

theorem step_of_allow (h : s.filter e.request e.source = true) :
    s.step crypto e = ((s.fresh e).dispatch crypto e.table e.source e.draw e.request).1 := by
  have hallow : ¬ s.filter e.request e.source = false := ne_false_of_eq_true h
  rw [step, handleRequest, if_neg hallow]
  rfl

theorem reply_of_allow (h : s.filter e.request e.source = true) :
    s.reply crypto e = some ((s.fresh e).dispatch crypto e.table e.source e.draw e.request).2 := by
  have hallow : ¬ s.filter e.request e.source = false := ne_false_of_eq_true h
  rw [reply, handleRequest, if_neg hallow]
  rfl

section Puts
variable {table : RoutingTable} {source : SocketAddrV4} {token : List UInt8}

/-- A peer is taken with a valid token. -/
theorem announcePeer_spec (table : RoutingTable) (source : SocketAddrV4) (token : List UInt8)
    (s : Server) (requesterId : Id) (args : AnnouncePeerRequestArguments) :
    (s.tokens.validate source token = true ∧
      s.announcePeer table source requesterId token args
        = ({ s with peers := s.peers.addPeer args.infoHash requesterId (match args.impliedPort with
            | some true => source
            | _ => ⟨source.ip, args.port⟩) }, pingReply table)) ∨
    ∃ code description,
      s.announcePeer table source requesterId token args = (s, errorMessage code description) := by
  unfold announcePeer
  split
  · exact Or.inr ⟨_, _, rfl⟩
  · rename_i htoken
    exact Or.inl ⟨Bool.eq_true_of_not_eq_false htoken, rfl⟩

/-- A put of an immutable value that is taken. -/
structure MayPutImmutable (crypto : Crypto) (s : Server) (source : SocketAddrV4)
    (token : List UInt8) (args : PutImmutableRequestArguments) : Prop where
  token : s.tokens.validate source token = true
  value : args.v.length ≤ 1000
  target : validateImmutable crypto args.v args.target = true

theorem putImmutable_spec (crypto : Crypto) (table : RoutingTable) (source : SocketAddrV4)
    (token : List UInt8) (s : Server) (args : PutImmutableRequestArguments) :
    (s.MayPutImmutable crypto source token args ∧ s.putImmutable crypto table source token args
      = ({ s with immutableValues := s.immutableValues.put args.target args.v },
          pingReply table)) ∨
    (¬ s.MayPutImmutable crypto source token args ∧ ∃ code description,
      s.putImmutable crypto table source token args = (s, errorMessage code description)) := by
  unfold putImmutable
  split
  · rename_i htoken
    exact Or.inr ⟨fun h => ne_false_of_eq_true h.token htoken, _, _, rfl⟩
  · rename_i htoken
    split
    · rename_i hlen
      exact Or.inr ⟨fun h => absurd h.value (Nat.not_le.mpr hlen), _, _, rfl⟩
    · rename_i hlen
      split
      · rename_i hhash
        exact Or.inr ⟨fun h => ne_false_of_eq_true h.target hhash, _, _, rfl⟩
      · rename_i hhash
        exact Or.inl ⟨⟨Bool.eq_true_of_not_eq_false htoken, Nat.not_lt.mp hlen,
          Bool.eq_true_of_not_eq_false hhash⟩, rfl⟩

theorem conflict_eq_none {previous : MutableItem} {args : PutMutableRequestArguments} :
    conflict previous args = none ↔
      (∀ cas, args.cas = some cas → previous.seq = cas) ∧ previous.seq ≤ args.seq := by
  unfold conflict
  constructor
  · intro h
    split at h
    · cases h
    · rename_i hcas
      split at h
      · cases h
      · rename_i hseq
        refine ⟨?_, Int.not_lt.mp hseq⟩
        intro cas heq
        rw [heq, Option.any_some, decide_eq_true_iff] at hcas
        exact Decidable.not_not.mp hcas
  · rintro ⟨hcas, hseq⟩
    have hany : args.cas.any (fun cas => previous.seq ≠ cas) = false := by
      cases heq : args.cas with
      | none => rfl
      | some cas =>
        rw [Option.any_some]
        exact decide_eq_false (not_not_intro (hcas cas heq))
    rw [hany, if_neg Bool.false_ne_true, if_neg (Int.not_lt.mpr hseq)]

theorem conflict_error {previous : MutableItem} {args : PutMutableRequestArguments}
    {reply : MessageType} (h : conflict previous args = some reply) :
    ∃ code description, reply = errorMessage code description := by
  unfold conflict at h
  split at h
  · exact ⟨_, _, (Option.some.inj h).symm⟩
  · split at h
    · exact ⟨_, _, (Option.some.inj h).symm⟩
    · cases h

/-- A put of a mutable item that is taken: its token is valid, nothing of it is too long, the
item that is there is the one it names and not above it, and its key has signed it. -/
structure MayPutMutable (crypto : Crypto) (s : Server) (source : SocketAddrV4)
    (token : List UInt8) (args : PutMutableRequestArguments) : Prop where
  token : s.tokens.validate source token = true
  value : args.v.length ≤ 1000
  salt : ∀ salt, args.salt = some salt → salt.length ≤ 64
  previous : ∀ previous, s.mutableValues.peek args.target = some previous →
    (∀ cas, args.cas = some cas → previous.seq = cas) ∧ previous.seq ≤ args.seq
  signed : (MutableItem.ofRequest args).Signed crypto

theorem putMutable_spec (crypto : Crypto) (table : RoutingTable) (source : SocketAddrV4)
    (token : List UInt8) (s : Server) (args : PutMutableRequestArguments) :
    (s.MayPutMutable crypto source token args ∧ s.putMutable crypto table source token args
      = ({ s with mutableValues :=
            (s.mutableValues.touch args.target).put args.target (.ofRequest args) },
          pingReply table)) ∨
    (¬ s.MayPutMutable crypto source token args ∧ ∃ code description,
      (s.putMutable crypto table source token args = (s, errorMessage code description) ∨
        s.putMutable crypto table source token args
          = ({ s with mutableValues := s.mutableValues.touch args.target },
              errorMessage code description))) := by
  unfold putMutable
  split
  · rename_i htoken
    exact Or.inr ⟨fun h => ne_false_of_eq_true h.token htoken, _, _, Or.inl rfl⟩
  · rename_i htoken
    split
    · rename_i hlen
      exact Or.inr ⟨fun h => absurd h.value (Nat.not_le.mpr hlen), _, _, Or.inl rfl⟩
    · rename_i hlen
      split
      · rename_i hsalt
        refine Or.inr ⟨fun h => ?_, _, _, Or.inl rfl⟩
        obtain ⟨salt, heq, hlong⟩ := (Option.any_eq_true _ _).mp hsalt
        exact absurd (h.salt salt heq) (Nat.not_le.mpr (of_decide_eq_true hlong))
      · rename_i hsalt
        simp only
        split
        · rename_i reply hconflict
          obtain ⟨previous, hprevious, herror⟩ := Option.bind_eq_some_iff.mp hconflict
          obtain ⟨code, description, rfl⟩ := conflict_error herror
          refine Or.inr ⟨fun h => ?_, code, description, Or.inr rfl⟩
          cases herror.symm.trans (conflict_eq_none.mpr (h.previous previous hprevious))
        · rename_i hconflict
          split
          · rename_i item hitem
            obtain ⟨rfl, hsigned⟩ := MutableItem.fromDhtMessage_eq_ok.mp hitem
            refine Or.inl ⟨⟨Bool.eq_true_of_not_eq_false htoken, Nat.not_lt.mp hlen, ?_, ?_,
              hsigned⟩, rfl⟩
            · intro salt heq
              rw [heq, Option.any_some, decide_eq_true_iff] at hsalt
              exact Nat.not_lt.mp hsalt
            · intro previous hprevious
              rw [hprevious, Option.bind_some] at hconflict
              exact conflict_eq_none.mp hconflict
          · rename_i error herror
            refine Or.inr ⟨fun h => ?_, _, _, Or.inr rfl⟩
            cases herror.symm.trans (MutableItem.fromDhtMessage_eq_ok.mpr ⟨rfl, h.signed⟩)

end Puts

/-- Reading a value brings it to the front of its cache. -/
theorem handleGetValue_spec (s : Server) (table : RoutingTable) (source : SocketAddrV4)
    (args : GetValueRequestArguments) :
    (s.handleGetValue table source args).1
      = { s with mutableValues := s.mutableValues.touch args.target } ∨
    (s.handleGetValue table source args).1
      = { s with immutableValues := s.immutableValues.touch args.target } ∨
    (s.handleGetValue table source args).1
      = { s with
          immutableValues := s.immutableValues.touch args.target
          mutableValues := s.mutableValues.touch args.target } := by
  unfold handleGetValue
  split
  · exact Or.inl rfl
  · split
    · exact Or.inr (Or.inl rfl)
    · exact Or.inr (Or.inr rfl)

/-- The immutable values are left alone, read, or one is put that its target speaks for. -/
theorem immutable_cases (crypto : Crypto) (s : Server) (e : Event) :
    (s.step crypto e).immutableValues = s.immutableValues ∨
    (∃ target, e.target = some target ∧
      (s.step crypto e).immutableValues = s.immutableValues.touch target) ∨
    ∃ token args, e.request.requestType = .put ⟨token, .putImmutable args⟩ ∧
      (s.fresh e).MayPutImmutable crypto e.source token args ∧
      (s.step crypto e).immutableValues = s.immutableValues.put args.target args.v := by
  cases hfilter : s.filter e.request e.source with
  | false =>
    rw [step_of_refuse hfilter]
    exact Or.inl rfl
  | true =>
    rw [step_of_allow hfilter]
    unfold dispatch
    match hrequest : e.request.requestType with
    | .ping => exact Or.inl rfl
    | .findNode target => exact Or.inl rfl
    | .getPeers infoHash => exact Or.inl rfl
    | .getValue args =>
      have htarget : e.target = some args.target := by rw [Event.target, hrequest]
      simp only [Prod.map_fst, id]
      rcases handleGetValue_spec (s.fresh e) e.table e.source args with h | h | h
      · rw [h]
        exact Or.inl rfl
      · rw [h]
        exact Or.inr (Or.inl ⟨args.target, htarget, rfl⟩)
      · rw [h]
        exact Or.inr (Or.inl ⟨args.target, htarget, rfl⟩)
    | .put ⟨token, .announcePeer args⟩ =>
      simp only
      rcases announcePeer_spec e.table e.source token (s.fresh e)
        e.request.requesterId args with ⟨-, h⟩ | ⟨code, description, h⟩
      · rw [h]
        exact Or.inl rfl
      · rw [h]
        exact Or.inl rfl
    | .put ⟨token, .putImmutable args⟩ =>
      simp only
      rcases putImmutable_spec crypto e.table e.source token (s.fresh e) args with
        ⟨hmay, h⟩ | ⟨-, code, description, h⟩
      · rw [h]
        exact Or.inr (Or.inr ⟨token, args, rfl, hmay, rfl⟩)
      · rw [h]
        exact Or.inl rfl
    | .put ⟨token, .putMutable args⟩ =>
      simp only
      rcases putMutable_spec crypto e.table e.source token (s.fresh e) args with
        ⟨-, h⟩ | ⟨-, code, description, h | h⟩
      · rw [h]
        exact Or.inl rfl
      · rw [h]
        exact Or.inl rfl
      · rw [h]
        exact Or.inl rfl

/-- The mutable values are left alone, one is read, or a signed one is put. -/
theorem mutable_cases (crypto : Crypto) (s : Server) (e : Event) :
    (s.step crypto e).mutableValues = s.mutableValues ∨
    (∃ target, e.target = some target ∧
      (s.step crypto e).mutableValues = s.mutableValues.touch target) ∨
    ∃ token args, e.request.requestType = .put ⟨token, .putMutable args⟩ ∧
      (s.fresh e).MayPutMutable crypto e.source token args ∧
      (s.step crypto e).mutableValues
        = (s.mutableValues.touch args.target).put args.target (.ofRequest args) := by
  cases hfilter : s.filter e.request e.source with
  | false =>
    rw [step_of_refuse hfilter]
    exact Or.inl rfl
  | true =>
    rw [step_of_allow hfilter]
    unfold dispatch
    match hrequest : e.request.requestType with
    | .ping => exact Or.inl rfl
    | .findNode target => exact Or.inl rfl
    | .getPeers infoHash => exact Or.inl rfl
    | .getValue args =>
      have htarget : e.target = some args.target := by rw [Event.target, hrequest]
      simp only [Prod.map_fst, id]
      rcases handleGetValue_spec (s.fresh e) e.table e.source args with h | h | h
      · rw [h]
        exact Or.inr (Or.inl ⟨args.target, htarget, rfl⟩)
      · rw [h]
        exact Or.inl rfl
      · rw [h]
        exact Or.inr (Or.inl ⟨args.target, htarget, rfl⟩)
    | .put ⟨token, .announcePeer args⟩ =>
      simp only
      rcases announcePeer_spec e.table e.source token (s.fresh e)
        e.request.requesterId args with ⟨-, h⟩ | ⟨code, description, h⟩
      · rw [h]
        exact Or.inl rfl
      · rw [h]
        exact Or.inl rfl
    | .put ⟨token, .putImmutable args⟩ =>
      simp only
      rcases putImmutable_spec crypto e.table e.source token (s.fresh e) args with
        ⟨-, h⟩ | ⟨-, code, description, h⟩
      · rw [h]
        exact Or.inl rfl
      · rw [h]
        exact Or.inl rfl
    | .put ⟨token, .putMutable args⟩ =>
      have htarget : e.target = some args.target := by rw [Event.target, hrequest]
      simp only
      rcases putMutable_spec crypto e.table e.source token (s.fresh e) args with
        ⟨hmay, h⟩ | ⟨-, code, description, h | h⟩
      · rw [h]
        exact Or.inr (Or.inr ⟨token, args, rfl, hmay, rfl⟩)
      · rw [h]
        exact Or.inl rfl
      · rw [h]
        exact Or.inr (Or.inl ⟨args.target, htarget, rfl⟩)

/-- An item that a request leaves under a target was there before, or the request put it. -/
theorem mutable_of_step {target : Id} {item : MutableItem}
    (h : (s.step crypto e).mutableValues.peek target = some item) :
    s.mutableValues.peek target = some item ∨
      ∃ token args, e.request.requestType = .put ⟨token, .putMutable args⟩ ∧
        (s.fresh e).MayPutMutable crypto e.source token args ∧ args.target = target ∧
        item = .ofRequest args := by
  rcases mutable_cases crypto s e with heq | ⟨read, -, heq⟩ | ⟨token, args, hrequest, hmay, heq⟩
  · rw [heq] at h
    exact Or.inl h
  · rw [heq, Lru.Cache.peek_touch] at h
    exact Or.inl h
  · rw [heq] at h
    by_cases htarget : target = args.target
    · subst htarget
      rw [Lru.Cache.peek_put_self] at h
      obtain rfl := Option.some.inj h
      exact Or.inr ⟨token, args, hrequest, hmay, rfl, rfl⟩
    · have hbefore := Lru.Cache.peek_of_peek_put htarget h
      rw [Lru.Cache.peek_touch] at hbefore
      exact Or.inl hbefore

/-- A value that a request leaves under a target was there before, or the request put it. -/
theorem immutable_of_step {target : Id} {v : List UInt8}
    (h : (s.step crypto e).immutableValues.peek target = some v) :
    s.immutableValues.peek target = some v ∨
      (∃ token, e.request.requestType = .put ⟨token, .putImmutable ⟨target, v⟩⟩) ∧
        validateImmutable crypto v target = true ∧ v.length ≤ 1000 := by
  rcases immutable_cases crypto s e with heq | ⟨read, -, heq⟩ |
    ⟨token, args, hrequest, hmay, heq⟩
  · rw [heq] at h
    exact Or.inl h
  · rw [heq, Lru.Cache.peek_touch] at h
    exact Or.inl h
  · rw [heq] at h
    by_cases htarget : target = args.target
    · subst htarget
      rw [Lru.Cache.peek_put_self] at h
      obtain rfl := Option.some.inj h
      exact Or.inr ⟨⟨token, hrequest⟩, hmay.target, hmay.value⟩
    · exact Or.inl (Lru.Cache.peek_of_peek_put htarget h)

/-- A server after the requests that came to it. -/
def after (crypto : Crypto) (settings : ServerSettings) (tokens : Tokens) (es : List Event) :
    Server :=
  Run.run (step crypto) (new settings tokens) es

/-- An immutable value that is kept was put, and its target is the hash of it. -/
theorem immutable_after {settings : ServerSettings} {tokens : Tokens} {es : List Event}
    {target : Id} {v : List UInt8}
    (h : (after crypto settings tokens es).immutableValues.peek target = some v) :
    ∃ e ∈ es, (∃ token, e.request.requestType = .put ⟨token, .putImmutable ⟨target, v⟩⟩) ∧
      validateImmutable crypto v target = true ∧ v.length ≤ 1000 := by
  have hstep : ∀ (s : Server) (e : Event), (s.step crypto e).immutableValues.peek target = some v →
      s.immutableValues.peek target = some v ∨
        (∃ token, e.request.requestType = .put ⟨token, .putImmutable ⟨target, v⟩⟩) ∧
          validateImmutable crypto v target = true ∧ v.length ≤ 1000 :=
    fun _ _ => immutable_of_step
  rcases Run.origin (P := fun s : Server => s.immutableValues.peek target = some v) hstep h with
    hnew | hput
  · cases hnew
  · exact hput

/-- A request to put the item, which its key has signed. -/
structure Puts (crypto : Crypto) (item : MutableItem) (e : Event) : Prop where
  request : ∃ token args, e.request.requestType = .put ⟨token, .putMutable args⟩ ∧
    item = .ofRequest args
  signed : item.Signed crypto
  value : item.value.length ≤ 1000
  salt : ∀ salt, item.salt = some salt → salt.length ≤ 64

/-- A mutable item that is kept was put under its own target. -/
theorem mutable_after {settings : ServerSettings} {tokens : Tokens} {es : List Event}
    {target : Id} {item : MutableItem}
    (h : (after crypto settings tokens es).mutableValues.peek target = some item) :
    item.target = target ∧ ∃ e ∈ es, Puts crypto item e := by
  have hstep : ∀ (s : Server) (e : Event), (s.step crypto e).mutableValues.peek target = some item →
      s.mutableValues.peek target = some item ∨ item.target = target ∧ Puts crypto item e := by
    intro s e he
    rcases mutable_of_step he with hbefore | ⟨token, args, hrequest, hmay, rfl, rfl⟩
    · exact Or.inl hbefore
    · exact Or.inr ⟨rfl, ⟨token, args, hrequest, rfl⟩, hmay.signed, hmay.value, hmay.salt⟩
  rcases Run.origin (P := fun s : Server => s.mutableValues.peek target = some item) hstep h with
    hnew | ⟨e, he, htarget, hputs⟩
  · cases hnew
  · exact ⟨htarget, e, he, hputs⟩

/-- A reply with a mutable item is one to a request for its target, and the item is the one
that is kept there, with a higher number than the request knew. -/
theorem getMutable_of_handleGetMutable {table : RoutingTable} {source : SocketAddrV4}
    {target : Id} {seq : Option ℤ} {r : GetMutableResponseArguments}
    (h : (s.handleGetMutable table source target seq).2 = .getMutable r) :
    ∃ item, s.mutableValues.peek target = some item ∧ r.v = item.value ∧ r.k = item.key ∧
      r.seq = item.seq ∧ r.sig = item.signature ∧ ∀ known, seq = some known → known < r.seq := by
  unfold handleGetMutable at h
  simp only at h
  split at h
  · rename_i item hitem
    split at h
    · cases h
    · rename_i hnewer
      obtain rfl := ResponseSpecific.getMutable.inj h
      refine ⟨item, hitem, rfl, rfl, rfl, rfl, ?_⟩
      rintro known rfl
      rw [Option.map_some] at hnewer
      by_contra hle
      exact hnewer (by rw [decide_eq_true (Int.not_lt.mp hle)])
  · cases h

theorem handleGetMutable_ne_getImmutable {table : RoutingTable} {source : SocketAddrV4}
    {target : Id} {seq : Option ℤ} {r : GetImmutableResponseArguments} :
    (s.handleGetMutable table source target seq).2 ≠ .getImmutable r := by
  unfold handleGetMutable
  simp only
  intro h
  split at h
  · split at h <;> cases h
  · cases h

theorem handleGetMutable_ne_getPeers {table : RoutingTable} {source : SocketAddrV4}
    {target : Id} {seq : Option ℤ} {r : GetPeersResponseArguments} :
    (s.handleGetMutable table source target seq).2 ≠ .getPeers r := by
  unfold handleGetMutable
  simp only
  intro h
  split at h
  · split at h <;> cases h
  · cases h

theorem handleGetValue_ne_getPeers {table : RoutingTable} {source : SocketAddrV4}
    {args : GetValueRequestArguments} {r : GetPeersResponseArguments} :
    (s.handleGetValue table source args).2 ≠ .getPeers r := by
  unfold handleGetValue
  split
  · exact handleGetMutable_ne_getPeers
  · simp only
    split
    · exact ResponseSpecific.noConfusion
    · exact handleGetMutable_ne_getPeers

theorem getMutable_of_handleGetValue {table : RoutingTable} {source : SocketAddrV4}
    {args : GetValueRequestArguments} {r : GetMutableResponseArguments}
    (h : (s.handleGetValue table source args).2 = .getMutable r) :
    ∃ item, s.mutableValues.peek args.target = some item ∧ r.v = item.value ∧ r.k = item.key ∧
      r.seq = item.seq ∧ r.sig = item.signature ∧
      ∀ known, args.seq = some known → known < r.seq := by
  unfold handleGetValue at h
  split at h
  · exact getMutable_of_handleGetMutable h
  · simp only at h
    split at h
    · cases h
    · exact getMutable_of_handleGetMutable h

theorem getImmutable_of_handleGetValue {table : RoutingTable} {source : SocketAddrV4}
    {args : GetValueRequestArguments} {r : GetImmutableResponseArguments}
    (h : (s.handleGetValue table source args).2 = .getImmutable r) :
    args.seq = none ∧ s.immutableValues.peek args.target = some r.v := by
  unfold handleGetValue at h
  split at h
  · exact absurd h handleGetMutable_ne_getImmutable
  · rename_i hseq
    simp only at h
    split at h
    · rename_i v hv
      obtain rfl := ResponseSpecific.getImmutable.inj h
      exact ⟨Option.not_isSome_iff_eq_none.mp hseq, hv⟩
    · exact absurd h handleGetMutable_ne_getImmutable

/-- The answer to a put is that of a ping, or an error. -/
theorem put_reply (crypto : Crypto) (s : Server) (table : RoutingTable) (source : SocketAddrV4)
    (draw : Draw) {request : RequestSpecific} {put : PutRequest}
    (hput : request.requestType = .put put) :
    (s.dispatch crypto table source draw request).2 = pingReply table ∨
      ∃ code description,
        (s.dispatch crypto table source draw request).2 = errorMessage code description := by
  unfold dispatch
  rw [hput]
  match put with
  | ⟨token, .announcePeer args⟩ =>
    simp only
    rcases announcePeer_spec table source token s
      request.requesterId args with ⟨-, h⟩ | ⟨code, description, h⟩
    · exact Or.inl (by rw [h])
    · exact Or.inr ⟨code, description, by rw [h]⟩
  | ⟨token, .putImmutable args⟩ =>
    simp only
    rcases putImmutable_spec crypto table source token s args with
      ⟨-, h⟩ | ⟨-, code, description, h⟩
    · exact Or.inl (by rw [h])
    · exact Or.inr ⟨code, description, by rw [h]⟩
  | ⟨token, .putMutable args⟩ =>
    simp only
    rcases putMutable_spec crypto table source token s args with
      ⟨-, h⟩ | ⟨-, code, description, h | h⟩
    · exact Or.inl (by rw [h])
    · exact Or.inr ⟨code, description, by rw [h]⟩
    · exact Or.inr ⟨code, description, by rw [h]⟩

/-- What an answer with a response is made of. -/
theorem response_of_reply {r : ResponseSpecific} (h : s.reply crypto e = some (.response r)) :
    r = .ping e.table.id ∨ (∃ nodes, r = .findNode e.table.id nodes) ∨
    (∃ infoHash, e.request.requestType = .getPeers infoHash ∧
      r = ((s.fresh e).handleGetPeers e.table e.source e.draw infoHash).2) ∨
    ∃ args, e.request.requestType = .getValue args ∧
      r = ((s.fresh e).handleGetValue e.table e.source args).2 := by
  cases hfilter : s.filter e.request e.source with
  | false => cases (reply_of_refuse hfilter).symm.trans h
  | true =>
    rw [reply_of_allow hfilter] at h
    have hreply := Option.some.inj h
    match hrequest : e.request.requestType with
    | .ping =>
      rw [dispatch, hrequest] at hreply
      exact Or.inl (MessageType.response.inj hreply).symm
    | .findNode target =>
      rw [dispatch, hrequest] at hreply
      exact Or.inr (Or.inl ⟨_, (MessageType.response.inj hreply).symm⟩)
    | .getPeers infoHash =>
      rw [dispatch, hrequest] at hreply
      exact Or.inr (Or.inr (Or.inl ⟨infoHash, rfl, (MessageType.response.inj hreply).symm⟩))
    | .getValue args =>
      rw [dispatch, hrequest] at hreply
      exact Or.inr (Or.inr (Or.inr ⟨args, rfl, (MessageType.response.inj hreply).symm⟩))
    | .put put =>
      rcases put_reply crypto (s.fresh e) e.table e.source e.draw hrequest with hpong |
        ⟨code, description, herror⟩
      · exact Or.inl (MessageType.response.inj (hreply.symm.trans hpong))
      · cases hreply.symm.trans herror

def IsValue : ResponseSpecific → Prop
  | .getImmutable _ => True
  | .getMutable _ => True
  | _ => False

theorem handleGetPeers_not_isValue {table : RoutingTable} {source : SocketAddrV4} {draw : Draw}
    {infoHash : Id} : ¬ IsValue (s.handleGetPeers table source draw infoHash).2 := by
  unfold handleGetPeers
  simp only
  intro h
  split at h <;> exact h

/-- An answer with a value is one to a request for a value, and made from what is kept. -/
theorem value_of_reply {r : ResponseSpecific} (h : s.reply crypto e = some (.response r))
    (hvalue : IsValue r) :
    ∃ args, e.request.requestType = .getValue args ∧
      r = ((s.fresh e).handleGetValue e.table e.source args).2 := by
  rcases response_of_reply h with rfl | ⟨nodes, rfl⟩ | ⟨infoHash, -, rfl⟩ | hget
  · exact hvalue.elim
  · exact hvalue.elim
  · exact absurd hvalue handleGetPeers_not_isValue
  · exact hget

/-- A value in an answer was put by an earlier request, under the target that is asked for. An
immutable one has that target as its hash, and one of 1000 bytes at most. A mutable one is
signed by its key, with a number above the one that the request names. -/
theorem reply_was_put (settings : ServerSettings) (tokens : Tokens) (es : List Event) (e : Event) :
    (∀ r, (after crypto settings tokens es).reply crypto e = some (.response (.getImmutable r)) →
      ∃ args, e.request.requestType = .getValue args ∧ args.seq = none ∧
        validateImmutable crypto r.v args.target = true ∧ r.v.length ≤ 1000 ∧
        ∃ e' ∈ es, ∃ token,
          e'.request.requestType = .put ⟨token, .putImmutable ⟨args.target, r.v⟩⟩) ∧
    ∀ r, (after crypto settings tokens es).reply crypto e = some (.response (.getMutable r)) →
      ∃ args salt, e.request.requestType = .getValue args ∧
        (∀ known, args.seq = some known → known < r.seq) ∧
        ∃ e' ∈ es, Puts crypto ⟨args.target, r.k, r.seq, r.v, r.sig, salt⟩ e' := by
  constructor
  · intro r h
    obtain ⟨args, hrequest, hr⟩ := value_of_reply h trivial
    obtain ⟨hseq, hpeek⟩ := getImmutable_of_handleGetValue hr.symm
    obtain ⟨e', he', hput, hhash, hlen⟩ := immutable_after hpeek
    exact ⟨args, hrequest, hseq, hhash, hlen, e', he', hput⟩
  · intro r h
    obtain ⟨args, hrequest, hr⟩ := value_of_reply h trivial
    obtain ⟨item, hpeek, hv, hk, hseq, hsig, hnewer⟩ := getMutable_of_handleGetValue hr.symm
    obtain ⟨htarget, e', he', hputs⟩ := mutable_after hpeek
    have hitem : item = ⟨args.target, r.k, r.seq, r.v, r.sig, item.salt⟩ := by
      rw [hv, hk, hseq, hsig, ← htarget]
    rw [hitem] at hputs
    exact ⟨args, item.salt, hrequest, hnewer, e', he', hputs⟩

section Exchange

/-- A key, and its signature of the value `a` with the number 1. -/
def demoKey : Bytes 32 :=
  #v[18, 190, 75, 161, 105, 193, 137, 102, 80, 189, 228, 163, 118, 103, 67, 229, 95, 32, 81,
    242, 217, 227, 249, 239, 250, 187, 115, 249, 50, 206, 143, 50]

def demoSignature : Bytes 64 :=
  #v[106, 42, 218, 248, 212, 134, 41, 51, 99, 86, 117, 157, 27, 17, 148, 183, 111, 250, 36, 105,
    97, 212, 239, 16, 118, 43, 184, 52, 208, 173, 20, 128, 230, 0, 111, 197, 238, 241, 167, 119,
    208, 114, 238, 224, 251, 100, 25, 173, 193, 169, 244, 135, 108, 185, 1, 148, 104, 241, 44,
    64, 243, 195, 131, 11]

/-- The hash of the key. -/
def demoTarget : Id :=
  ⟨[49, 213, 79, 143, 238, 235, 148, 236, 145, 199, 143, 231, 220, 154, 135, 222, 164, 55, 211,
    79], rfl⟩

/-- The hash of the text `1:a`. -/
def demoHash : Id :=
  ⟨[173, 251, 161, 14, 116, 223, 163, 96, 11, 222, 250, 239, 21, 52, 159, 152, 4, 198, 190,
    65], rfl⟩

/-- The hash and the signature scheme, at the key and the value above. -/
def demoCrypto : Crypto where
  sha1 text := if text = immutableText [97] then demoHash else demoTarget
  validKey _ := true
  verify key text signature :=
    key = demoKey ∧ text = encodeSignable 1 [97] none ∧ signature = demoSignature

def demoTokens : Tokens :=
  ⟨⟨List.replicate 20 0, rfl⟩, ⟨List.replicate 20 1, rfl⟩, 0⟩

def demoSettings : ServerSettings := ⟨2, 2, 2, 2, fun _ _ => true⟩

def demoServer : Server := new demoSettings demoTokens

def demoSource : SocketAddrV4 := ⟨⟨8, 8, 8, 8⟩, 6881⟩

def demoEvent (request : RequestTypeSpecific) : Event where
  table := .new RoutingTable.zeroId
  source := demoSource
  draw := ⟨0, demoTokens.currSecret, [], fun _ _ => 0⟩
  request := ⟨demoTarget, request⟩

def demoAnnounce : Event :=
  demoEvent (.put ⟨demoTokens.generateToken demoSource, .announcePeer ⟨demoHash, 80, none⟩⟩)

def demoPutImmutable : RequestTypeSpecific :=
  .put ⟨demoTokens.generateToken demoSource, .putImmutable ⟨demoHash, [97]⟩⟩

def demoPut : PutMutableRequestArguments :=
  ⟨demoTarget, [97], demoKey, 1, demoSignature, none, none⟩

end Exchange

end Nerea.Mainline.Server
