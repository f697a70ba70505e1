import Nerea.Mainline.ServerPeers

/-!
# How long the server keeps a value

What was taken stays until as many other targets are used as the cache has places for, and
is what a request for it gets.
-/

set_option autoImplicit false

namespace Nerea.Mainline.Server

variable {crypto : Crypto} {s : Server} {e : Event}

theorem target_of_put {token : List UInt8} {args : PutMutableRequestArguments}
    (h : e.request.requestType = .put ⟨token, .putMutable args⟩) :
    e.target = some args.target := by
  rw [Event.target, h]

/-- A mutable item is taken if it may be, and is then what is kept. -/
theorem mutable_reply_iff {token : List UInt8} {args : PutMutableRequestArguments}
    (hrequest : e.request.requestType = .put ⟨token, .putMutable args⟩)
    (hallow : s.filter e.request e.source = true) :
    s.reply crypto e = some (pingReply e.table) ↔
      (s.fresh e).MayPutMutable crypto e.source token args := by
  rw [reply_of_allow hallow, dispatch, hrequest]
  simp only
  rcases putMutable_spec crypto e.table e.source token (s.fresh e) args with
    ⟨hmay, h⟩ | ⟨hnot, code, description, h | h⟩
  · rw [h]
    exact ⟨fun _ => hmay, fun _ => rfl⟩
  · rw [h]
    constructor
    · intro heq
      cases Option.some.inj heq
    · intro hmay
      exact absurd hmay hnot
  · rw [h]
    constructor
    · intro heq
      cases Option.some.inj heq
    · intro hmay
      exact absurd hmay hnot

theorem filter_of_reply {reply : MessageType} (h : s.reply crypto e = some reply) :
    s.filter e.request e.source = true := by
  cases hfilter : s.filter e.request e.source with
  | true => rfl
  | false => cases (reply_of_refuse hfilter).symm.trans h

theorem mutable_of_put {token : List UInt8} {args : PutMutableRequestArguments}
    (hrequest : e.request.requestType = .put ⟨token, .putMutable args⟩)
    (hreply : s.reply crypto e = some (pingReply e.table)) :
    (s.step crypto e).mutableValues
      = (s.mutableValues.touch args.target).put args.target (.ofRequest args) := by
  have hallow := filter_of_reply hreply
  have hmay := (mutable_reply_iff hrequest hallow).mp hreply
  rw [step_of_allow hallow, dispatch, hrequest]
  simp only
  rcases putMutable_spec crypto e.table e.source token (s.fresh e) args with ⟨-, h⟩ | ⟨hnot, -⟩
  · rw [h]
    rfl
  · exact absurd hmay hnot

/-- An item that is kept goes back by at most the other targets that are used, and its number
does not go down. -/
theorem mutable_within_step (crypto : Crypto) {target : Id} {item : MutableItem} {used : Finset Id}
    (h : s.mutableValues.Within target item used) (hcard : used.card < s.mutableValues.capacity)
    (hused : ∀ other, e.target = some other → other ≠ target → other ∈ used) :
    (s.step crypto e).mutableValues.capacity = s.mutableValues.capacity ∧
      ∃ item', (s.step crypto e).mutableValues.Within target item' used ∧
        item.seq ≤ item'.seq := by
  rcases mutable_cases crypto s e with heq | ⟨read, hread, heq⟩ | ⟨token, args, hrequest, hmay, heq⟩
  · rw [heq]
    exact ⟨rfl, item, h, Int.le_refl _⟩
  · rw [heq]
    exact ⟨Lru.Cache.capacity_touch _ _, item, h.touch (hused read hread), Int.le_refl _⟩
  · have htouch : (s.mutableValues.touch args.target).Within target item used :=
      h.touch (hused args.target (target_of_put hrequest))
    have hcapacity := Lru.Cache.capacity_touch s.mutableValues args.target
    rw [heq]
    refine ⟨hcapacity, ?_⟩
    by_cases htarget : args.target = target
    · subst htarget
      exact ⟨.ofRequest args, Lru.Cache.within_put _ _ _ _, (hmay.previous item h.peek).2⟩
    · refine ⟨item, ?_, Int.le_refl _⟩
      exact htouch.put htarget (hused args.target (target_of_put hrequest) htarget)
        (by rw [hcapacity]; exact hcard) _

theorem mutable_within_run {target : Id} {item : MutableItem} {used : Finset Id} {es : List Event}
    (h : s.mutableValues.Within target item used) (hcard : used.card < s.mutableValues.capacity)
    (hused : ∀ e ∈ es, ∀ other, e.target = some other → other ≠ target → other ∈ used) :
    ∃ item', (Run.run (step crypto) s es).mutableValues.Within target item' used ∧
      item.seq ≤ item'.seq := by
  induction es generalizing s item with
  | nil => exact ⟨item, h, Int.le_refl _⟩
  | cons e es ih =>
    obtain ⟨hcapacity, item₁, hwithin, hle⟩ :=
      mutable_within_step crypto h hcard (hused e List.mem_cons_self)
    obtain ⟨item₂, hlast, hle'⟩ := ih hwithin (by rw [hcapacity]; exact hcard)
      (fun e' he' => hused e' (List.mem_cons_of_mem e he'))
    exact ⟨item₂, hlast, Int.le_trans hle hle'⟩

/-- What a request that names a number gets when there is an item. -/
theorem mutable_reply_of_held {args : GetValueRequestArguments} {known : ℤ} {item : MutableItem}
    (hrequest : e.request.requestType = .getValue args) (hseq : args.seq = some known)
    (hpeek : s.mutableValues.peek args.target = some item)
    (hallow : s.filter e.request e.source = true) :
    s.reply crypto e = some (.response (
      if item.seq ≤ known then
        .noMoreRecentValue ⟨e.table.id, (s.fresh e).tokens.generateToken e.source,
          some (e.table.closest args.target), item.seq⟩
      else
        .getMutable ⟨e.table.id, (s.fresh e).tokens.generateToken e.source,
          some (e.table.closest args.target), item.value, item.key, item.seq,
          item.signature⟩)) := by
  have hpeek' : (s.fresh e).mutableValues.peek args.target = some item := hpeek
  rw [reply_of_allow hallow, dispatch, hrequest]
  simp only [Prod.map_snd]
  rw [handleGetValue, hseq, if_pos Option.isSome_some, handleGetMutable]
  simp only [hpeek', Option.map_some]
  by_cases hle : item.seq ≤ known
  · rw [if_pos hle, decide_eq_true hle]
  · rw [if_neg hle, decide_eq_false hle]

/-- What a request that names no number gets when there is an immutable value. -/
theorem immutable_reply_of_held {args : GetValueRequestArguments} {v : List UInt8}
    (hrequest : e.request.requestType = .getValue args) (hseq : args.seq = none)
    (hpeek : s.immutableValues.peek args.target = some v)
    (hallow : s.filter e.request e.source = true) :
    s.reply crypto e = some (.response (.getImmutable ⟨e.table.id,
      (s.fresh e).tokens.generateToken e.source, some (e.table.closest args.target), v⟩)) := by
  have hpeek' : (s.fresh e).immutableValues.peek args.target = some v := hpeek
  have hnone : ¬ args.seq.isSome = true := by
    rw [hseq]
    decide
  rw [reply_of_allow hallow, dispatch, hrequest]
  simp only [Prod.map_snd]
  rw [handleGetValue, if_neg hnone]
  simp only [hpeek']

/-- What a request that names no number gets when there is an item and no immutable value. -/
theorem mutable_reply_of_no_number {args : GetValueRequestArguments} {item : MutableItem}
    (hrequest : e.request.requestType = .getValue args) (hseq : args.seq = none)
    (hnone : s.immutableValues.peek args.target = none)
    (hpeek : s.mutableValues.peek args.target = some item)
    (hallow : s.filter e.request e.source = true) :
    s.reply crypto e = some (.response (.getMutable ⟨e.table.id,
      (s.fresh e).tokens.generateToken e.source, some (e.table.closest args.target), item.value,
      item.key, item.seq, item.signature⟩)) := by
  have hnone' : (s.fresh e).immutableValues.peek args.target = none := hnone
  have hpeek' : (s.fresh e).mutableValues.peek args.target = some item := hpeek
  have hunnamed : ¬ args.seq.isSome = true := by
    rw [hseq]
    decide
  rw [reply_of_allow hallow, dispatch, hrequest]
  simp only [Prod.map_snd]
  rw [handleGetValue, if_neg hunnamed]
  simp only [hnone', handleGetMutable, hpeek', hseq, Option.map_none]

/-- How a server that holds a mutable item answers for its target: a request that names a number
gets the item if its number is above, and one that names none gets the immutable value under
the target if there is one, which is looked up first. -/
structure AnswersWith (crypto : Crypto) (s : Server) (target : Id) (item : MutableItem) :
    Prop where
  named : ∀ e known salt, e.request.requestType = .getValue ⟨target, some known, salt⟩ →
    s.filter e.request e.source = true →
    s.reply crypto e = some (.response (
      if item.seq ≤ known then
        .noMoreRecentValue ⟨e.table.id, (s.fresh e).tokens.generateToken e.source,
          some (e.table.closest target), item.seq⟩
      else
        .getMutable ⟨e.table.id, (s.fresh e).tokens.generateToken e.source,
          some (e.table.closest target), item.value, item.key, item.seq, item.signature⟩))
  unnamed : ∀ e salt, e.request.requestType = .getValue ⟨target, none, salt⟩ →
    s.filter e.request e.source = true → s.immutableValues.peek target = none →
    s.reply crypto e = some (.response (.getMutable ⟨e.table.id,
      (s.fresh e).tokens.generateToken e.source, some (e.table.closest target), item.value,
      item.key, item.seq, item.signature⟩))
  immutable : ∀ e salt v, e.request.requestType = .getValue ⟨target, none, salt⟩ →
    s.filter e.request e.source = true → s.immutableValues.peek target = some v →
    s.reply crypto e = some (.response (.getImmutable ⟨e.table.id,
      (s.fresh e).tokens.generateToken e.source, some (e.table.closest target), v⟩))

theorem answersWith_of_peek {target : Id} {item : MutableItem}
    (hpeek : s.mutableValues.peek target = some item) : s.AnswersWith crypto target item where
  named := fun _ _ _ hget hallow => mutable_reply_of_held hget rfl hpeek hallow
  unnamed := fun _ _ hget hallow hnone => mutable_reply_of_no_number hget rfl hnone hpeek hallow
  immutable := fun _ _ _ hget hallow hv => immutable_reply_of_held hget rfl hv hallow

/-- A mutable item that was taken is kept as long as fewer other targets are used after it
than the cache has places for: the server holds it or one of a number as high, and answers
for its target with that. -/
theorem mutable_kept (crypto : Crypto) (s : Server) (used : Finset Id) (es : List Event)
    {token : List UInt8} {args : PutMutableRequestArguments}
    (hrequest : e.request.requestType = .put ⟨token, .putMutable args⟩)
    (hreply : s.reply crypto e = some (pingReply e.table))
    (hcard : used.card < s.mutableValues.capacity)
    (hused : ∀ e' ∈ es, ∀ other, e'.target = some other → other ≠ args.target → other ∈ used) :
    ∃ item, args.seq ≤ item.seq ∧
      (Run.run (step crypto) (s.step crypto e) es).mutableValues.peek args.target = some item ∧
      (Run.run (step crypto) (s.step crypto e) es).AnswersWith crypto args.target item := by
  have hput := mutable_of_put hrequest hreply
  have hwithin : (s.step crypto e).mutableValues.Within args.target (.ofRequest args) used := by
    rw [hput]
    exact Lru.Cache.within_put _ _ _ _
  have hcapacity : (s.step crypto e).mutableValues.capacity = s.mutableValues.capacity := by
    rw [hput]
    exact Lru.Cache.capacity_touch _ _
  obtain ⟨item, hlast, hle⟩ := mutable_within_run hwithin (by rw [hcapacity]; exact hcard) hused
  exact ⟨item, hle, hlast.peek, answersWith_of_peek hlast.peek⟩

theorem demoPut_reply :
    demoServer.reply demoCrypto
        (demoEvent (.put ⟨demoTokens.generateToken demoSource, .putMutable demoPut⟩))
      = some (pingReply (.new ⟨List.replicate idSize 0, rfl⟩)) := by
  apply (mutable_reply_iff rfl rfl).mpr
  refine ⟨Tokens.validate_generateToken demoSource, by decide, ?_, ?_, ?_⟩
  · intro salt h
    cases h
  · intro previous h
    cases h
  · exact ⟨rfl, by decide⟩

/-- The item is there after a request for another target. -/
theorem mutable_kept_demo :
    ∃ item, demoPut.seq ≤ item.seq ∧
      (Run.run (step demoCrypto) (demoServer.step demoCrypto
        (demoEvent (.put ⟨demoTokens.generateToken demoSource, .putMutable demoPut⟩)))
        [demoEvent (.getValue ⟨demoHash, none, none⟩)]).mutableValues.peek demoTarget
          = some item := by
  obtain ⟨item, hle, hpeek, -⟩ := mutable_kept demoCrypto demoServer {demoHash}
    [demoEvent (.getValue ⟨demoHash, none, none⟩)] rfl
    demoPut_reply (by decide) (by
      intro e' he' other hother hne
      obtain rfl := List.mem_singleton.mp he'
      obtain rfl := Option.some.inj hother
      exact Finset.mem_singleton_self _)
  exact ⟨item, hle, hpeek⟩

theorem immutable_of_put {token : List UInt8} {args : PutImmutableRequestArguments}
    (hrequest : e.request.requestType = .put ⟨token, .putImmutable args⟩)
    (hreply : s.reply crypto e = some (pingReply e.table)) :
    validateImmutable crypto args.v args.target = true ∧
      (s.step crypto e).immutableValues = s.immutableValues.put args.target args.v := by
  have hallow := filter_of_reply hreply
  rw [reply_of_allow hallow, dispatch, hrequest] at hreply
  rw [step_of_allow hallow, dispatch, hrequest]
  simp only at hreply ⊢
  rcases putImmutable_spec crypto e.table e.source token (s.fresh e) args with
    ⟨hmay, h⟩ | ⟨-, code, description, h⟩
  · rw [h]
    exact ⟨hmay.target, rfl⟩
  · rw [h] at hreply
    cases Option.some.inj hreply

theorem immutable_within_step {target : Id} {v : List UInt8} {used : Finset Id}
    (h : s.immutableValues.Within target v used) (hcard : used.card < s.immutableValues.capacity)
    (hhash : validateImmutable crypto v target = true)
    (hused : ∀ other, e.target = some other → other ≠ target → other ∈ used) :
    (s.step crypto e).immutableValues.capacity = s.immutableValues.capacity ∧
      ∃ v', (s.step crypto e).immutableValues.Within target v' used ∧
        validateImmutable crypto v' target = true := by
  rcases immutable_cases crypto s e with heq | ⟨read, hread, heq⟩ |
    ⟨token, args, hrequest, hmay, heq⟩
  · rw [heq]
    exact ⟨rfl, v, h, hhash⟩
  · rw [heq]
    exact ⟨Lru.Cache.capacity_touch _ _, v, h.touch (hused read hread), hhash⟩
  · have hput : e.target = some args.target := by rw [Event.target, hrequest]
    rw [heq]
    refine ⟨rfl, ?_⟩
    by_cases htarget : args.target = target
    · subst htarget
      exact ⟨args.v, Lru.Cache.within_put _ _ _ _, hmay.target⟩
    · exact ⟨v, h.put htarget (hused args.target hput htarget) hcard _, hhash⟩

theorem immutable_within_run {target : Id} {v : List UInt8} {used : Finset Id}
    {es : List Event} (h : s.immutableValues.Within target v used)
    (hcard : used.card < s.immutableValues.capacity)
    (hhash : validateImmutable crypto v target = true)
    (hused : ∀ e ∈ es, ∀ other, e.target = some other → other ≠ target → other ∈ used) :
    ∃ v', (Run.run (step crypto) s es).immutableValues.Within target v' used ∧
      validateImmutable crypto v' target = true := by
  induction es generalizing s v with
  | nil => exact ⟨v, h, hhash⟩
  | cons e es ih =>
    obtain ⟨hcapacity, v₁, hwithin, hhash'⟩ :=
      immutable_within_step h hcard hhash (hused e List.mem_cons_self)
    exact ih hwithin (by rw [hcapacity]; exact hcard) hhash'
      (fun e' he' => hused e' (List.mem_cons_of_mem e he'))

/-- An immutable value that was taken is kept as long as fewer other targets are used after it
than the cache has places for: a request that names no number is answered with a value of
that hash, whatever mutable item is under the target. -/
theorem immutable_kept (crypto : Crypto) (s : Server) (used : Finset Id) (es : List Event)
    {token : List UInt8} {args : PutImmutableRequestArguments}
    (hrequest : e.request.requestType = .put ⟨token, .putImmutable args⟩)
    (hreply : s.reply crypto e = some (pingReply e.table))
    (hcard : used.card < s.immutableValues.capacity)
    (hused : ∀ e' ∈ es, ∀ other, e'.target = some other → other ≠ args.target → other ∈ used) :
    ∃ v, hashImmutable crypto v = args.target ∧
      ∀ e' salt, e'.request.requestType = .getValue ⟨args.target, none, salt⟩ →
        (Run.run (step crypto) (s.step crypto e) es).filter e'.request e'.source = true →
        (Run.run (step crypto) (s.step crypto e) es).reply crypto e' = some (.response (
          .getImmutable ⟨e'.table.id,
            ((Run.run (step crypto) (s.step crypto e) es).fresh e').tokens.generateToken e'.source,
            some (e'.table.closest args.target), v⟩)) := by
  obtain ⟨hhash, hput⟩ := immutable_of_put hrequest hreply
  have hwithin : (s.step crypto e).immutableValues.Within args.target args.v used := by
    rw [hput]
    exact Lru.Cache.within_put _ _ _ _
  have hcapacity : (s.step crypto e).immutableValues.capacity = s.immutableValues.capacity := by
    rw [hput]
    rfl
  obtain ⟨v, hlast, hhash'⟩ :=
    immutable_within_run hwithin (by rw [hcapacity]; exact hcard) hhash hused
  refine ⟨v, of_decide_eq_true hhash', ?_⟩
  intro e' salt hget hallow
  exact immutable_reply_of_held hget rfl hlast.peek hallow

/-- The value is there after a request for another target. -/
theorem immutable_kept_demo :
    ∃ v, hashImmutable demoCrypto v = demoHash ∧
      ∀ e' salt, e'.request.requestType = .getValue ⟨demoHash, none, salt⟩ →
        (Run.run (step demoCrypto) (demoServer.step demoCrypto (demoEvent demoPutImmutable))
          [demoEvent (.getValue ⟨demoTarget, none, none⟩)]).filter e'.request e'.source = true →
        (Run.run (step demoCrypto) (demoServer.step demoCrypto (demoEvent demoPutImmutable))
          [demoEvent (.getValue ⟨demoTarget, none, none⟩)]).reply demoCrypto e'
            = some (.response (.getImmutable ⟨e'.table.id,
              ((Run.run (step demoCrypto) (demoServer.step demoCrypto (demoEvent demoPutImmutable))
                [demoEvent (.getValue ⟨demoTarget, none, none⟩)]).fresh e').tokens.generateToken
                  e'.source,
              some (e'.table.closest demoHash), v⟩)) :=
  immutable_kept demoCrypto demoServer {demoTarget}
    [demoEvent (.getValue ⟨demoTarget, none, none⟩)] (e := demoEvent demoPutImmutable) rfl
    (by decide +kernel)
    (by decide) (by
      intro e' he' other hother hne
      obtain rfl := List.mem_singleton.mp he'
      obtain rfl := Option.some.inj hother
      exact Finset.mem_singleton_self _)

theorem immutable_reply {token : List UInt8} {args : PutImmutableRequestArguments}
    (hrequest : e.request.requestType = .put ⟨token, .putImmutable args⟩)
    (hallow : s.filter e.request e.source = true)
    (hmay : (s.fresh e).MayPutImmutable crypto e.source token args) :
    s.reply crypto e = some (pingReply e.table) := by
  rw [reply_of_allow hallow, dispatch, hrequest]
  simp only
  rcases putImmutable_spec crypto e.table e.source token (s.fresh e) args with ⟨-, h⟩ | ⟨hnot, -⟩
  · rw [h]
  · exact absurd hmay hnot

theorem announce_reply {token : List UInt8} {args : AnnouncePeerRequestArguments}
    (hrequest : e.request.requestType = .put ⟨token, .announcePeer args⟩)
    (hallow : s.filter e.request e.source = true)
    (htoken : (s.fresh e).tokens.validate e.source token = true) :
    s.reply crypto e = some (pingReply e.table) := by
  rw [reply_of_allow hallow, dispatch, hrequest]
  simp only
  unfold announcePeer
  rw [if_neg (ne_false_of_eq_true htoken)]

/-- Two servers that keep the same, in whatever order it was used. -/
structure SameContents (s s' : Server) : Prop where
  immutable : ∀ target, s'.immutableValues.peek target = s.immutableValues.peek target
  mutable : ∀ target, s'.mutableValues.peek target = s.mutableValues.peek target
  peers : ∀ infoHash, s'.peers.infoHashes.peek infoHash = s.peers.infoHashes.peek infoHash

/-- Only a put with a valid token that is answered like a ping changes what is kept. Whatever
else comes, an error or a request that is filtered out among it, changes at most the order of
use; and a put leaves nothing new under another target than its own. -/
theorem only_puts_change (crypto : Crypto) (s : Server) (e : Event) :
    SameContents s (s.step crypto e) ∨
    ∃ token put, e.request.requestType = .put ⟨token, put⟩ ∧
      s.filter e.request e.source = true ∧
      (s.fresh e).tokens.validate e.source token = true ∧
      s.reply crypto e = some (pingReply e.table) ∧
      (∀ target v, target ≠ put.target →
        (s.step crypto e).immutableValues.peek target = some v →
        s.immutableValues.peek target = some v) ∧
      (∀ target item, target ≠ put.target →
        (s.step crypto e).mutableValues.peek target = some item →
        s.mutableValues.peek target = some item) ∧
      ∀ infoHash lru, infoHash ≠ put.target →
        (s.step crypto e).peers.infoHashes.peek infoHash = some lru →
        s.peers.infoHashes.peek infoHash = some lru := by
  cases hfilter : s.filter e.request e.source with
  | false =>
    rw [step_of_refuse hfilter]
    exact Or.inl ⟨fun _ => rfl, fun _ => rfl, fun _ => rfl⟩
  | true =>
    match hrequest : e.request.requestType with
    | .ping =>
      rw [step_of_allow hfilter, dispatch, hrequest]
      exact Or.inl ⟨fun _ => rfl, fun _ => rfl, fun _ => rfl⟩
    | .findNode target =>
      rw [step_of_allow hfilter, dispatch, hrequest]
      exact Or.inl ⟨fun _ => rfl, fun _ => rfl, fun _ => rfl⟩
    | .getPeers infoHash =>
      rw [step_of_allow hfilter, dispatch, hrequest]
      exact Or.inl ⟨fun _ => rfl, fun _ => rfl, fun _ => Lru.Cache.peek_touch _ _ _⟩
    | .getValue args =>
      rw [step_of_allow hfilter, dispatch, hrequest]
      simp only [Prod.map_fst, id]
      left
      rcases handleGetValue_spec (s.fresh e) e.table e.source args with h | h | h
      · rw [h]
        exact ⟨fun _ => rfl, fun _ => Lru.Cache.peek_touch _ _ _, fun _ => rfl⟩
      · rw [h]
        exact ⟨fun _ => Lru.Cache.peek_touch _ _ _, fun _ => rfl, fun _ => rfl⟩
      · rw [h]
        exact ⟨fun _ => Lru.Cache.peek_touch _ _ _, fun _ => Lru.Cache.peek_touch _ _ _,
          fun _ => rfl⟩
    | .put ⟨token, .announcePeer args⟩ =>
      rcases announcePeer_spec e.table e.source token
        (s.fresh e) e.request.requesterId args with ⟨htoken, h⟩ | ⟨code, description, h⟩
      · have hreply : s.reply crypto e = some (pingReply e.table) :=
          announce_reply hrequest hfilter htoken
        refine Or.inr ⟨token, .announcePeer args, rfl, rfl, htoken, hreply, ?_⟩
        rw [step_of_allow hfilter, dispatch, hrequest]
        simp only
        rw [h]
        refine ⟨fun _ _ _ hv => hv, fun _ _ _ hv => hv, ?_⟩
        intro infoHash lru hne hlru
        exact PeersStore.peek_of_peek_addPeer hne hlru
      · rw [step_of_allow hfilter, dispatch, hrequest]
        simp only
        rw [h]
        exact Or.inl ⟨fun _ => rfl, fun _ => rfl, fun _ => rfl⟩
    | .put ⟨token, .putImmutable args⟩ =>
      rcases putImmutable_spec crypto e.table e.source token (s.fresh e) args with
        ⟨hmay, h⟩ | ⟨-, code, description, h⟩
      · refine Or.inr ⟨token, .putImmutable args, rfl, rfl, hmay.token,
          immutable_reply hrequest hfilter hmay, ?_⟩
        rw [step_of_allow hfilter, dispatch, hrequest]
        simp only
        rw [h]
        refine ⟨?_, fun _ _ _ hv => hv, fun _ _ _ hv => hv⟩
        intro target v hne hv
        exact Lru.Cache.peek_of_peek_put hne hv
      · rw [step_of_allow hfilter, dispatch, hrequest]
        simp only
        rw [h]
        exact Or.inl ⟨fun _ => rfl, fun _ => rfl, fun _ => rfl⟩
    | .put ⟨token, .putMutable args⟩ =>
      rcases putMutable_spec crypto e.table e.source token (s.fresh e) args with
        ⟨hmay, h⟩ | ⟨-, code, description, h | h⟩
      · refine Or.inr ⟨token, .putMutable args, rfl, rfl, hmay.token,
          (mutable_reply_iff hrequest hfilter).mpr hmay, ?_⟩
        rw [step_of_allow hfilter, dispatch, hrequest]
        simp only
        rw [h]
        refine ⟨fun _ _ _ hv => hv, ?_, fun _ _ _ hv => hv⟩
        intro target item hne hitem
        have hbefore := Lru.Cache.peek_of_peek_put hne hitem
        rw [Lru.Cache.peek_touch] at hbefore
        exact hbefore
      · rw [step_of_allow hfilter, dispatch, hrequest]
        simp only
        rw [h]
        exact Or.inl ⟨fun _ => rfl, fun _ => rfl, fun _ => rfl⟩
      · rw [step_of_allow hfilter, dispatch, hrequest]
        simp only
        rw [h]
        exact Or.inl ⟨fun _ => rfl, fun _ => Lru.Cache.peek_touch _ _ _, fun _ => rfl⟩

end Nerea.Mainline.Server
