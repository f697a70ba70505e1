import Nerea.Mainline.RpcQueries

/-!
# Puts of a running node

While a mutable item is being put, another one takes its place only if it names the former's
number, so no update is lost on the way out. A put may also be started with nodes that never
gave a token: nothing is sent then, and it is not heard of again.
-/

set_option autoImplicit false

namespace Nerea.Mainline.Rpc

variable {crypto : Crypto} {s s' : Rpc} {m : Moment}

section Updates

/-- The mutable item that is being put under the target. -/
def mutablePut (s : Rpc) (target : Id) : Option PutMutableRequestArguments :=
  match (s.putQueries.lookup target).map PutQuery.request with
  | some (.putMutable args) => some args
  | _ => none

/-- A put that may take the place of another one: it knows the number of that one. -/
structure Succeeds (former latter : PutMutableRequestArguments) : Prop where
  cas : latter.cas = some former.seq
  seq : former.seq ≤ latter.seq
  sig : latter.sig ≠ former.sig

/-- A put that may not take the place of another one, and why. -/
inductive Refuses (former latter : PutMutableRequestArguments) : ConcurrencyError → Prop
  | notMostRecent (hsig : latter.sig ≠ former.sig) (hseq : latter.seq < former.seq) :
    Refuses former latter .notMostRecent
  | conflictRisk (hsig : latter.sig ≠ former.sig) (hseq : former.seq ≤ latter.seq)
    (hcas : latter.cas = none) : Refuses former latter .conflictRisk
  | casFailed (hsig : latter.sig ≠ former.sig) (hseq : former.seq ≤ latter.seq) (cas : ℤ)
    (hcas : latter.cas = some cas) (hne : cas ≠ former.seq) : Refuses former latter .casFailed

theorem mutablePut_eq_some {target : Id} {args : PutMutableRequestArguments} :
    s.mutablePut target = some args ↔
      (s.putQueries.lookup target).map PutQuery.request = some (.putMutable args) := by
  unfold mutablePut
  constructor
  · intro h
    split at h
    · rename_i found hfound
      obtain rfl := Option.some.inj h
      exact hfound
    · cases h
  · intro h
    rw [h]

/-- What a put meets that is under way, and what comes of it. -/
theorem conflict_cases (s : Rpc) (request : PutRequestSpecific) :
    (s.conflict request = none ∧
      ∀ args, request = .putMutable args → s.mutablePut args.target = none) ∨
    ∃ args former, request = .putMutable args ∧ s.mutablePut args.target = some former ∧
      (args.sig = former.sig ∧ s.conflict request = some .same ∨
        (∃ err, Refuses former args err ∧ s.conflict request = some (.refuse err)) ∨
        Succeeds former args ∧ s.conflict request = some .replace) := by
  cases request with
  | announcePeer args => exact Or.inl ⟨rfl, fun _ h => by cases h⟩
  | putImmutable args => exact Or.inl ⟨rfl, fun _ h => by cases h⟩
  | putMutable args =>
    unfold conflict
    simp only
    cases hput : s.mutablePut args.target with
    | none =>
      left
      refine ⟨?_, ?_⟩
      · split
        · rename_i former hformer
          rw [mutablePut_eq_some.mpr hformer] at hput
          cases hput
        · rfl
      · intro args' h
        obtain rfl := PutRequestSpecific.putMutable.inj h
        exact hput
    | some former =>
      right
      refine ⟨args, former, rfl, hput, ?_⟩
      rw [mutablePut_eq_some.mp hput]
      simp only
      split
      · exact Or.inl ⟨‹_›, rfl⟩
      · rename_i hsig
        right
        split
        · exact Or.inl ⟨_, .notMostRecent hsig ‹_›, rfl⟩
        · rename_i hseq
          have hle : former.seq ≤ args.seq := Int.not_lt.mp hseq
          split
          · rename_i cas hcas
            split
            · rename_i hsame
              exact Or.inr ⟨⟨hcas.trans (congrArg some hsame), hle, hsig⟩, rfl⟩
            · exact Or.inl ⟨_, .casFailed hsig hle cas hcas ‹_›, rfl⟩
          · exact Or.inl ⟨_, .conflictRisk hsig hle ‹_›, rfl⟩

theorem conflict_of_refuses {former args : PutMutableRequestArguments} {err : ConcurrencyError}
    (hformer : s.mutablePut args.target = some former) (h : Refuses former args err) :
    s.conflict (.putMutable args) = some (.refuse err) := by
  unfold conflict
  simp only
  rw [mutablePut_eq_some.mp hformer]
  simp only
  cases h with
  | notMostRecent hsig hseq => rw [if_neg hsig, if_pos hseq]
  | conflictRisk hsig hseq hcas => rw [if_neg hsig, if_neg (Int.not_lt.mpr hseq), hcas]
  | casFailed hsig hseq cas hcas hne =>
    rw [if_neg hsig, if_neg (Int.not_lt.mpr hseq), hcas]
    simp only
    rw [if_neg hne]

/-- A put that nothing is in the way of is under way afterwards. -/
theorem startPut_ok {request : PutRequestSpecific} {extraNodes : Option (List Node)}
    {result : Except PutError Unit} (h : s.startPut m request extraNodes = some (s', result)) :
    result = .ok () ∧ ∃ query, s'.putQueries.lookup request.target = some query ∧
      query.request = request := by
  unfold startPut at h
  simp only at h
  split at h
  · rename_i closestNodes hcached
    split at h
    · cases h
    · rename_i err hstart
      have hempty := PutQuery.start_ne_error hstart
      rw [cachedNodes, Option.filter_eq_some_iff, hempty] at hcached
      exact absurd hcached.2 Bool.false_ne_true
    · rename_i query socket hstart
      obtain ⟨rfl, rfl⟩ := Prod.mk.inj (Option.some.inj h)
      obtain ⟨-, hquery⟩ := PutQuery.start_eq_ok hstart
      refine ⟨rfl, query, AList.lookup_insert _, ?_⟩
      rw [hquery]
      rfl
  · obtain ⟨rfl, rfl⟩ := Prod.mk.inj (Option.some.inj h)
    exact ⟨rfl, _, AList.lookup_insert _, rfl⟩

/-- A put is refused only for the sake of one that is under way, and the node stays as it is. -/
theorem put_error_iff (request : PutRequestSpecific) (extraNodes : Option (List Node))
    (err : PutError) :
    s.put m request extraNodes = some (s', .error err) ↔
      s' = s ∧ ∃ args former why, request = .putMutable args ∧
        s.mutablePut args.target = some former ∧ Refuses former args why ∧
        err = .concurrency why := by
  have hstart : ∀ t : Rpc, t.startPut m request extraNodes ≠ some (s', .error err) := by
    intro t h
    cases (startPut_ok h).1
  constructor
  · intro h
    unfold put at h
    rcases conflict_cases s request with ⟨hconflict, -⟩ | ⟨args, former, hrequest, hformer, hcases⟩
    · rw [hconflict] at h
      exact absurd h (hstart s)
    · rcases hcases with ⟨-, hconflict⟩ | ⟨why, hrefuses, hconflict⟩ | ⟨-, hconflict⟩
      · rw [hconflict] at h
        cases h
      · rw [hconflict] at h
        obtain ⟨rfl, herr⟩ := Prod.mk.inj (Option.some.inj h)
        exact ⟨rfl, args, former, why, hrequest, hformer, hrefuses, (Except.error.inj herr).symm⟩
      · rw [hconflict] at h
        exact absurd h (hstart _)
  · rintro ⟨rfl, args, former, why, rfl, hformer, hrefuses, rfl⟩
    rw [put, conflict_of_refuses hformer hrefuses]

/-- Without a put of the user for the target, the put that is under way for it is an old one. -/
theorem request_of_changes {origin : Rpc} {call : Option Call}
    {heard : Option (Message × SocketAddrV4)} {ending : Over} {target : Id}
    (hcall : ∀ request, call = some (.put request) → request.target ≠ target)
    (h : Changes crypto m origin call heard ending origin s') {query : PutQuery}
    (hquery : s'.putQueries.lookup target = some query) :
    ∃ former, origin.putQueries.lookup target = some former ∧
      query.request = former.request := by
  suffices hall : ∀ query, s'.putQueries.lookup target = some query →
      ∃ former, origin.putQueries.lookup target = some former ∧
        query.request = former.request from hall query hquery
  refine Changes.invariant (P := fun s => ∀ query, s.putQueries.lookup target = some query →
    ∃ former, origin.putQueries.lookup target = some former ∧
      query.request = former.request) ?_ h (fun query hfound => ⟨query, hfound, rfl⟩)
  intro t t' hchange ht
  have hinsert : ∀ (id : Id) (query query' : PutQuery), t.putQueries.lookup id = some query →
      query'.request = query.request → ∀ found,
      (t.putQueries.insert id query').lookup target = some found →
        ∃ former, origin.putQueries.lookup target = some former ∧
          found.request = former.request := by
    intro id query query' hfound hsame found hfound'
    by_cases htarget : target = id
    · subst htarget
      rw [AList.lookup_insert] at hfound'
      obtain rfl := Option.some.inj hfound'
      obtain ⟨former, hformer, hrequest⟩ := ht query hfound
      exact ⟨former, hformer, hsame.trans hrequest⟩
    · rw [AList.lookup_insert_ne htarget] at hfound'
      exact ht found hfound'
  cases hchange with
  | acked id query query' hfound hsame hinflight => exact hinsert id query query' hfound hsame
  | started id query query' hfound hsame hget => exact hinsert id query query' hfound hsame
  | ended id hended =>
    intro query hfound
    by_cases htarget : target = id
    · rw [htarget, AList.lookup_erase] at hfound
      cases hfound
    · rw [AList.lookup_erase_ne htarget] at hfound
      exact ht query hfound
  | placed request query hplaced hrequest =>
    intro found hfound
    rw [AList.lookup_insert_ne (Ne.symm (hcall request hplaced))] at hfound
    exact ht found hfound
  | cached query nodes =>
    obtain ⟨_, _, _, _, hcached⟩ := cacheIterativeQuery_frame t query nodes
    rw [hcached]
    exact ht
  | _ => exact ht

theorem mutablePut_of_changes {call : Option Call} {heard : Option (Message × SocketAddrV4)}
    {ending : Over} {target : Id}
    (hcall : ∀ request, call = some (.put request) → request.target ≠ target)
    (h : Changes crypto m s call heard ending s s') {args : PutMutableRequestArguments}
    (hput : s'.mutablePut target = some args) : s.mutablePut target = some args := by
  obtain ⟨query, hquery, hrequest⟩ := Option.map_eq_some_iff.mp (mutablePut_eq_some.mp hput)
  obtain ⟨former, hformer, hsame⟩ := request_of_changes hcall h hquery
  rw [mutablePut_eq_some, hformer, Option.map_some, ← hsame, hrequest]

/-- One step leaves the put for a target, or puts one in its place that may take it. -/
theorem mutablePut_step {e : Event} {target : Id} {former latter : PutMutableRequestArguments}
    (h : step crypto (some s) e = some s') (hs : s.mutablePut target = some former)
    (hs' : s'.mutablePut target = some latter) : latter = former ∨ Succeeds former latter := by
  by_cases hcall : ∀ request, e.call = some (.put request) → request.target ≠ target
  · left
    obtain ⟨t, heard, ending, hfirst, hsecond, -⟩ := step_changes h
    have hbefore := mutablePut_of_changes hcall (hfirst.trans hsecond) hs'
    exact Option.some.inj (hbefore.symm.trans hs)
  · cases e with
    | get m request extraNodes => exact absurd (fun _ h => by cases h) hcall
    | tick m datagram => exact absurd (fun _ h => by cases h) hcall
    | put m request extraNodes =>
      have htarget : request.target = target := by
        by_contra hne
        exact hcall (fun _ h => by cases h; exact hne)
      subst htarget
      obtain ⟨⟨t, result⟩, hput, rfl⟩ := Option.map_eq_some_iff.mp h
      -- what is placed is what the user asks for
      have hplaced : ∀ u : Rpc, u.startPut m request extraNodes = some (t, result) →
          request = .putMutable latter := by
        intro u hstart
        obtain ⟨-, query, hfound, hrequest⟩ := startPut_ok hstart
        have hlatter := mutablePut_eq_some.mp hs'
        rw [hfound, Option.map_some, hrequest] at hlatter
        exact Option.some.inj hlatter
      unfold put at hput
      rcases conflict_cases s request with ⟨hconflict, hnone⟩ |
        ⟨args, found, rfl, hfound, hcases⟩
      · rw [hconflict] at hput
        obtain rfl := hplaced s hput
        have hno := hnone latter rfl
        exact absurd (hno.symm.trans hs) (fun h => by cases h)
      · obtain rfl := Option.some.inj (hfound.symm.trans hs)
        rcases hcases with ⟨-, hconflict⟩ | ⟨why, -, hconflict⟩ | ⟨hsucceeds, hconflict⟩
        · rw [hconflict] at hput
          obtain ⟨rfl, -⟩ := Prod.mk.inj (Option.some.inj hput)
          exact Or.inl (Option.some.inj (hs'.symm.trans hs))
        · rw [hconflict] at hput
          obtain ⟨rfl, -⟩ := Prod.mk.inj (Option.some.inj hput)
          exact Or.inl (Option.some.inj (hs'.symm.trans hs))
        · rw [hconflict] at hput
          obtain rfl := PutRequestSpecific.putMutable.inj (hplaced _ hput)
          exact Or.inr hsucceeds

theorem after_none (es : List Event) : Run.run (step crypto) none es = none := by
  induction es with
  | nil => rfl
  | cons e es ih => exact ih

/-- As long as a mutable item is being put for a target all the time, every one that takes the
place of another has been made in knowledge of it, and the numbers never go down. -/
theorem updates_chain {target : Id} {es : List Event}
    (hall : Run.Always (step crypto)
      (fun state => ∀ t, state = some t → (t.mutablePut target).isSome = true) (some s) es)
    (h : after crypto s es = some s') {former latter : PutMutableRequestArguments}
    (hs : s.mutablePut target = some former) (hs' : s'.mutablePut target = some latter) :
    Relation.ReflTransGen Succeeds former latter ∧ former.seq ≤ latter.seq := by
  induction es generalizing s former with
  | nil =>
    obtain rfl := Option.some.inj h
    obtain rfl := Option.some.inj (hs.symm.trans hs')
    exact ⟨Relation.ReflTransGen.refl, Int.le_refl _⟩
  | cons e es ih =>
    cases hstep : step crypto (some s) e with
    | none =>
      have hstopped : after crypto s (e :: es) = Run.run (step crypto) none es := by
        rw [← hstep]
        rfl
      rw [hstopped, after_none] at h
      cases h
    | some t =>
      have hrest : after crypto s (e :: es) = after crypto t es := by
        rw [after, after, ← hstep]
        rfl
      rw [hrest] at h
      have hlater := hall.2
      rw [hstep] at hlater
      obtain ⟨middle, hmiddle⟩ := Option.isSome_iff_exists.mp (hlater.head t rfl)
      obtain ⟨hchain, hle⟩ := ih hlater h hmiddle
      rcases mutablePut_step hstep hs hmiddle with rfl | hsucceeds
      · exact ⟨hchain, hle⟩
      · exact ⟨Relation.ReflTransGen.head hsucceeds hchain, Int.le_trans hsucceeds.seq hle⟩

/-- An item that takes the place of the one that is put before. -/
def demoUpdate : PutMutableRequestArguments :=
  ⟨Server.demoTarget, [98], Server.demoKey, 2, Vector.replicate 64 0, none, some 1⟩

theorem updates_chain_demo :
    ∃ s s', after Server.demoCrypto demoNode [.put (demoMoment 0) (.putMutable Server.demoPut) none]
        = some s ∧
      after Server.demoCrypto s [.put (demoMoment 0) (.putMutable demoUpdate) none] = some s' ∧
      Relation.ReflTransGen Succeeds Server.demoPut demoUpdate := by
  have hgoes : (after Server.demoCrypto demoNode
      [.put (demoMoment 0) (.putMutable Server.demoPut) none]).any (fun s =>
        s.mutablePut Server.demoTarget = some Server.demoPut ∧
        (after Server.demoCrypto s [.put (demoMoment 0) (.putMutable demoUpdate) none]).any
          (fun s' => s'.mutablePut Server.demoTarget = some demoUpdate) = true) = true := by
    decide +kernel
  obtain ⟨s, hs, hboth⟩ := (Option.any_eq_true _ _).mp hgoes
  obtain ⟨hfirst, hnext⟩ := of_decide_eq_true hboth
  obtain ⟨s', hs', hsecond⟩ := (Option.any_eq_true _ _).mp hnext
  have hlast := of_decide_eq_true hsecond
  have hall : Run.Always (step Server.demoCrypto)
      (fun state => ∀ t, state = some t → (t.mutablePut Server.demoTarget).isSome = true) (some s)
      [.put (demoMoment 0) (.putMutable demoUpdate) none] := by
    constructor
    · intro t ht
      obtain rfl := Option.some.inj ht
      rw [hfirst]
      rfl
    · intro t ht
      obtain rfl := Option.some.inj (ht.symm.trans hs')
      rw [hlast]
      rfl
  exact ⟨s, s', hs, hs', (updates_chain hall hs' hfirst hlast).1⟩

end Updates

section Placed
variable {origin : Rpc} {call : Option Call} {heard : Option (Message × SocketAddrV4)}
  {ending : Over}

theorem Change.keeps_put (h : Change crypto m origin call heard ending s s') {id : Id}
    (hover : ¬ ending.puts id) (hfound : id ∈ s.putQueries) : id ∈ s'.putQueries := by
  cases h with
  | acked id' query query' hquery hrequest hinflight =>
    exact (AList.mem_insert _).mpr (Or.inr hfound)
  | started id' query query' hquery hrequest hget =>
    exact (AList.mem_insert _).mpr (Or.inr hfound)
  | placed request query hcall hrequest =>
    exact (AList.mem_insert _).mpr (Or.inr hfound)
  | ended id' hended =>
    refine AList.mem_erase.mpr ⟨?_, hfound⟩
    rintro rfl
    exact hover hended
  | cached cached nodes =>
    obtain ⟨_, _, _, _, hcached⟩ := cacheIterativeQuery_frame s cached nodes
    rw [hcached]
    exact hfound
  | _ => exact hfound

/-- The puts after a tick are those before it that it does not report as done. -/
theorem tick_puts {datagram : Option KrpcSocket.Datagram} {report : RpcTickReport}
    (h : s.tick crypto m datagram = some (s', report)) :
    (∀ id query', s'.putQueries.lookup id = some query' →
      (∀ e ∈ report.donePutQueries, e.1 ≠ id) ∧
        ∃ query, s.putQueries.lookup id = some query ∧ query'.request = query.request) ∧
    ∀ id ∈ s.putQueries, (∀ e ∈ report.donePutQueries, e.1 ≠ id) → id ∈ s'.putQueries := by
  obtain ⟨t, hbefore, hafter, -, hdone⟩ := tick_changes h
  have hboth := (hbefore _).trans hafter
  refine ⟨?_, ?_⟩
  · intro id query' hquery'
    refine ⟨?_, request_of_changes (fun _ hcall => by cases hcall) hboth hquery'⟩
    rintro e he rfl
    have hnone : s'.putQueries.lookup e.1 = none :=
      Changes.invariant (fun _ _ hchange hx => hchange.putQueries_none hx) hafter (hdone e he).2
    rw [hnone] at hquery'
    cases hquery'
  · intro id hid hnot
    have hover : ¬ report.ending.puts id := by
      rintro ⟨e, he, heq⟩
      exact hnot e he heq
    exact Changes.invariant (P := fun t => id ∈ t.putQueries)
      (fun _ _ hchange hx => hchange.keeps_put hover hx) hboth hid

theorem putQueries_get (s : Rpc) (m : Moment) (request : GetRequestSpecific)
    (extraNodes : Option (List SocketAddrV4)) :
    (s.get m request extraNodes).1.putQueries = s.putQueries := by
  unfold get
  simp only
  split
  · rfl
  · rfl

theorem lookup_startPut {request : PutRequestSpecific} {extraNodes : Option (List Node)}
    {result : Except PutError Unit} (h : s.startPut m request extraNodes = some (s', result))
    {id : Id} (hid : id ≠ request.target) : s'.putQueries.lookup id = s.putQueries.lookup id := by
  unfold startPut at h
  simp only at h
  split at h
  · split at h
    · cases h
    · obtain ⟨rfl, -⟩ := Prod.mk.inj (Option.some.inj h)
      rfl
    · obtain ⟨rfl, -⟩ := Prod.mk.inj (Option.some.inj h)
      exact AList.lookup_insert_ne hid
  · obtain ⟨rfl, -⟩ := Prod.mk.inj (Option.some.inj h)
    refine (AList.lookup_insert_ne hid).trans ?_
    rw [putQueries_get]

/-- A put that succeeds is under way, or one with its signature is, and no other is touched. -/
theorem put_ok {request : PutRequestSpecific} {extraNodes : Option (List Node)}
    (h : s.put m request extraNodes = some (s', .ok ())) :
    (∃ query, s'.putQueries.lookup request.target = some query ∧
      (query.request = request ∨ s.putQueries.lookup request.target = some query)) ∧
    ∀ id ≠ request.target, s'.putQueries.lookup id = s.putQueries.lookup id := by
  have hstart : ∀ t : Rpc, t.startPut m request extraNodes = some (s', .ok ()) →
      ∃ query, s'.putQueries.lookup request.target = some query ∧
        (query.request = request ∨ s.putQueries.lookup request.target = some query) := by
    intro t ht
    obtain ⟨-, query, hquery, hrequest⟩ := startPut_ok ht
    exact ⟨query, hquery, Or.inl hrequest⟩
  unfold put at h
  rcases conflict_cases s request with ⟨hconflict, -⟩ |
    ⟨args, former, rfl, hformer, hcases⟩
  · rw [hconflict] at h
    exact ⟨hstart s h, fun id hid => lookup_startPut h hid⟩
  · rcases hcases with ⟨-, hconflict⟩ | ⟨why, -, hconflict⟩ | ⟨-, hconflict⟩
    · rw [hconflict] at h
      obtain ⟨rfl, -⟩ := Prod.mk.inj (Option.some.inj h)
      obtain ⟨query, hquery, -⟩ := Option.map_eq_some_iff.mp (mutablePut_eq_some.mp hformer)
      exact ⟨⟨query, hquery, Or.inr hquery⟩, fun id _ => rfl⟩
    · rw [hconflict] at h
      cases h
    · rw [hconflict] at h
      refine ⟨hstart _ h, fun id hid => ?_⟩
      exact (lookup_startPut h hid).trans (AList.lookup_erase_ne hid)

end Placed

section Tokens

theorem sendAll_of_no_token (now : ℕ) (randomId : BitVec 32 → Id) (request : PutRequestSpecific)
    {nodes : List Node} (h : ∀ node ∈ nodes, node.token = none) (socket : KrpcSocket)
    (tids : List (BitVec 32)) :
    PutQuery.sendAll now randomId request nodes socket tids = (socket, tids) := by
  induction nodes with
  | nil => rfl
  | cons node nodes ih =>
    rw [PutQuery.sendAll, h node List.mem_cons_self]
    exact ih (fun n hn => h n (List.mem_cons_of_mem node hn))

/-- A put for the target that waits for nothing, with no query under way that would start it. -/
structure Stuck (target : Id) (s : Rpc) : Prop where
  put : ∃ query, s.putQueries.lookup target = some query ∧ query.inflightRequests = []
  get : ∀ query, s.iterativeQueries.lookup target = some query → query.isFindNode = true

theorem Stuck.not_ended {target : Id} (h : Stuck target s) : ¬ Ended s target := by
  obtain ⟨stuck, hstuck, hidle⟩ := h.put
  rintro (⟨query, hquery, hstarted⟩ | ⟨query, hquery, hkind⟩)
  · obtain rfl := Option.some.inj (hquery.symm.trans hstuck)
    rw [PutQuery.started, hidle] at hstarted
    cases hstarted
  · rw [h.get query hquery] at hkind
    cases hkind

theorem Stuck.insert {target id : Id} {query : IterativeQuery} (h : Stuck target s)
    (hquery : id = target → query.isFindNode = true) :
    Stuck target { s with iterativeQueries := s.iterativeQueries.insert id query } := by
  refine ⟨h.put, ?_⟩
  intro found hfound
  by_cases htarget : target = id
  · subst htarget
    simp only at hfound
    rw [AList.lookup_insert] at hfound
    obtain rfl := Option.some.inj hfound
    exact hquery rfl
  · simp only at hfound
    rw [AList.lookup_insert_ne htarget] at hfound
    exact h.get found hfound

theorem Stuck.change {origin : Rpc} {call : Option Call} {target : Id}
    {heard : Option (Message × SocketAddrV4)} {ending : Over} (horigin : Stuck target origin)
    (hcall : ∀ c, call = some c → c.target ≠ target) (hover : ¬ ending.puts target)
    (hs : Stuck target s) (h : Change crypto m origin call heard ending s s') :
    Stuck target s' := by
  obtain ⟨stuck, hstuck, hidle⟩ := hs.put
  have hunder : ∀ (id : Id) (query query' : IterativeQuery),
      s.iterativeQueries.lookup id = some query → query.Same query' → id = target →
        query'.isFindNode = true := by
    rintro id query query' hfound hsame rfl
    rw [hsame.isFindNode]
    exact hs.get query hfound
  cases h with
  | queried request query hnone hbegun hwhy =>
    refine hs.insert ?_
    intro htarget
    rcases hwhy with ⟨node, rfl⟩ | ⟨c, hc, hsame⟩
    · rw [IterativeQuery.isFindNode, hbegun.requestType]
      rfl
    · exact absurd (hsame.trans htarget) (hcall c hc)
  | ticked id query query' hfound hsame => exact hs.insert (hunder id query query' hfound hsame)
  | answered id query message source response hheard hfound hvalue =>
    have hkind : id = target →
        ((query.hear m.now source message).response response).isFindNode = true :=
      hunder id query (query.hear m.now source message) hfound
        (query.same_hear m.now source message)
    exact hs.insert hkind
  | learned id query message source hheard hanswer hreadOnly hfound hvalue =>
    have hinserted :=
      hs.insert (hunder id query _ hfound (query.same_hear m.now source message))
    exact ⟨hinserted.put, hinserted.get⟩
  | finished id =>
    refine ⟨hs.put, ?_⟩
    intro query hfound
    by_cases htarget : target = id
    · rw [htarget] at hfound
      simp only at hfound
      rw [AList.lookup_erase] at hfound
      cases hfound
    · simp only at hfound
      rw [AList.lookup_erase_ne htarget] at hfound
      exact hs.get query hfound
  | acked id query query' hfound hrequest hinflight =>
    refine ⟨?_, hs.get⟩
    by_cases htarget : target = id
    · subst htarget
      obtain rfl := Option.some.inj (hfound.symm.trans hstuck)
      exact ⟨query', AList.lookup_insert _, hinflight.trans hidle⟩
    · exact ⟨stuck, (AList.lookup_insert_ne htarget).trans hstuck, hidle⟩
  | started id query query' hfound hrequest hget =>
    have htarget : target ≠ id := by
      rintro rfl
      exact horigin.not_ended (Or.inr hget)
    exact ⟨⟨stuck, (AList.lookup_insert_ne htarget).trans hstuck, hidle⟩, hs.get⟩
  | ended id hended =>
    have htarget : target ≠ id := by
      rintro rfl
      exact hover hended
    exact ⟨⟨stuck, (AList.lookup_erase_ne htarget).trans hstuck, hidle⟩, hs.get⟩
  | placed request query hplaced hrequest =>
    have htarget : target ≠ request.target := (hcall _ hplaced).symm
    exact ⟨⟨stuck, (AList.lookup_insert_ne htarget).trans hstuck, hidle⟩, hs.get⟩
  | cached query nodes =>
    obtain ⟨_, _, _, _, hcached⟩ := cacheIterativeQuery_frame s query nodes
    rw [hcached]
    exact ⟨hs.put, hs.get⟩
  | _ => exact ⟨hs.put, hs.get⟩

theorem Stuck.after {target : Id} {es : List Event} (hs : Stuck target s)
    (hcalls : ∀ e ∈ es, ∀ c, e.call = some c → c.target ≠ target)
    (h : after crypto s es = some s') : Stuck target s' := by
  refine after_induction (P := fun es t => (∀ e ∈ es, ∀ c, e.call = some c → c.target ≠ target) →
    Stuck target t) (fun _ => hs) ?_ h hcalls
  intro es e u t v heard ending hu hfirst hsecond _ hends hcalls
  have hbefore := hu (fun e' he' => hcalls e' (List.mem_append_left [e] he'))
  have hcall := hcalls e (List.mem_append_right es (List.mem_singleton_self e))
  have hover : ¬ ending.puts target := by
    intro hputs
    rcases hends target hputs with hended | ⟨request, hrequest, hsame⟩
    · exact hbefore.not_ended hended
    · exact hcall _ hrequest hsame
  exact Changes.invariant (fun x y hchange hx => hbefore.change hcall hover hx hchange)
    (hfirst.trans hsecond) hbefore

/-- A put may be started with cached nodes that look fresh and never gave a token. It succeeds,
but nothing is sent, and whatever happens then without another call for the target, the put is
neither done nor failed. -/
theorem put_without_tokens (crypto : Crypto) (request : PutRequestSpecific)
    {closestNodes : List Node}
    (hcached : s.cachedNodes m request.target = some closestNodes)
    (hfew : closestNodes.length ≤ 255) (htokens : ∀ node ∈ closestNodes, node.token = none)
    (hconflict : s.conflict request = none)
    (hget : ∀ query, s.iterativeQueries.lookup request.target = some query →
      query.isFindNode = true) :
    ∃ s', s.put m request none = some (s', .ok ()) ∧ s'.socket = s.socket ∧
      ∀ es, (∀ e ∈ es, ∀ c, e.call = some c → c.target ≠ request.target) →
        ∀ t, after crypto s' es = some t →
          (∃ query, t.putQueries.lookup request.target = some query ∧
            query.inflightRequests = []) ∧
          ∀ m datagram t' report, t.tick crypto m datagram = some (t', report) →
            ∀ err, (request.target, err) ∉ report.donePutQueries := by
  have hne : closestNodes.isEmpty = false := by
    rw [cachedNodes, Option.filter_eq_some_iff, Bool.and_eq_true] at hcached
    exact (Bool.not_eq_true' _).mp hcached.2.1
  have hstart : (PutQuery.new request.target request none).start s.socket m.now m.randomId
      closestNodes = some (.ok (PutQuery.new request.target request none, s.socket)) := by
    have hsent := sendAll_of_no_token m.now m.randomId request htokens s.socket []
    have hidle : (PutQuery.new request.target request none).started = false := rfl
    rw [PutQuery.start, hidle, if_neg Bool.false_ne_true, hne, if_neg Bool.false_ne_true,
      if_neg (Nat.not_lt.mpr hfew)]
    simp only [PutQuery.new, Option.getD_none, List.append_nil, hsent]
  have hput : s.put m request none = some ({ s with
      cachedIterativeQueries := s.cachedIterativeQueries.touch request.target
      putQueries := s.putQueries.insert request.target
        (PutQuery.new request.target request none) }, .ok ()) := by
    rw [put, hconflict]
    simp only [startPut]
    rw [hcached]
    simp only
    rw [hstart]
  refine ⟨_, hput, rfl, ?_⟩
  intro es hcalls t hafter
  have hfirst : Stuck request.target { s with
      cachedIterativeQueries := s.cachedIterativeQueries.touch request.target
      putQueries := s.putQueries.insert request.target
        (PutQuery.new request.target request none) } :=
    ⟨⟨_, AList.lookup_insert _, rfl⟩, hget⟩
  have hstuck : Stuck request.target t := hfirst.after hcalls hafter
  refine ⟨hstuck.put, ?_⟩
  intro m datagram t' report htick err hdone
  obtain ⟨_, -, -, -, hended⟩ := tick_changes htick
  exact hstuck.not_ended (hended _ hdone).1

theorem put_without_tokens_demo :
    ∃ s s', after Server.demoCrypto demoNode demoSearch = some s ∧
      s.put (demoMoment 200) (.putImmutable ⟨RoutingTable.oneId, [97]⟩) none = some (s', .ok ()) ∧
      s'.socket = s.socket := by
  have hgoes : (after Server.demoCrypto demoNode demoSearch).any (fun s =>
      s.cachedNodes (demoMoment 200) RoutingTable.oneId
          = some [.new RoutingTable.oneId demoAddress 0] ∧
        (s.iterativeQueries.lookup RoutingTable.oneId).isNone = true) = true := by
    decide +kernel
  obtain ⟨s, hs, hboth⟩ := (Option.any_eq_true _ _).mp hgoes
  obtain ⟨hcached, hnone⟩ := of_decide_eq_true hboth
  obtain ⟨s', hput, hsocket, -⟩ := put_without_tokens Server.demoCrypto
    (.putImmutable ⟨RoutingTable.oneId, [97]⟩) hcached (by decide)
    (by
      intro node hnode
      obtain rfl := List.mem_singleton.mp hnode
      rfl)
    rfl
    (by
      intro query hquery
      have hlookup := Option.isNone_iff_eq_none.mp hnone
      cases hlookup.symm.trans hquery)
  exact ⟨s, s', hs, hput, hsocket⟩

end Tokens

end Nerea.Mainline.Rpc
