import Nerea.Mainline.ServerRuns

/-!
# The peers the server knows

The peers that a request for peers is answered with were announced for what it asks for, from
their own addresses and with a valid token. There are ten of them when there are as many: a
peer is certain to be chosen once all that are left are needed.
-/

set_option autoImplicit false

namespace Nerea.Mainline

namespace PeersStore

variable {chance : ℕ → ℕ → ℕ} {chunk : List UInt8} {size : ℕ}

theorem randInt_lt (chunk : List UInt8) (index : ℕ) : randInt chunk index < 2 ^ 32 := by
  have hlt := XorMetric.value_lt ((chunk.drop index).take 4).reverse
  have hlen : ((chunk.drop index).take 4).reverse.length ≤ 4 := by
    rw [List.length_reverse]
    exact List.length_take_le 4 _
  have hpow : 2 ^ (8 * ((chunk.drop index).take 4).reverse.length) ≤ 2 ^ 32 :=
    Nat.pow_le_pow_right (by decide) (by omega)
  exact Nat.lt_of_lt_of_le hlt hpow

/-- The peers that are chosen are some of those that are left, in their order. -/
theorem sample_sublist (chance : ℕ → ℕ → ℕ) (chunk : List UInt8) (size index : ℕ)
    (results peers : List SocketAddrV4) :
    ∃ chosen, chosen.Sublist peers ∧
      sample chance chunk size index results peers = results ++ chosen := by
  induction peers generalizing index results with
  | nil => exact ⟨[], List.Sublist.refl [], (List.append_nil results).symm⟩
  | cons addr rest ih =>
    unfold sample
    split
    · split
      · exact ⟨[addr], List.singleton_sublist.mpr List.mem_cons_self, rfl⟩
      · obtain ⟨chosen, hsub, heq⟩ := ih (index + 1) (results ++ [addr])
        refine ⟨addr :: chosen, hsub.cons_cons addr, ?_⟩
        rw [heq, List.append_assoc, List.singleton_append]
    · obtain ⟨chosen, hsub, heq⟩ := ih (index + 1) results
      exact ⟨chosen, hsub.cons addr, heq⟩

theorem length_sample_le (index : ℕ) {results : List SocketAddrV4} (peers : List SocketAddrV4)
    (h : results.length < targetSize) :
    (sample chance chunk size index results peers).length ≤ targetSize := by
  induction peers generalizing index results with
  | nil => exact Nat.le_of_lt h
  | cons addr rest ih =>
    unfold sample
    split
    · split
      · rename_i hfull
        exact Nat.le_of_eq hfull
      · rename_i hfull
        apply ih
        rw [List.length_append, List.length_singleton] at hfull ⊢
        omega
    · exact ih (index + 1) h

/-- What the computed chance and the random bytes have to be for the sample to be full: an
item that is one of as many as are needed has the highest chance, and no draw reaches it. -/
structure Full (chance : ℕ → ℕ → ℕ) (chunk : List UInt8) (size : ℕ) : Prop where
  chance : ∀ n, 0 < n → chance n n = 2 ^ 32 - 1
  draw : ∀ index, index < size → randInt chunk index ≠ 2 ^ 32 - 1

theorem length_sample (hfull : Full chance chunk size) {index : ℕ}
    {results peers : List SocketAddrV4} (hindex : index + peers.length = size)
    (h : results.length < targetSize) (henough : targetSize ≤ results.length + peers.length) :
    (sample chance chunk size index results peers).length = targetSize := by
  induction peers generalizing index results with
  | nil => exact absurd (Nat.lt_of_lt_of_le h henough) (Nat.lt_irrefl _)
  | cons addr rest ih =>
    rw [List.length_cons] at hindex henough
    unfold sample
    split
    · split
      · rename_i hlast
        exact hlast
      · rename_i hlast
        rw [List.length_append, List.length_singleton] at hlast
        apply ih (by omega)
        · rw [List.length_append, List.length_singleton]
          omega
        · rw [List.length_append, List.length_singleton]
          omega
    · rename_i hskip
      -- an item that has to be taken is not passed over
      have hspare : targetSize ≠ results.length + (rest.length + 1) := by
        intro heq
        apply hskip
        have hslots : targetSize - results.length = size - index := by omega
        have hpos : 0 < size - index := by omega
        rw [hslots, hfull.chance _ hpos]
        have hlt := randInt_lt chunk index
        have hne := hfull.draw index (by omega)
        omega
      exact ih (by omega) h (by omega)

/-- The peers of an answer are some of those that are kept, in their order, and ten of them
if there are more. -/
theorem randomPeers_spec (chance : ℕ → ℕ → ℕ) (chunk : List UInt8)
    (lru : Lru.Cache Id SocketAddrV4) :
    (randomPeers chance chunk lru = none ↔ lru.entries = []) ∧
    ∀ peers, randomPeers chance chunk lru = some peers →
      peers.Sublist (lru.entries.map Prod.snd) ∧ peers.length ≤ targetSize ∧
      (Full chance chunk lru.entries.length →
        peers.length = min targetSize lru.entries.length) := by
  constructor
  · unfold randomPeers
    simp only [List.length_map]
    split
    · rename_i hempty
      exact ⟨fun _ => List.length_eq_zero_iff.mp hempty, fun _ => rfl⟩
    · rename_i hsome
      constructor
      · intro h
        split at h <;> cases h
      · intro h
        exact absurd (List.length_eq_zero_iff.mpr h) hsome
  · intro peers h
    unfold randomPeers at h
    simp only [List.length_map] at h
    split at h
    · cases h
    · split at h
      · rename_i hfew
        obtain rfl := Option.some.inj h
        refine ⟨List.Sublist.refl _, ?_, ?_⟩
        · rw [List.length_map]
          exact Nat.le_of_lt hfew
        · intro _
          rw [List.length_map, Nat.min_eq_right (Nat.le_of_lt hfew)]
      · rename_i hmany
        obtain rfl := Option.some.inj h
        obtain ⟨chosen, hsub, heq⟩ := sample_sublist chance chunk lru.entries.length 0 []
          (lru.entries.map Prod.snd)
        refine ⟨?_, length_sample_le 0 _ (by decide), ?_⟩
        · rw [heq]
          exact hsub
        · intro hfull
          rw [Nat.min_eq_left (Nat.not_lt.mp hmany)]
          apply length_sample hfull
          · rw [List.length_map, Nat.zero_add]
          · decide
          · rw [List.length_map, List.length_nil, Nat.zero_add]
            exact Nat.not_lt.mp hmany

/-- The peer is kept for what it was announced for. -/
def Holds (s : PeersStore) (infoHash : Id) (peer : SocketAddrV4) : Prop :=
  ∃ lru, s.infoHashes.peek infoHash = some lru ∧ peer ∈ lru.entries.map Prod.snd

theorem peek_of_peek_addPeer {s : PeersStore} {infoHash infoHash' peerId : Id}
    {peer : SocketAddrV4} {lru : Lru.Cache Id SocketAddrV4} (hne : infoHash ≠ infoHash')
    (h : (s.addPeer infoHash' peerId peer).infoHashes.peek infoHash = some lru) :
    s.infoHashes.peek infoHash = some lru := by
  unfold addPeer at h
  split at h
  · exact Lru.Cache.peek_of_peek_put hne h
  · exact Lru.Cache.peek_of_peek_put hne h

theorem holds_addPeer {s : PeersStore} {infoHash infoHash' peerId : Id}
    {peer peer' : SocketAddrV4} (h : (s.addPeer infoHash' peerId peer').Holds infoHash peer) :
    s.Holds infoHash peer ∨ infoHash = infoHash' ∧ peer = peer' := by
  obtain ⟨lru, hlru, hpeer⟩ := h
  by_cases hsame : infoHash = infoHash'
  · subst hsame
    unfold addPeer at hlru
    split at hlru
    · rename_i before hbefore
      rw [Lru.Cache.peek_put_self] at hlru
      obtain rfl := Option.some.inj hlru
      obtain ⟨entry, hentry, rfl⟩ := List.mem_map.mp hpeer
      rcases Lru.Cache.mem_put hentry with rfl | ⟨hold, -⟩
      · exact Or.inr ⟨rfl, rfl⟩
      · exact Or.inl ⟨before, hbefore, List.mem_map_of_mem hold⟩
    · rw [Lru.Cache.peek_put_self] at hlru
      obtain rfl := Option.some.inj hlru
      obtain ⟨entry, hentry, rfl⟩ := List.mem_map.mp hpeer
      rcases Lru.Cache.mem_put hentry with rfl | ⟨hold, -⟩
      · exact Or.inr ⟨rfl, rfl⟩
      · exact absurd hold List.not_mem_nil
  · exact Or.inl ⟨lru, peek_of_peek_addPeer hsame hlru, hpeer⟩

end PeersStore

namespace Server

variable {crypto : Crypto} {s : Server} {e : Event}

/-- The address that a peer is announced with. -/
def announcedPeer (source : SocketAddrV4) (args : AnnouncePeerRequestArguments) :
    SocketAddrV4 :=
  match args.impliedPort with
  | some true => source
  | _ => ⟨source.ip, args.port⟩

/-- The peers are left alone, some are read, or one is put that is announced. -/
theorem peers_cases (crypto : Crypto) (s : Server) (e : Event) :
    (s.step crypto e).peers = s.peers ∨
    (∃ infoHash, (s.step crypto e).peers
      = { s.peers with infoHashes := s.peers.infoHashes.touch infoHash }) ∨
    ∃ token args, e.request.requestType = .put ⟨token, .announcePeer args⟩ ∧
      (s.fresh e).tokens.validate e.source token = true ∧
      (s.step crypto e).peers = s.peers.addPeer args.infoHash e.request.requesterId
        (announcedPeer e.source args) := by
  cases hfilter : s.filter e.request e.source with
  | false =>
    rw [step_of_refuse hfilter]
    exact Or.inl rfl
  | true =>
    rw [step_of_allow hfilter]
    unfold dispatch
    match hrequest : e.request.requestType with
    | .ping => exact Or.inl rfl
    | .findNode target => exact Or.inl rfl
    | .getPeers infoHash => exact Or.inr (Or.inl ⟨infoHash, rfl⟩)
    | .getValue args =>
      simp only [Prod.map_fst, id]
      rcases handleGetValue_spec (s.fresh e) e.table e.source args with h | h | h
      · rw [h]
        exact Or.inl rfl
      · rw [h]
        exact Or.inl rfl
      · rw [h]
        exact Or.inl rfl
    | .put ⟨token, .announcePeer args⟩ =>
      simp only
      rcases announcePeer_spec e.table e.source token (s.fresh e)
        e.request.requesterId args with ⟨htoken, h⟩ | ⟨code, description, h⟩
      · rw [h]
        exact Or.inr (Or.inr ⟨token, args, rfl, htoken, rfl⟩)
      · rw [h]
        exact Or.inl rfl
    | .put ⟨token, .putImmutable args⟩ =>
      simp only
      rcases putImmutable_spec crypto e.table e.source token (s.fresh e) args with
        ⟨-, h⟩ | ⟨-, code, description, h⟩
      · rw [h]
        exact Or.inl rfl
      · rw [h]
        exact Or.inl rfl
    | .put ⟨token, .putMutable args⟩ =>
      simp only
      rcases putMutable_spec crypto e.table e.source token (s.fresh e) args with
        ⟨-, h⟩ | ⟨-, code, description, h | h⟩
      · rw [h]
        exact Or.inl rfl
      · rw [h]
        exact Or.inl rfl
      · rw [h]
        exact Or.inl rfl

/-- An announcement of the peer for the info hash. -/
def Announces (infoHash : Id) (peer : SocketAddrV4) (e : Event) : Prop :=
  ∃ token args, e.request.requestType = .put ⟨token, .announcePeer args⟩ ∧
    args.infoHash = infoHash ∧ announcedPeer e.source args = peer

theorem holds_of_step {infoHash : Id} {peer : SocketAddrV4}
    (h : (s.step crypto e).peers.Holds infoHash peer) :
    s.peers.Holds infoHash peer ∨ Announces infoHash peer e := by
  rcases peers_cases crypto s e with heq | ⟨read, heq⟩ | ⟨token, args, hrequest, -, heq⟩
  · rw [heq] at h
    exact Or.inl h
  · rw [heq] at h
    obtain ⟨lru, hlru, hpeer⟩ := h
    rw [Lru.Cache.peek_touch] at hlru
    exact Or.inl ⟨lru, hlru, hpeer⟩
  · rw [heq] at h
    rcases PeersStore.holds_addPeer h with hbefore | ⟨rfl, rfl⟩
    · exact Or.inl hbefore
    · exact Or.inr ⟨token, args, hrequest, rfl, rfl⟩

theorem getPeers_of_reply {r : GetPeersResponseArguments}
    (h : s.reply crypto e = some (.response (.getPeers r))) :
    ∃ infoHash lru, e.request.requestType = .getPeers infoHash ∧
      s.peers.infoHashes.peek infoHash = some lru ∧
      PeersStore.randomPeers e.draw.chance e.draw.chunk lru = some r.values := by
  rcases response_of_reply h with hping | ⟨nodes, hfind⟩ | ⟨infoHash, hrequest, hr⟩ |
    ⟨args, -, hr⟩
  · cases hping
  · cases hfind
  · unfold handleGetPeers PeersStore.getRandomPeers at hr
    simp only at hr
    split at hr
    · rename_i values hvalues
      obtain rfl := ResponseSpecific.getPeers.inj hr
      obtain ⟨lru, hlru, hrandom⟩ := Option.bind_eq_some_iff.mp hvalues
      exact ⟨infoHash, lru, hrequest, hlru, hrandom⟩
    · cases hr
  · exact absurd hr.symm handleGetValue_ne_getPeers

/-- The peers of an answer were announced by earlier requests for the info hash that is asked
for, each with the IP that its announcement came from. There are ten at most, and ten or all
of them if the draw fills the sample. -/
theorem peers_were_announced (settings : ServerSettings) (tokens : Tokens) (es : List Event)
    (e : Event) (r : GetPeersResponseArguments)
    (h : (after crypto settings tokens es).reply crypto e = some (.response (.getPeers r))) :
    ∃ infoHash lru, e.request.requestType = .getPeers infoHash ∧
      (after crypto settings tokens es).peers.infoHashes.peek infoHash = some lru ∧
      r.values.length ≤ 10 ∧
      (PeersStore.Full e.draw.chance e.draw.chunk lru.entries.length →
        r.values.length = min 10 lru.entries.length) ∧
      ∀ peer ∈ r.values, ∃ e' ∈ es, Announces infoHash peer e' ∧ peer.ip = e'.source.ip := by
  obtain ⟨infoHash, lru, hrequest, hlru, hrandom⟩ := getPeers_of_reply h
  obtain ⟨hsub, hlen, hfull⟩ :=
    (PeersStore.randomPeers_spec e.draw.chance e.draw.chunk lru).2 r.values hrandom
  refine ⟨infoHash, lru, hrequest, hlru, hlen, hfull, ?_⟩
  intro peer hpeer
  have hholds : (after crypto settings tokens es).peers.Holds infoHash peer :=
    ⟨lru, hlru, hsub.subset hpeer⟩
  have hstep : ∀ (s : Server) (e : Event), (s.step crypto e).peers.Holds infoHash peer →
      s.peers.Holds infoHash peer ∨ Announces infoHash peer e := fun _ _ => holds_of_step
  rcases Run.origin (P := fun s : Server => s.peers.Holds infoHash peer) hstep hholds with
    ⟨lru, hnew, -⟩ | ⟨e', he', hannounces⟩
  · cases hnew
  · refine ⟨e', he', hannounces, ?_⟩
    obtain ⟨token, args, -, -, rfl⟩ := hannounces
    unfold announcedPeer
    split <;> rfl

/-- A peer that has announced itself is in the answer. -/
theorem peers_were_announced_demo :
    ∃ infoHash lru, .getPeers demoHash = RequestTypeSpecific.getPeers infoHash ∧
      (after demoCrypto demoSettings demoTokens [demoAnnounce]).peers.infoHashes.peek infoHash
        = some lru ∧ 1 ≤ 10 ∧
      (PeersStore.Full (fun _ _ => 0) [] lru.entries.length → 1 = min 10 lru.entries.length) ∧
      ∀ peer ∈ [⟨⟨8, 8, 8, 8⟩, 80⟩], ∃ e' ∈ [demoAnnounce], Announces infoHash peer e' ∧
        peer.ip = e'.source.ip :=
  peers_were_announced demoSettings demoTokens [demoAnnounce] (demoEvent (.getPeers demoHash))
    ⟨⟨List.replicate idSize 0, rfl⟩, demoTokens.generateToken demoSource,
      [⟨⟨8, 8, 8, 8⟩, 80⟩], some []⟩ (by decide +kernel)

end Server

end Nerea.Mainline
