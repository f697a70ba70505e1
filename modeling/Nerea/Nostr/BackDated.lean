import Nerea.Nostr.Envelope
import Nerea.Shared.Json

/-!
# Back-dated envelopes

A chat asks its relays for the envelopes of an interval of dates, and what it means is the
interval of the messages. A message gets lost when its own date is in the interval and the
one drawn for its envelope is not.
-/

set_option autoImplicit false

namespace Nerea.Nostr

variable (C : Cripto) (P : Nip17 C)

/-- What the relays do. -/
structure Relays (Firma : Type) where
  add_relay : String → Except String Unit
  subscribe : Filter → Except String Unit
  send_event : Firmado Firma → Except String Unit

/-- What a receiver of notifications finds, with the clock when it handles an event. -/
inductive Notification (Firma : Type) where
  | event (event : Firmado Firma) (now : Timestamp)
  | otra
  | lagged (n : ℕ)

/-- Of what there is, the events some subscription asks for. -/
def entrega {Firma : Type} (filters : List Filter) (red : List (Notification Firma)) :
    List (Notification Firma) :=
  red.filter fun
    | .event ev _ => filters.any (·.match_event ev.toEvent)
    | _ => true

/-- The subscription of its client, its keys and what has been delivered. -/
structure Chat where
  client : Option Filter
  shared_keys : Option C.SecretKey
  sender_keys : Option C.SecretKey
  notifications : Option (List (Notification C.Firma))

namespace Chat

def filtro (shared : PublicKey) (n_limit : ℕ) (since until_ : Timestamp) : Filter :=
  { Filter.new with
    kind := some .GiftWrap, limit := some n_limit, pubkey := some shared
    since := if 0 < since then some since else none
    until_ := if 0 < until_ then some until_ else none }

def conecta (relays : Relays C.Firma) (relay_urls : List String) (filter : Filter) :
    Except String Unit := do
  relay_urls.forM fun url => context (relays.add_relay url) s!"Failed to add relay {url}"
  context (relays.subscribe filter) "Failed to subscribe"

/-- Nothing is stored before the subscription, and then everything is. -/
def initParticipant (relays : Relays C.Firma) (sender_secret receiver_pubkey : String)
    (relay_urls : List String) (n_limit : ℕ) (since until_ : Timestamp) :
    Except String (Chat C × String) := do
  let sk ← context (C.parse sender_secret) "Invalid sender secret"
  let receiver ← context (C.public_key_from_str receiver_pubkey) "Invalid receiver pubkey"
  let shared_key_bytes ←
    context (C.generate_shared_key sk receiver) "Error generating shared key"
  let shared_keys ← context (C.from_slice shared_key_bytes) "Invalid shared key bytes"
  let filter := filtro (C.public_key shared_keys) n_limit since until_
  conecta C relays relay_urls filter
  return (⟨some filter, some shared_keys, some sk, some []⟩, C.to_secret_hex shared_keys)

def initObserver (relays : Relays C.Firma) (shared_key_hex : String)
    (relay_urls : List String) (n_limit : ℕ) (since until_ : Timestamp) :
    Except String (Chat C) := do
  let shared_keys ← context (C.from_str shared_key_hex) "Invalid shared key"
  let filter := filtro (C.public_key shared_keys) n_limit since until_
  conecta C relays relay_urls filter
  -- observador NO escribe
  return ⟨some filter, some shared_keys, none, some []⟩

/-- What is sent, and what the call returns. -/
def sendMessage (relays : Relays C.Firma) (s : Chat C) (message : String)
    (r : Tirada C.SecretKey C.Azar) : List (Firmado C.Firma) × Except String Unit :=
  match s.client, s.sender_keys, s.shared_keys with
  | some _, some sender, some shared =>
    match context (mostroWrap C sender (C.public_key shared) message [] r)
      "Error wrapping message" with
    | .error e => ([], .error e)
    | .ok wrapped_event =>
      ([wrapped_event], context (relays.send_event wrapped_event) "Error sending event")
  | _, _, _ => ([], .error "Client, Sender or Shared keys not initialized")

structure PeerMessage where
  pubkey : String
  content : String
  created_at : Timestamp

/-- The messages that are older than `n_seconds` are left out. -/
def recibido (shared : C.SecretKey) (n_seconds : UInt64) :
    Notification C.Firma → Option PeerMessage
  | .event event now =>
    match mostroUnwrap C shared event.toEvent with
    | .ok inner =>
      if n_seconds < saturatingSub now inner.created_at then none
      else some ⟨inner.pubkey.to_hex, inner.content, inner.created_at⟩
    | .error _ => none
  | .otra => none
  | .lagged _ => none

def pollMessages (s : Chat C) (n_seconds : UInt64) : Chat C × Except String (List PeerMessage) :=
  match s.shared_keys, s.notifications with
  | none, _ => (s, .error "chat no iniciado")
  | some _, none => (s, .error "sin receiver de notificaciones")
  | some shared, some notifications =>
    ({ s with notifications := some [] },
      .ok (notifications.filterMap (recibido C shared n_seconds)))

variable {C}

def recibe (s : Chat C) (red : List (Notification C.Firma)) : Chat C :=
  { s with notifications := s.notifications.map (· ++ entrega s.client.toList red) }

/-- The chat lives on. -/
inductive Sigue (s₀ : Chat C) : Chat C → Prop where
  | inicio : Sigue s₀ s₀
  | recibe {s : Chat C} (red : List (Notification C.Firma)) : Sigue s₀ s → Sigue s₀ (s.recibe red)
  | poll {s : Chat C} (n_seconds : UInt64) : Sigue s₀ s → Sigue s₀ (pollMessages C s n_seconds).1

/-- A participant with a secret and the key of the other, that was given `hex`. -/
def Participante (sk : C.SecretKey) (receiver : PublicKey) (since until_ : Timestamp)
    (hex : String) (s : Chat C) : Prop :=
  ∃ relays sender_secret receiver_pubkey relay_urls n_limit s₀,
    C.parse sender_secret = .ok sk ∧ C.public_key_from_str receiver_pubkey = .ok receiver ∧
    initParticipant C relays sender_secret receiver_pubkey relay_urls n_limit since until_ =
      .ok (s₀, hex) ∧ Sigue s₀ s

/-- One that was given `hex` by a participant. -/
def Observador (hex : String) (since until_ : Timestamp) (s : Chat C) : Prop :=
  ∃ relays relay_urls n_limit s₀,
    initObserver C relays hex relay_urls n_limit since until_ = .ok s₀ ∧ Sigue s₀ s

/-- Who reads what is said with `sk` to `receiver`: the other, and every observer. -/
def Receptor (sk : C.SecretKey) (receiver : PublicKey) (hex : String)
    (since until_ : Timestamp) (s : Chat C) : Prop :=
  (∃ sk' hex', C.public_key sk' = receiver ∧
    Participante sk' (C.public_key sk) since until_ hex' s) ∨
  Observador hex since until_ s

end Chat

/-- Zero is no bound. -/
def EnIntervalo (since until_ t : Timestamp) : Prop := since ≤ t ∧ (until_ = 0 ∨ t ≤ until_)

open Chat

variable {C}

/-- Whenever the envelope is out there and its message, in the interval, is polled in time,
the subscription asks for the envelope and the poll returns the message. -/
def Chat.NoSePierde (receptor : Chat C) (since until_ : Timestamp) (n_seconds : UInt64)
    (sobre : Firmado C.Firma) (m : PeerMessage) : Prop :=
  ∀ red now, .event sobre now ∈ red → EnIntervalo since until_ m.created_at →
    saturatingSub now m.created_at ≤ n_seconds →
    (∃ filter ∈ receptor.client, filter.match_event sobre.toEvent = true) ∧
    ∃ messages, (pollMessages C (receptor.recibe red) n_seconds).2 = .ok messages ∧ m ∈ messages

variable (C) in
/-- A client with a peer of its own choice. -/
structure NostrClient where
  keys : C.SecretKey
  peer_pk : PublicKey
  n_seconds : UInt64
  n_limit : ℕ
  subscriptions : List Filter
  notifications : Option (List (Notification C.Firma))

namespace NostrClient

/-- Messages to me. -/
def filterToMe (s : NostrClient C) (now : Timestamp) : Filter :=
  { Filter.new with
    pubkey := some (C.public_key s.keys), limit := some s.n_limit
    since := some (saturatingSub now s.n_seconds) }

def filterFromPeer (s : NostrClient C) (now : Timestamp) : Filter :=
  { Filter.new with
    author := some s.peer_pk, limit := some s.n_limit
    since := some (saturatingSub now s.n_seconds) }

/-- The clock is read for each filter. -/
def subscribe (relays : Relays C.Firma) (s : NostrClient C) (now now' : Timestamp) :
    NostrClient C × Except String Unit :=
  let filter_to_me := filterToMe s now
  let filter_from_peer := filterFromPeer s now'
  match context (relays.subscribe filter_to_me) "subscribe(to_me)" with
  | .error e => (s, .error e)
  | .ok () =>
    match context (relays.subscribe filter_from_peer) "subscribe(from_peer)" with
    | .error e => ({ s with subscriptions := s.subscriptions ++ [filter_to_me] }, .error e)
    | .ok () =>
      ({ s with
        subscriptions := s.subscriptions ++ [filter_to_me, filter_from_peer]
        notifications := some [] }, .ok ())

def sendMessage (relays : Relays C.Firma) (s : NostrClient C) (message : String)
    (r : Tirada C.SecretKey C.Azar) : List (Firmado C.Firma) × Except String Unit :=
  match context (P.private_msg s.keys s.peer_pk message r) "Failed to send private message" with
  | .error e => ([], .error e)
  | .ok event => ([event], context (relays.send_event event) "Failed to send private message")

structure ReceivedMessage where
  sender : PublicKey
  content : String
  timestamp : Timestamp

/-- A private message of the peer. -/
def recibido (s : NostrClient C) : Notification C.Firma → Option ReceivedMessage
  | .event event _ =>
    if event.kind = .GiftWrap then
      match P.unwrap_gift_wrap s.keys event.toEvent with
      | .ok ⟨sender, rumor⟩ =>
        if rumor.kind = .PrivateDirectMessage ∧ sender = s.peer_pk then
          some ⟨sender, rumor.content, rumor.created_at⟩
        else none
      | .error _ => none
    else none
  | .otra => none
  | .lagged _ => none

def pollMessages (s : NostrClient C) : NostrClient C × Except String (List ReceivedMessage) :=
  match s.notifications with
  | none => (s, .error "sin receiver de notificaciones")
  | some notifications =>
    ({ s with notifications := some [] }, .ok (notifications.filterMap (recibido P s)))

def recibe (s : NostrClient C) (red : List (Notification C.Firma)) : NostrClient C :=
  { s with notifications := s.notifications.map (· ++ entrega s.subscriptions red) }

inductive Sigue (s₀ : NostrClient C) : NostrClient C → Prop where
  | inicio : Sigue s₀ s₀
  | recibe {s : NostrClient C} (red : List (Notification C.Firma)) :
    Sigue s₀ s → Sigue s₀ (s.recibe red)
  | poll {s : NostrClient C} : Sigue s₀ s → Sigue s₀ (pollMessages P s).1

/-- The same with the window that `subscribe` asks for. -/
def NoSePierde (receptor s : NostrClient C) (now : Timestamp) (sobre : Firmado C.Firma)
    (m : ReceivedMessage) : Prop :=
  ∀ red clock, .event sobre clock ∈ red → saturatingSub now s.n_seconds ≤ m.timestamp →
    (filterToMe s now).match_event sobre.toEvent = true ∧
    ∃ messages, (pollMessages P (receptor.recibe red)).2 = .ok messages ∧ m ∈ messages

end NostrClient

variable {P}

theorem mem_entrega {filters : List Filter} {filter : Filter} {sobre : Firmado C.Firma}
    {red : List (Notification C.Firma)} {now : Timestamp} (hred : .event sobre now ∈ red)
    (hfilter : filter ∈ filters) (hmatch : filter.match_event sobre.toEvent = true) :
    .event sobre now ∈ entrega filters red := by
  apply List.mem_filter.mpr
  exact ⟨hred, List.any_eq_true.mpr ⟨filter, hfilter, hmatch⟩⟩

theorem enIntervalo_iff {since until_ t : Timestamp} :
    EnIntervalo since until_ t ↔
      ((if 0 < since then some since else none).all fun s => decide (s ≤ t)) = true ∧
      ((if 0 < until_ then some until_ else none).all fun u => decide (t ≤ u)) = true := by
  have hzero : ∀ x : UInt64, 0 < x ↔ x ≠ 0 := fun x => UInt64.pos_iff_ne_zero
  unfold EnIntervalo
  apply and_congr
  · by_cases h : since = 0
    · simp [h]
    · simp [h, hzero]
  · by_cases h : until_ = 0
    · simp [h]
    · simp [h, hzero]

section Chat
variable {s s₀ : Chat C} {relays : Relays C.Firma} {relay_urls : List String} {n_limit : ℕ}
  {since until_ fecha : Timestamp} {ev : Event}

theorem match_filtro {shared : PublicKey} (h : EsSobre shared fecha ev) :
    (filtro shared n_limit since until_).match_event ev = true ↔
      EnIntervalo since until_ fecha := by
  rw [enIntervalo_iff, ← h.created_at]
  simp [filtro, Filter.match_event, Filter.new, h.kind, h.any_tag]

theorem Chat.initParticipant_eq {sender_secret receiver_pubkey hex : String} {sk : C.SecretKey}
    {receiver : PublicKey} (hparse : C.parse sender_secret = .ok sk)
    (hreceiver : C.public_key_from_str receiver_pubkey = .ok receiver)
    (h : initParticipant C relays sender_secret receiver_pubkey relay_urls n_limit since until_ =
      .ok (s, hex)) :
    ∃ bytes shared, C.generate_shared_key sk receiver = .ok bytes ∧
      C.from_slice bytes = .ok shared ∧ hex = C.to_secret_hex shared ∧
      s = ⟨some (filtro (C.public_key shared) n_limit since until_), some shared, some sk,
        some []⟩ := by
  obtain ⟨sk', hsk, h⟩ := ok_of_bind h
  obtain ⟨receiver', hreceiver', h⟩ := ok_of_bind h
  cases hparse.symm.trans (ok_of_context hsk)
  cases hreceiver.symm.trans (ok_of_context hreceiver')
  obtain ⟨bytes, hbytes, h⟩ := ok_of_bind h
  obtain ⟨shared, hshared, h⟩ := ok_of_bind h
  obtain ⟨-, -, h⟩ := ok_of_bind h
  cases h
  exact ⟨bytes, shared, ok_of_context hbytes, ok_of_context hshared, rfl, rfl⟩

theorem Chat.initObserver_eq {hex : String}
    (h : initObserver C relays hex relay_urls n_limit since until_ = .ok s) :
    ∃ shared, C.from_str hex = .ok shared ∧
      s = ⟨some (filtro (C.public_key shared) n_limit since until_), some shared, none,
        some []⟩ := by
  obtain ⟨shared, hshared, h⟩ := ok_of_bind h
  obtain ⟨-, -, h⟩ := ok_of_bind h
  cases h
  exact ⟨shared, ok_of_context hshared, rfl⟩

/-- What an init stores stays until the next one. -/
structure Chat.Conserva (s₀ s : Chat C) : Prop where
  client : s.client = s₀.client
  shared_keys : s.shared_keys = s₀.shared_keys
  sender_keys : s.sender_keys = s₀.sender_keys
  notifications : s₀.notifications ≠ none → s.notifications ≠ none

theorem Chat.Conserva.recibe (h : Conserva s₀ s) (red : List (Notification C.Firma)) :
    Conserva s₀ (s.recibe red) where
  client := h.client
  shared_keys := h.shared_keys
  sender_keys := h.sender_keys
  notifications := by
    intro hsome hnone
    exact h.notifications hsome (Option.map_eq_none_iff.mp hnone)

theorem Chat.Conserva.poll (h : Conserva s₀ s) (n_seconds : UInt64) :
    Conserva s₀ (pollMessages C s n_seconds).1 := by
  unfold pollMessages
  split
  · exact h
  · exact h
  · exact ⟨h.client, h.shared_keys, h.sender_keys, fun _ => Option.some_ne_none _⟩

theorem Chat.Sigue.conserva (h : Sigue s₀ s) : Conserva s₀ s := by
  induction h with
  | inicio => exact ⟨rfl, rfl, rfl, id⟩
  | recibe red _ ih => exact ih.recibe red
  | poll n_seconds _ ih => exact ih.poll n_seconds

/-- A chat that reads with the key `shared`. -/
structure Chat.Lee (shared : C.SecretKey) (since until_ : Timestamp) (s : Chat C) : Prop where
  client : ∃ n_limit, s.client = some (filtro (C.public_key shared) n_limit since until_)
  shared_keys : s.shared_keys = some shared
  notifications : s.notifications ≠ none

theorem Chat.Lee.of_sigue {shared : C.SecretKey} (hlee : Lee shared since until_ s₀)
    (h : Sigue s₀ s) : Lee shared since until_ s := by
  have hs := h.conserva
  obtain ⟨n_limit, hclient⟩ := hlee.client
  exact ⟨⟨n_limit, hs.client.trans hclient⟩, hs.shared_keys.trans hlee.shared_keys,
    hs.notifications hlee.notifications⟩

theorem Chat.Participante.exists_shared {sk : C.SecretKey} {receiver : PublicKey} {hex : String}
    (h : Participante sk receiver since until_ hex s) :
    ∃ bytes shared, C.generate_shared_key sk receiver = .ok bytes ∧
      C.from_slice bytes = .ok shared ∧ hex = C.to_secret_hex shared ∧
      Lee shared since until_ s ∧ s.sender_keys = some sk := by
  obtain ⟨relays, sender_secret, receiver_pubkey, relay_urls, n_limit, s₀, hparse, hreceiver,
    hinit, hsigue⟩ := h
  obtain ⟨bytes, shared, hbytes, hshared, hhex, rfl⟩ :=
    initParticipant_eq hparse hreceiver hinit
  have hlee : Lee shared since until_ s :=
    .of_sigue ⟨⟨n_limit, rfl⟩, rfl, Option.some_ne_none _⟩ hsigue
  exact ⟨bytes, shared, hbytes, hshared, hhex, hlee, hsigue.conserva.sender_keys⟩

/-- Both ends derive one key, and it is the one that observers are given. -/
theorem Chat.Receptor.lee {sk shared : C.SecretKey} {receiver : PublicKey} {hex : String}
    {since' until' : Timestamp} {emisor : Chat C}
    (hemisor : Participante sk receiver since' until' hex emisor)
    (hkeys : emisor.shared_keys = some shared) (h : Receptor sk receiver hex since until_ s) :
    Lee shared since until_ s := by
  obtain ⟨bytes, key, hbytes, hkey, hhex, hlee, -⟩ := hemisor.exists_shared
  cases hlee.shared_keys.symm.trans hkeys
  rcases h with h | h
  · obtain ⟨sk', hex', hreceiver, h⟩ := h
    obtain ⟨bytes', shared', hbytes', hshared', -, hlee', -⟩ := h.exists_shared
    rw [← hreceiver, C.generate_shared_key_comm] at hbytes
    cases hbytes.symm.trans hbytes'
    cases hkey.symm.trans hshared'
    exact hlee'
  · obtain ⟨relays, relay_urls, n_limit, s₀, hinit, hsigue⟩ := h
    obtain ⟨shared', hshared', rfl⟩ := initObserver_eq hinit
    rw [hhex, C.from_str_to_secret_hex] at hshared'
    cases hshared'
    exact .of_sigue ⟨⟨n_limit, rfl⟩, rfl, Option.some_ne_none _⟩ hsigue

theorem Chat.mem_sendMessage {shared sender : C.SecretKey} {message : String}
    {r : Tirada C.SecretKey C.Azar} {sobre : Firmado C.Firma}
    (hshared : s.shared_keys = some shared) (hsender : s.sender_keys = some sender)
    (h : sobre ∈ (sendMessage C relays s message r).1) :
    mostroWrap C sender (C.public_key shared) message [] r = .ok sobre := by
  unfold sendMessage at h
  rw [hshared, hsender] at h
  cases hclient : s.client with
  | none =>
    rw [hclient] at h
    cases h
  | some filter =>
    rw [hclient] at h
    dsimp only at h
    cases hwrap : mostroWrap C sender (C.public_key shared) message [] r with
    | error e =>
      rw [hwrap] at h
      cases h
    | ok wrapped_event =>
      rw [hwrap] at h
      exact congrArg Except.ok (List.mem_singleton.mp h).symm

/-- What is delivered and fresh is in the poll. -/
theorem Chat.mem_pollMessages {shared : C.SecretKey} {sobre inner : Firmado C.Firma}
    {red : List (Notification C.Firma)} {now : Timestamp} {n_seconds : UInt64}
    (hlee : Lee shared since until_ s) (hred : .event sobre now ∈ red)
    (hmatch : ∃ filter ∈ s.client, filter.match_event sobre.toEvent = true)
    (hinner : mostroUnwrap C shared sobre.toEvent = .ok inner)
    (hfresh : saturatingSub now inner.created_at ≤ n_seconds) :
    ∃ messages, (pollMessages C (s.recibe red) n_seconds).2 = .ok messages ∧
      ⟨inner.pubkey.to_hex, inner.content, inner.created_at⟩ ∈ messages := by
  obtain ⟨filter, hfilter, hmatch⟩ := hmatch
  obtain ⟨cola, hcola⟩ := Option.ne_none_iff_exists'.mp hlee.notifications
  have hqueue : .event sobre now ∈ cola ++ entrega s.client.toList red := by
    apply List.mem_append_right
    exact mem_entrega hred (Option.mem_toList.mpr hfilter) hmatch
  refine ⟨(cola ++ entrega s.client.toList red).filterMap (recibido C shared n_seconds), ?_,
    List.mem_filterMap.mpr ⟨_, hqueue, ?_⟩⟩
  · simp only [pollMessages, recibe, hlee.shared_keys, hcola, Option.map_some]
  · rw [recibido, hinner]
    exact if_neg (UInt64.not_lt.mpr hfresh)

theorem Chat.noSePierde_iff {sk shared : C.SecretKey} {receiver : PublicKey} {hex text : String}
    {since' until' : Timestamp} {emisor receptor : Chat C} {r : Tirada C.SecretKey C.Azar}
    {sobre : Firmado C.Firma} (hemisor : Participante sk receiver since' until' hex emisor)
    (hkeys : emisor.shared_keys = some shared)
    (hreceptor : Receptor sk receiver hex since until_ receptor)
    (hsobre : sobre ∈ (sendMessage C relays emisor text r).1)
    (hfresca : C.public_key shared ≠ C.public_key r.keys) (n_seconds : UInt64) :
    NoSePierde receptor since until_ n_seconds sobre ⟨(C.public_key sk).to_hex, text, r.now⟩ ↔
      (EnIntervalo since until_ r.now → EnIntervalo since until_ r.tweaked) := by
  obtain ⟨-, -, -, -, -, -, hsender⟩ := hemisor.exists_shared
  have hwrap := mem_sendMessage hkeys hsender hsobre
  have hlee := hreceptor.lee hemisor hkeys
  have hfilter : (∃ filter ∈ receptor.client, filter.match_event sobre.toEvent = true) ↔
      EnIntervalo since until_ r.tweaked := by
    obtain ⟨n_limit, hclient⟩ := hlee.client
    simp only [hclient, Option.mem_some_iff, exists_eq_left']
    exact match_filtro (mostroWrap_esSobre hwrap hfresca)
  constructor
  · intro h hnow
    have hpolled := h [.event sobre r.now] r.now List.mem_cons_self hnow
    rw [saturatingSub_self] at hpolled
    exact hfilter.mp (hpolled (UInt64.zero_le)).1
  · intro h red now hred hnow hfresh
    have hmatch := hfilter.mpr (h hnow)
    obtain ⟨inner, hinner, hbuilt⟩ := mostroUnwrap_mostroWrap hwrap
    have hdate : inner.created_at = r.now := hbuilt.created_at
    rw [← hdate] at hfresh
    have hpolled := mem_pollMessages hlee hred hmatch hinner hfresh
    rw [hbuilt.pubkey, hbuilt.content, hdate] at hpolled
    exact ⟨hmatch, hpolled⟩

end Chat

section NostrClient
variable {s s₀ receptor emisor : NostrClient C} {relays : Relays C.Firma} {now now' : Timestamp}
  {fecha : Timestamp} {sobre : Firmado C.Firma} {text : String}
  {r : Tirada C.SecretKey C.Azar}

theorem NostrClient.match_filterToMe (h : EsSobre (C.public_key s.keys) fecha sobre.toEvent) :
    (filterToMe s now).match_event sobre.toEvent = true ↔
      saturatingSub now s.n_seconds ≤ fecha := by
  rw [← h.created_at]
  simp [filterToMe, Filter.match_event, Filter.new, h.any_tag]

/-- What a subscription relies on stays, and more may come. -/
structure NostrClient.Conserva (s₀ s : NostrClient C) : Prop where
  keys : s.keys = s₀.keys
  peer_pk : s.peer_pk = s₀.peer_pk
  subscriptions : s.subscriptions = s₀.subscriptions
  notifications : s₀.notifications ≠ none → s.notifications ≠ none

theorem NostrClient.Sigue.conserva (h : Sigue P s₀ s) : Conserva s₀ s := by
  induction h with
  | inicio => exact ⟨rfl, rfl, rfl, id⟩
  | recibe red _ ih =>
    refine ⟨ih.keys, ih.peer_pk, ih.subscriptions, fun hsome hnone => ?_⟩
    exact ih.notifications hsome (Option.map_eq_none_iff.mp hnone)
  | poll _ ih =>
    unfold pollMessages
    split
    · exact ih
    · exact ⟨ih.keys, ih.peer_pk, ih.subscriptions, fun _ => Option.some_ne_none _⟩

theorem NostrClient.subscribe_eq (h : subscribe relays s now now' = (s₀, .ok ())) :
    s₀ = { s with
      subscriptions := s.subscriptions ++ [filterToMe s now, filterFromPeer s now']
      notifications := some [] } := by
  unfold subscribe at h
  dsimp only at h
  split at h
  · cases h
  · split at h
    · cases h
    · cases h
      rfl

theorem NostrClient.mem_sendMessage (h : sobre ∈ (sendMessage P relays emisor text r).1) :
    P.private_msg emisor.keys emisor.peer_pk text r = .ok sobre := by
  unfold sendMessage at h
  cases hmsg : P.private_msg emisor.keys emisor.peer_pk text r with
  | error e =>
    rw [hmsg] at h
    cases h
  | ok event =>
    rw [hmsg] at h
    exact congrArg Except.ok (List.mem_singleton.mp h).symm

theorem NostrClient.recibido_eq {clock : Timestamp} {sk : C.SecretKey}
    (hkind : sobre.kind = .GiftWrap) (hkeys : receptor.keys = sk)
    (hpeer : receptor.peer_pk = C.public_key emisor.keys)
    (hmsg : P.private_msg emisor.keys (C.public_key sk) text r = .ok sobre) :
    recibido P receptor (.event sobre clock) =
      some ⟨C.public_key emisor.keys, text, r.now⟩ := by
  rw [recibido, if_pos hkind, hkeys, P.unwrap_private_msg hmsg]
  exact if_pos ⟨rfl, hpeer.symm⟩

theorem NostrClient.noSePierde_iff (hsubscribe : subscribe relays s now now' = (s₀, .ok ()))
    (hsigue : Sigue P s₀ receptor) {relays' : Relays C.Firma}
    (hsobre : sobre ∈ (sendMessage P relays' emisor text r).1)
    (hto : emisor.peer_pk = C.public_key s.keys) (hfrom : s.peer_pk = C.public_key emisor.keys)
    (hfresca : C.public_key s.keys ≠ C.public_key r.keys) :
    NoSePierde P receptor s now sobre ⟨C.public_key emisor.keys, text, r.now⟩ ↔
      (saturatingSub now s.n_seconds ≤ r.now → saturatingSub now s.n_seconds ≤ r.tweaked) := by
  have hmsg := mem_sendMessage hsobre
  rw [hto] at hmsg
  have hout := P.esSobre hmsg hfresca
  have hs := hsigue.conserva
  rw [subscribe_eq hsubscribe] at hs
  constructor
  · intro h hnow
    exact (match_filterToMe hout).mp (h [.event sobre r.now] r.now List.mem_cons_self hnow).1
  · intro h red clock hred hnow
    have hmatch : (filterToMe s now).match_event sobre.toEvent = true :=
      (match_filterToMe hout).mpr (h hnow)
    refine ⟨hmatch, ?_⟩
    obtain ⟨cola, hcola⟩ := Option.ne_none_iff_exists'.mp (hs.notifications (Option.some_ne_none _))
    have hasked : filterToMe s now ∈ receptor.subscriptions := by
      rw [hs.subscriptions]
      exact List.mem_append_right _ List.mem_cons_self
    have hqueue : .event sobre clock ∈ cola ++ entrega receptor.subscriptions red := by
      apply List.mem_append_right
      exact mem_entrega hred hasked hmatch
    refine ⟨(cola ++ entrega receptor.subscriptions red).filterMap
      (recibido P (receptor.recibe red)), ?_, List.mem_filterMap.mpr ⟨_, hqueue, ?_⟩⟩
    · simp only [pollMessages, recibe, hcola, Option.map_some]
    · exact recibido_eq hout.kind hs.keys (hs.peer_pk.trans hfrom) hmsg

end NostrClient

/-- A message in its interval arrives exactly when the date drawn for its envelope is in the
interval too. -/
theorem back_dated_iff (C : Cripto) (P : Nip17 C) :
    (∀ sk receiver since' until' hex emisor shared since until_ receptor relays text r sobre
      n_seconds, Participante sk receiver since' until' hex emisor →
      emisor.shared_keys = some shared → Receptor sk receiver hex since until_ receptor →
      sobre ∈ (Chat.sendMessage C relays emisor text r).1 →
      C.public_key shared ≠ C.public_key r.keys →
      (Chat.NoSePierde receptor since until_ n_seconds sobre
          ⟨(C.public_key sk).to_hex, text, r.now⟩ ↔
        (EnIntervalo since until_ r.now → EnIntervalo since until_ r.tweaked))) ∧
    ∀ relays s now now' s₀ receptor relays' emisor text r sobre,
      NostrClient.subscribe relays s now now' = (s₀, .ok ()) →
      NostrClient.Sigue P s₀ receptor →
      sobre ∈ (NostrClient.sendMessage P relays' emisor text r).1 →
      emisor.peer_pk = C.public_key s.keys → s.peer_pk = C.public_key emisor.keys →
      C.public_key s.keys ≠ C.public_key r.keys →
      (NostrClient.NoSePierde P receptor s now sobre
          ⟨C.public_key emisor.keys, text, r.now⟩ ↔
        (saturatingSub now s.n_seconds ≤ r.now → saturatingSub now s.n_seconds ≤ r.tweaked)) := by
  constructor
  · intro sk receiver since' until' hex emisor shared since until_ receptor relays text r sobre
      n_seconds hemisor hkeys hreceptor hsobre hfresca
    exact Chat.noSePierde_iff hemisor hkeys hreceptor hsobre hfresca n_seconds
  · intro relays s now now' s₀ receptor relays' emisor text r sobre hsubscribe hsigue hsobre hto
      hfrom hfresca
    exact NostrClient.noSePierde_iff hsubscribe hsigue hsobre hto hfrom hfresca

theorem exists_numeracion : ∃ f : Firmado Unit → ℕ, Function.Injective f := by
  have hstring := Json.countable_string
  have hbyte : Countable UInt8 := Function.Injective.countable (f := UInt8.toNat) fun _ _ h =>
    UInt8.toNat_inj.mp h
  have hkind : Countable Kind := Function.Injective.countable (f := UInt16.toNat) fun _ _ h =>
    UInt16.toNat_inj.mp h
  have hdate : Countable Timestamp := Function.Injective.countable (f := UInt64.toNat)
    fun _ _ h => UInt64.toNat_inj.mp h
  have hevent : Countable (Firmado Unit) := by
    apply Function.Injective.countable (f := fun ev : Firmado Unit =>
      (ev.id, ev.pubkey, ev.created_at, ev.kind, ev.tags, ev.content))
    rintro ⟨ev, ⟨⟩⟩ ⟨ev', ⟨⟩⟩ h
    cases ev
    cases ev'
    cases h
    rfl
  exact exists_injective_nat _

noncomputable def numeracion : Firmado Unit → ℕ := exists_numeracion.choose

/-- As many zeros. -/
noncomputable def escribe (ev : Firmado Unit) : String :=
  String.ofList (List.replicate (numeracion ev) '0')

noncomputable def lee (s : String) : Except String (Firmado Unit) :=
  match Function.partialInv numeracion s.length with
  | some ev => .ok ev
  | none => .error "invalid JSON"

theorem lee_escribe (ev : Firmado Unit) : lee (escribe ev) = .ok ev := by
  have hinv : Function.partialInv numeracion (numeracion ev) = some ev :=
    Function.partialInv_left exists_numeracion.choose_spec ev
  rw [lee, escribe, String.length_ofList, List.length_replicate, hinv]

/-- Public keys are the secret ones, two of them share their sum and nothing is hidden. -/
noncomputable def abierta : Cripto where
  SecretKey := Bytes32
  Firma := Unit
  Azar := Unit
  public_key sk := sk
  parse := fromHex
  public_key_from_str := fromHex
  from_str := fromHex
  from_slice bytes := if h : bytes.length = 32 then .ok ⟨bytes, h⟩ else .error "InvalidSecretKey"
  to_secret_hex := Bytes32.to_hex
  generate_shared_key sk pk := .ok (List.zipWith (· + ·) sk.val pk.val)
  sign _ sk b now :=
    .ok ⟨⟨claveCero, sk, b.custom_created_at.getD now, b.kind, b.tags, b.content⟩, ()⟩
  verify _ := .ok ()
  as_json := escribe
  from_json := lee
  encrypt _ _ _ text := .ok text
  decrypt _ _ ct := .ok ct
  from_str_to_secret_hex := fromHex_to_hex
  generate_shared_key_comm a b := by
    rw [List.zipWith_comm_of_comm UInt8.add_comm]
  corresponde h := by
    cases h
    exact ⟨rfl, rfl, rfl, rfl, fun _ _ ht => ht⟩
  verify_sign _ := rfl
  from_json_as_json _ _ := lee_escribe _
  decrypt_encrypt h := h.symm

noncomputable def privada : Nip17 abierta where
  private_msg sk receiver text r :=
    .ok ⟨⟨claveCero, r.keys, r.tweaked, .GiftWrap, [Tag.public_key receiver],
      escribe ⟨⟨claveCero, sk, r.now, .PrivateDirectMessage, [], text⟩, ()⟩⟩, ()⟩
  unwrap_gift_wrap _ ev := do
    let inner ← lee ev.content
    return ⟨inner.pubkey, inner.kind, inner.content, inner.created_at⟩
  esSobre h _ := by
    cases h
    exact ⟨rfl, rfl, List.mem_cons_self⟩
  unwrap_private_msg h := by
    cases h
    rw [lee_escribe]
    rfl

def conectados (Firma : Type) : Relays Firma := ⟨fun _ => .ok (), fun _ => .ok (), fun _ => .ok ()⟩

/-- An envelope dated two hours before its message. -/
def dosHoras : Tirada Bytes32 Unit := ⟨1700000100, 1700000100, 7200, by decide, claveCero, ()⟩

def claveTres : PublicKey := ⟨List.replicate 32 3, List.length_replicate⟩

/-- What the first key says to the second. -/
def escribiente : Chat abierta :=
  ⟨some (filtro claveTres 10 0 0), some claveTres, some claveUno, some []⟩

def lector (since : Timestamp) : Chat abierta :=
  ⟨some (filtro claveTres 10 since 0), some claveTres, none, some []⟩

theorem participante_escribiente :
    Participante claveUno claveDos 0 0 (Bytes32.to_hex claveTres) escribiente := by
  have hparse : abierta.parse (Bytes32.to_hex claveUno) = .ok claveUno := fromHex_to_hex claveUno
  have hkey : abierta.public_key_from_str (Bytes32.to_hex claveDos) = .ok claveDos :=
    fromHex_to_hex claveDos
  have hinit : initParticipant abierta (conectados Unit) (Bytes32.to_hex claveUno)
      (Bytes32.to_hex claveDos) [] 10 0 0 = .ok (escribiente, Bytes32.to_hex claveTres) := by
    unfold initParticipant
    rw [hparse, hkey]
    rfl
  exact ⟨conectados Unit, _, _, [], 10, escribiente, hparse, hkey, hinit, .inicio⟩

theorem receptor_lector (since : Timestamp) :
    Receptor (C := abierta) claveUno claveDos (Bytes32.to_hex claveTres) since 0
      (lector since) := by
  have hkey : abierta.from_str (Bytes32.to_hex claveTres) = .ok claveTres :=
    fromHex_to_hex claveTres
  have hinit : initObserver abierta (conectados Unit) (Bytes32.to_hex claveTres) [] 10 since 0 =
      .ok (lector since) := by
    unfold initObserver
    rw [hkey]
    rfl
  exact Or.inr ⟨conectados Unit, [], 10, lector since, hinit, .inicio⟩

theorem exists_sobre : ∃ sobre, sobre ∈
    (Chat.sendMessage abierta (conectados Unit) escribiente "hola" dosHoras).1 :=
  ⟨_, List.mem_singleton_self _⟩

theorem fresca_of_ne {pk : PublicKey} (h : pk ≠ claveCero) :
    abierta.public_key pk ≠ abierta.public_key dosHoras.keys := h

/-- A reader without bounds gets it. -/
theorem back_dated_no_bounds :
    ∃ sobre ∈ (Chat.sendMessage abierta (conectados Unit) escribiente "hola" dosHoras).1,
      Chat.NoSePierde (lector 0) 0 0 60 sobre
        ⟨Bytes32.to_hex claveUno, "hola", 1700000100⟩ := by
  obtain ⟨sobre, hsobre⟩ := exists_sobre
  have hfresca : abierta.public_key claveTres ≠ abierta.public_key dosHoras.keys :=
    fresca_of_ne (by decide)
  have hiff := (back_dated_iff abierta privada).1 _ _ _ _ _ _ _ _ _ _ _ _ _ _ 60
    participante_escribiente rfl (receptor_lector 0) hsobre hfresca
  exact ⟨sobre, hsobre, hiff.mpr fun _ => ⟨UInt64.zero_le, Or.inl rfl⟩⟩

/-- A message of a moment after the one its reader asks from; one of a moment after a client
has subscribed to the last hour. -/
theorem envelope_before_since :
    (¬ ∀ C sk receiver since' until' hex emisor shared since until_ receptor relays text r sobre
      n_seconds, Participante (C := C) sk receiver since' until' hex emisor →
      emisor.shared_keys = some shared → Receptor sk receiver hex since until_ receptor →
      sobre ∈ (Chat.sendMessage C relays emisor text r).1 →
      C.public_key shared ≠ C.public_key r.keys →
      Chat.NoSePierde receptor since until_ n_seconds sobre
        ⟨(C.public_key sk).to_hex, text, r.now⟩) ∧
    ¬ ∀ C P relays s now now' s₀ receptor relays' emisor text r sobre,
      NostrClient.subscribe (C := C) relays s now now' = (s₀, .ok ()) →
      NostrClient.Sigue P s₀ receptor →
      sobre ∈ (NostrClient.sendMessage P relays' emisor text r).1 →
      emisor.peer_pk = C.public_key s.keys → s.peer_pk = C.public_key emisor.keys →
      C.public_key s.keys ≠ C.public_key r.keys →
      NostrClient.NoSePierde P receptor s now sobre ⟨C.public_key emisor.keys, text, r.now⟩ := by
  have hnow : (1700000000 : UInt64) ≤ 1700000100 := by decide
  constructor
  · intro h
    obtain ⟨sobre, hsobre⟩ := exists_sobre
    have hreceptor := receptor_lector 1700000000
    have hfresca : abierta.public_key claveTres ≠ abierta.public_key dosHoras.keys :=
      fresca_of_ne (by decide)
    have hpierde := h abierta _ _ _ _ _ _ _ _ _ _ _ _ _ _ 60 participante_escribiente rfl
      hreceptor hsobre hfresca
    have hdate := (Chat.noSePierde_iff participante_escribiente rfl hreceptor hsobre hfresca
      60).mp hpierde
    exact absurd (hdate ⟨hnow, Or.inl rfl⟩).1 (by decide)
  · intro h
    have hsubscribe : ∃ s₀, NostrClient.subscribe (C := abierta) (conectados Unit)
        ⟨claveDos, claveUno, 3600, 10, [], none⟩ 1700000000 1700000000 = (s₀, .ok ()) := ⟨_, rfl⟩
    obtain ⟨s₀, hsubscribe⟩ := hsubscribe
    obtain ⟨sobre, hsobre⟩ : ∃ sobre, sobre ∈ (NostrClient.sendMessage privada (conectados Unit)
        ⟨claveUno, claveDos, 3600, 10, [], none⟩ "hola" dosHoras).1 :=
      ⟨_, List.mem_singleton_self _⟩
    have hfresca : abierta.public_key claveDos ≠ abierta.public_key dosHoras.keys :=
      fresca_of_ne (by decide)
    have hpierde := h abierta privada _ _ _ _ _ _ _ _ _ _ _ hsubscribe .inicio hsobre rfl rfl
      hfresca
    have hdate := (NostrClient.noSePierde_iff hsubscribe .inicio hsobre rfl rfl hfresca).mp hpierde
    exact absurd (hdate (by decide)) (by decide)

end Nerea.Nostr
