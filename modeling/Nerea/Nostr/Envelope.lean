import Nerea.Nostr.Event

/-!
# Envelopes

A message travels inside an envelope: an event by a key made for it alone, with a date put
back by up to two days. The receiver decrypts it and finds the message with its own date.
-/

set_option autoImplicit false

namespace Nerea.Nostr

/-- An event with its signature. -/
structure Firmado (Firma : Type) extends Event where
  sig : Firma

/-- `kind`, `content` and `tags` of the event, a date of its own and a proof of work. -/
structure EventBuilder where
  kind : Kind
  content : String
  tags : List Tag
  custom_created_at : Option Timestamp
  pow : Option UInt8

def EventBuilder.textNote (content : String) : EventBuilder := ⟨.TextNote, content, [], none, none⟩

/-- What is signed is what was built, and its date the clock's when it has none. A builder
may drop a tag of the author and add others. -/
structure Corresponde (pk : PublicKey) (b : EventBuilder) (now : Timestamp) (ev : Event) :
    Prop where
  pubkey : ev.pubkey = pk
  kind : ev.kind = b.kind
  content : ev.content = b.content
  created_at : ev.created_at = b.custom_created_at.getD now
  tags : ∀ other, other ≠ pk → Tag.public_key other ∈ b.tags → Tag.public_key other ∈ ev.tags

/-- Keys, signatures and ciphertexts of the `nostr` crate. `Azar` is what they draw. -/
structure Cripto where
  SecretKey : Type
  Firma : Type
  Azar : Type
  public_key : SecretKey → PublicKey
  /-- `Keys::parse` -/
  parse : String → Except String SecretKey
  /-- `PublicKey::from_str` -/
  public_key_from_str : String → Except String PublicKey
  from_str : String → Except String SecretKey
  from_slice : List UInt8 → Except String SecretKey
  to_secret_hex : SecretKey → String
  generate_shared_key : SecretKey → PublicKey → Except String (List UInt8)
  sign : Azar → SecretKey → EventBuilder → Timestamp → Except String (Firmado Firma)
  verify : Firmado Firma → Except String Unit
  as_json : Firmado Firma → String
  from_json : String → Except String (Firmado Firma)
  /-- `nip44::encrypt`; some texts are too short or too long for it. -/
  encrypt : Azar → SecretKey → PublicKey → String → Except String String
  decrypt : SecretKey → PublicKey → String → Except String String
  from_str_to_secret_hex : ∀ sk, from_str (to_secret_hex sk) = .ok sk
  generate_shared_key_comm : ∀ a b,
    generate_shared_key a (public_key b) = generate_shared_key b (public_key a)
  corresponde : ∀ {azar sk b now ev}, sign azar sk b now = .ok ev →
    Corresponde (public_key sk) b now ev.toEvent
  verify_sign : ∀ {azar sk b now ev}, sign azar sk b now = .ok ev → verify ev = .ok ()
  from_json_as_json : ∀ {azar sk b now ev}, sign azar sk b now = .ok ev → (∀ t ∈ b.tags, t ≠ []) →
    from_json (as_json ev) = .ok ev
  decrypt_encrypt : ∀ {azar a b text ct}, encrypt azar a (public_key b) text = .ok ct →
    decrypt b (public_key a) ct = .ok text

def saturatingSub (x y : UInt64) : UInt64 := if y ≤ x then x - y else 0

theorem saturatingSub_self (x : UInt64) : saturatingSub x x = 0 := by
  rw [saturatingSub, if_pos (UInt64.le_refl x), UInt64.sub_self]

/-- `nip59::RANGE_RANDOM_TIMESTAMP_TWEAK` ends here, two days. -/
def rangeRandomTimestampTweak : UInt64 := 172800

/-- What a send reads and draws: the clock when the message is made and when its envelope
is, how far the envelope is put back, and its key. -/
structure Tirada (SecretKey Azar : Type) where
  now : Timestamp
  now' : Timestamp
  tweak : UInt64
  tweak_lt : tweak < rangeRandomTimestampTweak
  keys : SecretKey
  azar : Azar

/-- `Timestamp::tweaked` -/
def Tirada.tweaked {SecretKey Azar : Type} (r : Tirada SecretKey Azar) : Timestamp :=
  saturatingSub r.now' r.tweak

def powDifficulty : UInt8 := 2

variable (C : Cripto)

def mostroWrap (sender : C.SecretKey) (receiver : PublicKey) (message : String)
    (extra_tags : List Tag) (r : Tirada C.SecretKey C.Azar) :
    Except String (Firmado C.Firma) := do
  let inner_event ← C.sign r.azar sender (.textNote message) r.now
  let encrypted_content ← C.encrypt r.azar r.keys receiver (C.as_json inner_event)
  C.sign r.azar r.keys
    { kind := .GiftWrap, content := encrypted_content,
      tags := Tag.public_key receiver :: extra_tags, custom_created_at := some r.tweaked,
      pow := some powDifficulty } r.now'

def mostroUnwrap (receiver : C.SecretKey) (event : Event) :
    Except String (Firmado C.Firma) := do
  let decrypted_content ← C.decrypt receiver event.pubkey event.content
  let inner_event ← C.from_json decrypted_content
  C.verify inner_event
  return inner_event

/-- An unsigned message. -/
structure Rumor where
  kind : Kind
  content : String
  created_at : Timestamp

structure UnwrappedGift where
  sender : PublicKey
  rumor : Rumor

/-- How an envelope looks from outside. -/
structure EsSobre (receiver : PublicKey) (fecha : Timestamp) (ev : Event) : Prop where
  kind : ev.kind = .GiftWrap
  created_at : ev.created_at = fecha
  tag : Tag.public_key receiver ∈ ev.tags

/-- The private messages of NIP-17. -/
structure Nip17 where
  /-- `EventBuilder::private_msg` -/
  private_msg : C.SecretKey → PublicKey → String → Tirada C.SecretKey C.Azar →
    Except String (Firmado C.Firma)
  unwrap_gift_wrap : C.SecretKey → Event → Except String UnwrappedGift
  esSobre : ∀ {sk receiver text r ev}, private_msg sk receiver text r = .ok ev →
    receiver ≠ C.public_key r.keys → EsSobre receiver r.tweaked ev.toEvent
  unwrap_private_msg : ∀ {sk sk' text r ev}, private_msg sk (C.public_key sk') text r = .ok ev →
    unwrap_gift_wrap sk' ev.toEvent =
      .ok ⟨C.public_key sk, .PrivateDirectMessage, text, r.now⟩

theorem EsSobre.any_tag {receiver : PublicKey} {fecha : Timestamp} {ev : Event}
    (h : EsSobre receiver fecha ev) :
    (ev.tags.any fun t => decide (t.take 2 = Tag.public_key receiver)) = true :=
  List.any_eq_true.mpr ⟨Tag.public_key receiver, h.tag, decide_eq_true rfl⟩

theorem ok_of_bind {α β : Type} {x : Except String α} {f : α → Except String β} {b : β}
    (h : x >>= f = .ok b) : ∃ a, x = .ok a ∧ f a = .ok b := by
  cases x with
  | error e => cases h
  | ok a => exact ⟨a, rfl, h⟩

variable {C} {sender shared : C.SecretKey} {message : String} {extra_tags : List Tag}
  {r : Tirada C.SecretKey C.Azar} {sobre : Firmado C.Firma}

theorem mostroWrap_esSobre {receiver : PublicKey}
    (h : mostroWrap C sender receiver message extra_tags r = .ok sobre)
    (hkeys : receiver ≠ C.public_key r.keys) :
    EsSobre receiver r.tweaked sobre.toEvent := by
  obtain ⟨inner_event, -, h⟩ := ok_of_bind h
  obtain ⟨encrypted_content, -, hsign⟩ := ok_of_bind h
  have hbuilt := C.corresponde hsign
  exact ⟨hbuilt.kind, hbuilt.created_at, hbuilt.tags receiver hkeys List.mem_cons_self⟩

/-- The message comes out as it went in. -/
theorem mostroUnwrap_mostroWrap
    (h : mostroWrap C sender (C.public_key shared) message extra_tags r = .ok sobre) :
    ∃ inner, mostroUnwrap C shared sobre.toEvent = .ok inner ∧
      Corresponde (C.public_key sender) (.textNote message) r.now inner.toEvent := by
  obtain ⟨inner_event, hinner, h⟩ := ok_of_bind h
  obtain ⟨encrypted_content, hencrypt, hsign⟩ := ok_of_bind h
  have houter := C.corresponde hsign
  have hjson : C.from_json (C.as_json inner_event) = .ok inner_event :=
    C.from_json_as_json hinner fun t ht => absurd ht List.not_mem_nil
  refine ⟨inner_event, ?_, C.corresponde hinner⟩
  unfold mostroUnwrap
  rw [houter.pubkey, houter.content, C.decrypt_encrypt hencrypt]
  change C.from_json (C.as_json inner_event) >>= _ = _
  rw [hjson]
  change C.verify inner_event >>= _ = _
  rw [C.verify_sign hinner]
  rfl

end Nerea.Nostr
