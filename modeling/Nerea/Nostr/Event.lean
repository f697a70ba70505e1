import Mathlib.Data.Nat.Notation
import Nerea.Shared.Hex

/-!
# Events, filters and keys

What the modules of the social network share of the `nostr` crate.
-/

set_option autoImplicit false

namespace Nerea.Nostr

/-- `[u8; 32]` -/
abbrev Bytes32 := { bytes : List UInt8 // bytes.length = 32 }

abbrev PublicKey := Bytes32

abbrev EventId := Bytes32

def Bytes32.to_hex (b : Bytes32) : String := Hex.encode b.val

/-- The strings of a tag, its kind first. -/
abbrev Tag := List String

/-- `Tag::public_key` -/
def Tag.public_key (pk : PublicKey) : Tag := ["p", Bytes32.to_hex pk]

abbrev Kind := UInt16

namespace Kind

def TextNote : Kind := 1

def ContactList : Kind := 3

def PrivateDirectMessage : Kind := 14

def GiftWrap : Kind := 1059

end Kind

/-- Seconds since 1970. -/
abbrev Timestamp := UInt64

/-- Signed by its author. -/
structure Event where
  id : EventId
  pubkey : PublicKey
  created_at : Timestamp
  kind : Kind
  tags : List Tag
  content : String

structure Filter where
  author : Option PublicKey
  kind : Option Kind
  /-- Of a `p` tag. -/
  pubkey : Option PublicKey
  search : Option String
  since : Option Timestamp
  until_ : Option Timestamp
  limit : Option ℕ

def Filter.new : Filter := ⟨none, none, none, none, none, none, none⟩

/-- What a relay checks of an event; a search is up to the relay. -/
def Filter.match_event (f : Filter) (ev : Event) : Bool :=
  f.author.all (fun pk => decide (ev.pubkey = pk)) &&
  f.kind.all (fun k => decide (ev.kind = k)) &&
  f.pubkey.all (fun pk => ev.tags.any fun t => decide (t.take 2 = Tag.public_key pk)) &&
  f.since.all (fun s => decide (s ≤ ev.created_at)) &&
  f.until_.all (fun u => decide (ev.created_at ≤ u))

/-- The texts of keys. -/
structure Nip19 where
  from_bech32 : String → Except String PublicKey
  /-- `str::parse` -/
  parse : String → Except String PublicKey
  to_bech32 : PublicKey → String
  from_bech32_to_bech32 : ∀ pk, from_bech32 (to_bech32 pk) = .ok pk

/-- `Context::context` of an error that is printed with its causes. -/
def context {α : Type} (r : Except String α) (text : String) : Except String α :=
  r.mapError fun e => text ++ ": " ++ e

theorem ok_of_context {α : Type} {r : Except String α} {text : String} {a : α}
    (h : context r text = .ok a) : r = .ok a := by
  cases r with
  | error e => cases h
  | ok b => exact h

def claveCero : PublicKey := ⟨List.replicate 32 0, List.length_replicate⟩

def claveUno : PublicKey := ⟨List.replicate 32 1, List.length_replicate⟩

def claveDos : PublicKey := ⟨List.replicate 32 2, List.length_replicate⟩

def npubCero : String := "npub1qqqqqqqqqqqqqqqqqqqqqqqqqqqqqqqqqqqqqqqqqqqqqqqqqqqqzqujme"

def fromHex (s : String) : Except String PublicKey :=
  match Hex.decode s with
  | none => .error "InvalidHex"
  | some bytes => if h : bytes.length = 32 then .ok ⟨bytes, h⟩ else .error "InvalidLength"

theorem fromHex_to_hex (pk : PublicKey) : fromHex (Bytes32.to_hex pk) = .ok pk := by
  rw [fromHex, Bytes32.to_hex, Hex.decode_encode]
  exact dif_pos pk.property

theorem to_hex_ne_npubCero (pk : PublicKey) : Bytes32.to_hex pk ≠ npubCero := by
  intro h
  have hdecode := fromHex_to_hex pk
  rw [h] at hdecode
  cases hdecode

/-- Only the key of zeros in bech32, the others in hexadecimal. -/
def nip19Cero : Nip19 where
  from_bech32 s := if s = npubCero then .ok claveCero else fromHex s
  parse := fromHex
  to_bech32 pk := if pk = claveCero then npubCero else Bytes32.to_hex pk
  from_bech32_to_bech32 pk := by
    by_cases hpk : pk = claveCero
    · rw [if_pos hpk, if_pos rfl, hpk]
    · rw [if_neg hpk, if_neg (to_hex_ne_npubCero pk), fromHex_to_hex]

end Nerea.Nostr
