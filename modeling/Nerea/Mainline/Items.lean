import Nerea.Mainline.Messages
import Nerea.Shared.Bencode

/-!
# Immutable and mutable items

An immutable value is stored under the hash of itself, a mutable one under the hash of its key
and salt, with a signature over number, value and salt. The text that is signed tells all
three. Reading an item from a message checks the signature, and leaves the target alone.
-/

set_option autoImplicit false

namespace Nerea.Mainline

/-- The hash function and the signature scheme, which other packages bring. -/
structure Crypto where
  sha1 : List UInt8 → Id
  validKey : Bytes 32 → Bool
  verify : Bytes 32 → List UInt8 → Bytes 64 → Bool

/-- The text that `hash_immutable` hashes. -/
def immutableText (v : List UInt8) : List UInt8 := Bencode.string v

def encodeSignable (seq : ℤ) (value : List UInt8) (salt : Option (List UInt8)) : List UInt8 :=
  (match salt with
    | some salt => Bencode.ascii "4:salt" ++ Bencode.string salt
    | none => []) ++
  Bencode.ascii "3:seqi" ++ Bencode.int seq ++ Bencode.ascii "e1:v" ++ Bencode.string value

inductive MutableError where
  | invalidMutableSignature
  | invalidMutablePublicKey
deriving DecidableEq

structure MutableItem where
  target : Id
  key : Bytes 32
  seq : ℤ
  value : List UInt8
  signature : Bytes 64
  salt : Option (List UInt8)
deriving DecidableEq

/-- The text that `target_from_key` hashes. -/
def targetText (key : Bytes 32) (salt : Option (List UInt8)) : List UInt8 :=
  match salt with
  | some salt => key.toList ++ salt
  | none => key.toList

section
variable (crypto : Crypto)

def hashImmutable (v : List UInt8) : Id := crypto.sha1 (immutableText v)

def validateImmutable (v : List UInt8) (target : Id) : Bool := hashImmutable crypto v = target

namespace MutableItem

def fromDhtMessage (target : Id) (key : Bytes 32) (v : List UInt8) (seq : ℤ)
    (signature : Bytes 64) (salt : Option (List UInt8)) : Except MutableError MutableItem :=
  if crypto.validKey key = false then .error .invalidMutablePublicKey
  else if crypto.verify key (encodeSignable seq v salt) signature = false then
    .error .invalidMutableSignature
  else .ok ⟨target, key, seq, v, signature, salt⟩

/-- The signature of the item is one of its key over its number, value and salt. -/
def Signed (item : MutableItem) : Prop :=
  crypto.validKey item.key = true ∧
    crypto.verify item.key (encodeSignable item.seq item.value item.salt) item.signature = true

variable {crypto}

theorem fromDhtMessage_eq_ok {target : Id} {key : Bytes 32} {v : List UInt8} {seq : ℤ}
    {signature : Bytes 64} {salt : Option (List UInt8)} {item : MutableItem} :
    fromDhtMessage crypto target key v seq signature salt = .ok item ↔
      item = ⟨target, key, seq, v, signature, salt⟩ ∧ item.Signed crypto := by
  unfold fromDhtMessage Signed
  constructor
  · intro h
    split at h
    · cases h
    · rename_i hkey
      split at h
      · cases h
      · rename_i hverify
        obtain rfl := Except.ok.inj h
        exact ⟨rfl, Bool.eq_true_of_not_eq_false hkey, Bool.eq_true_of_not_eq_false hverify⟩
  · rintro ⟨rfl, hkey, hverify⟩
    simp only at hkey hverify
    rw [hkey, hverify, if_neg Bool.true_eq_false_eq_False, if_neg Bool.true_eq_false_eq_False]

end MutableItem

end

def MutableItem.ofRequest (request : PutMutableRequestArguments) : MutableItem :=
  ⟨request.target, request.k, request.seq, request.v, request.sig, request.salt⟩

/-- The text after the salt tells the number and the value. -/
theorem signable_rest_inj {seq seq' : ℤ} {value value' : List UInt8}
    (h : Bencode.ascii "3:seqi" ++ Bencode.int seq ++ Bencode.ascii "e1:v" ++ Bencode.string value
      = Bencode.ascii "3:seqi" ++ Bencode.int seq' ++ Bencode.ascii "e1:v" ++
        Bencode.string value') : seq = seq' ∧ value = value' := by
  have hsplit : ∀ (i : ℤ) (bs : List UInt8),
      Bencode.ascii "3:seqi" ++ Bencode.int i ++ Bencode.ascii "e1:v" ++ bs
        = Bencode.ascii "3:seqi" ++
          (Bencode.int i ++ Bencode.charByte 'e' :: (Bencode.ascii "1:v" ++ bs)) := by
    intro i bs
    rw [List.append_assoc, List.append_assoc]
    rfl
  have hend : ¬ Bencode.IsDigit (Bencode.charByte 'e') := by
    rw [Bencode.IsDigit]
    decide
  rw [hsplit, hsplit] at h
  obtain ⟨hseq, hrest⟩ := Bencode.int_append_inj hend (List.append_cancel_left h)
  have hvalue := List.append_cancel_left hrest
  rw [← List.append_nil (Bencode.string value), ← List.append_nil (Bencode.string value')] at hvalue
  exact ⟨hseq, (Bencode.string_append_inj hvalue).1⟩

/-- What is signed tells the number, the value and whether there is a salt and which. What is
hashed for the target of an item tells the key and the salt, except that no salt and an empty
one are the same; what is hashed for an immutable value tells the value. -/
theorem texts_injective :
    (∀ seq seq' value value' salt salt',
      encodeSignable seq value salt = encodeSignable seq' value' salt' →
        seq = seq' ∧ value = value' ∧ salt = salt') ∧
    (∀ key key' salt salt', targetText key salt = targetText key' salt' ↔
        key = key' ∧ salt.getD [] = salt'.getD []) ∧
    ∀ v v', immutableText v = immutableText v' → v = v' := by
  refine ⟨?_, ?_, ?_⟩
  · intro seq seq' value value' salt salt' h
    unfold encodeSignable at h
    simp only [List.append_assoc] at h
    cases salt with
    | none =>
      cases salt' with
      | none =>
        simp only [List.nil_append, ← List.append_assoc] at h
        obtain ⟨hseq, hvalue⟩ := signable_rest_inj h
        exact ⟨hseq, hvalue, rfl⟩
      | some salt' =>
        -- the first byte is that of `3` on one side and of `4` on the other
        have hhead := (List.cons.inj h).1
        cases hhead
    | some salt =>
      cases salt' with
      | none =>
        have hhead := (List.cons.inj h).1
        cases hhead
      | some salt' =>
        simp only [List.append_assoc] at h
        obtain ⟨rfl, hrest⟩ := Bencode.string_append_inj (List.append_cancel_left h)
        simp only [← List.append_assoc] at hrest
        obtain ⟨hseq, hvalue⟩ := signable_rest_inj hrest
        exact ⟨hseq, hvalue, rfl⟩
  · intro key key' salt salt'
    have htext : ∀ (key : Bytes 32) (salt : Option (List UInt8)),
        targetText key salt = key.toList ++ salt.getD [] := by
      intro key salt
      cases salt with
      | none => exact (List.append_nil _).symm
      | some salt => rfl
    rw [htext, htext]
    constructor
    · intro h
      obtain ⟨hkey, hsalt⟩ := List.append_inj h (by
        rw [Vector.length_toList, Vector.length_toList])
      exact ⟨Vector.toList_inj.mp hkey, hsalt⟩
    · rintro ⟨rfl, hsalt⟩
      rw [hsalt]
  · intro v v' h
    rw [immutableText, immutableText, ← List.append_nil (Bencode.string v),
      ← List.append_nil (Bencode.string v')] at h
    exact (Bencode.string_append_inj h).1

end Nerea.Mainline
