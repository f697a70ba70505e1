import Nerea.Shared.Xorshift
import Mathlib.Data.List.Basic
import Mathlib.Logic.Function.Iterate

/-!
# The legacy cipher and its keystream

The cipher adds the bytes of a generator to the data. The generator is documented as xorshift64*
over unsigned words, but it shifts Dart's signed integers, which keeps the sign. The bytes are
the documented ones as long as no word has its top bit set before the last shift, and differ in
the first step in which one has.
-/

set_option autoImplicit false

namespace Nerea.ToolSec

/-- A Dart string: UTF-16 code units. -/
abbrev Cadena := List UInt16

/-- A Dart integer: 64 bits in two's complement. -/
abbrev Entero := BitVec 64

def djb2 (s : Cadena) : Entero :=
  s.foldl (fun hash c => ((hash <<< 5) + hash + c.toBitVec.setWidth 64) &&& 0xFFFFFFFF#64) 5381#64

def MULT : Entero := 2685821657736338717#64

/-- `_nextRand`; `toUnsigned(64)` keeps the bits of an integer. -/
def nextRand (state : Entero) : UInt8 × Entero :=
  let state := state ^^^ state.sshiftRight 12
  let state := state ^^^ (state <<< 25)
  let state := state ^^^ state.sshiftRight 27
  let rand := (state * MULT).sshiftRight 32 &&& 0xFF#64
  (⟨rand.setWidth 8⟩, state)

/-- The loop over a buffer: the result, and the state after it. -/
def xorBytes (gen : Entero → UInt8 × Entero) (state : Entero) : List UInt8 → List UInt8 × Entero
  | [] => ([], state)
  | b :: data =>
    let (rand, next) := gen state
    let (result, fin) := xorBytes gen next data
    ((b ^^^ rand) :: result, fin)

def processBytes (key : Cadena) (data : List UInt8) : List UInt8 :=
  (xorBytes nextRand (djb2 key) data).1

/-- The `while` of `encodeFileLarge` over what the reads return. -/
def xorChunks (gen : Entero → UInt8 × Entero) (state : Entero) : List (List UInt8) → List UInt8
  | [] => []
  | chunk :: chunks =>
    if chunk = [] then []
    else
      let (out, next) := xorBytes gen state chunk
      out ++ xorChunks gen next chunks

/-- What is left in the file; the reads are those of a file that exists. -/
def encodeFileLarge (key : Cadena) (file : Option (List (List UInt8))) :
    Except String (List UInt8) :=
  match file with
  | none => .error "Archivo no encontrado"
  | some chunks => .ok (xorChunks nextRand (djb2 key) chunks)

/-- The hash over 32-bit words. -/
def hashU32 (s : Cadena) : BitVec 32 :=
  s.foldl (fun hash c => hash * 33#32 + c.toBitVec.setWidth 32) 5381#32

/-- The documented generator, over unsigned words. -/
def xorshift64star (state : Entero) : UInt8 × Entero :=
  let state := state ^^^ (state >>> 12)
  let state := state ^^^ (state <<< 25)
  let state := state ^^^ (state >>> 27)
  let rand := ((state * MULT) >>> 32) &&& 0xFF#64
  (⟨rand.setWidth 8⟩, state)

/-- Its state before a step. -/
def estado (key : Cadena) (i : ℕ) : Entero :=
  (fun state => (xorshift64star state).2)^[i] ((hashU32 key).setWidth 64)

/-- The data with the documented keystream added. -/
def cifrado (key : Cadena) (data : List UInt8) : List UInt8 :=
  data.mapIdx fun i b => b ^^^ (xorshift64star (estado key i)).1

/-- The word of a step of the documented generator before its last shift. -/
def mezcla (state : Entero) : Entero := Xorshift.left 25 (Xorshift.right 12 state)

open Xorshift

theorem nextRand_snd (x : Entero) :
    (nextRand x).2 = signedRight 27 (left 25 (signedRight 12 x)) := rfl

theorem xorshift64star_snd (x : Entero) : (xorshift64star x).2 = right 27 (mezcla x) := rfl

/-- The documented generator never merges two states. -/
theorem xorshift64star_injective : Function.Injective fun x => (xorshift64star x).2 := by
  intro x y h
  have hmezcla : mezcla x = mezcla y := (right_inj (by decide)).mp h
  exact (right_inj (by decide)).mp ((left_inj (by decide)).mp hmezcla)

theorem mezcla_eq {x : Entero} (h : x.msb = false) : left 25 (signedRight 12 x) = mezcla x := by
  rw [mezcla, signedRight_of_msb h]

/-- Where the bits of the sum of two states are followed back through the steps. -/
theorem nextRand_snd_eq_zero {z : Entero} : signedRight 27 (left 25 (signedRight 12 z)) = 0#64 ↔
    z = 0#64 ∨ z = BitVec.allOnes 64 := by
  rw [signedRight_eq_zero (by decide), left_eq_zero (by decide), signedRight_eq_zero (by decide),
    or_iff_left]
  -- a word that the left step takes to all ones has its sign, which the first step clears
  intro hones
  have hmsb := msb_signedRight (k := 12) (x := z)
  generalize signedRight 12 z = u at hones hmsb
  have hbits (i : ℕ) (hi : i < 64) : (left 25 u).getLsbD i = true := by
    rw [hones, BitVec.getLsbD_allOnes, decide_eq_true hi]
  have h13 := hbits 13 (by decide)
  have h38 := hbits 38 (by decide)
  have h63 := hbits 63 (by decide)
  rw [left, BitVec.getLsbD_xor, BitVec.getLsbD_shiftLeft] at h13 h38 h63
  rw [BitVec.msb_eq_getLsbD_last] at hmsb
  have h13 : u[13] = true := by simpa using h13
  have h38 : u[38] = false := by simpa [h13] using h38
  have h63 : u[63] = true := by simpa [h38] using h63
  exact absurd (hmsb.symm.trans h63) (by decide)

/-- Two states go to the same one exactly when they are equal or complements. -/
theorem nextRand_snd_inj (x y : Entero) :
    (nextRand x).2 = (nextRand y).2 ↔ x = y ∨ x = ~~~y := by
  have hlinear (x y : Entero) : signedRight 27 (left 25 (signedRight 12 (x ^^^ y))) =
      signedRight 27 (left 25 (signedRight 12 x)) ^^^
        signedRight 27 (left 25 (signedRight 12 y)) := by
    rw [signedRight_xor, left_xor, signedRight_xor]
  rw [nextRand_snd, nextRand_snd,
    eq_iff_of_xor (f := fun x => signedRight 27 (left 25 (signedRight 12 x))) hlinear,
    nextRand_snd_eq_zero, BitVec.xor_eq_zero_iff]
  apply or_congr_right
  constructor
  · intro h
    rw [← BitVec.xor_allOnes, ← h, BitVec.xor_comm x y, ← BitVec.xor_assoc, BitVec.xor_self,
      BitVec.zero_xor]
  · rintro rfl
    rw [← BitVec.xor_allOnes, BitVec.xor_comm y, BitVec.xor_assoc, BitVec.xor_self,
      BitVec.xor_zero]

theorem state_bit_ne {u : Entero} (h : u.msb = true) :
    (signedRight 27 u * MULT).getLsbD 37 ≠ (right 27 u * MULT).getLsbD 37 := by
  apply getLsbD_mul_ne (by decide) (by decide)
  · intro j hj
    have hlt : 27 + j < 64 := by omega
    rw [signedRight, right, BitVec.getLsbD_xor, BitVec.getLsbD_xor, BitVec.getLsbD_sshiftRight,
      BitVec.getLsbD_ushiftRight, if_pos hlt]
    simp [show ¬ 64 ≤ j by omega]
  · rw [signedRight, right, BitVec.getLsbD_xor, BitVec.getLsbD_xor, BitVec.getLsbD_sshiftRight,
      BitVec.getLsbD_ushiftRight, h]
    simp

theorem rand_bit (p : Entero) :
    ((p.sshiftRight 32 &&& 0xFF#64).setWidth 8).getLsbD 5 = p.getLsbD 37 := by
  rw [BitVec.getLsbD_setWidth, BitVec.getLsbD_and, BitVec.getLsbD_sshiftRight, if_pos (by decide)]
  simp

theorem rand_logical (p : Entero) :
    (p.sshiftRight 32 &&& 0xFF#64).setWidth 8 = ((p >>> 32) &&& 0xFF#64).setWidth 8 := by
  apply BitVec.eq_of_getLsbD_eq
  intro i hi
  have hlt : 32 + i < 64 := by omega
  rw [BitVec.getLsbD_setWidth, BitVec.getLsbD_setWidth, BitVec.getLsbD_and, BitVec.getLsbD_and,
    BitVec.getLsbD_sshiftRight, BitVec.getLsbD_ushiftRight, if_pos hlt]
  simp [show ¬ 64 ≤ i by omega]

/-- From a state without sign the bytes agree exactly when the last shift finds none. -/
theorem nextRand_fst_iff {x : Entero} (h : x.msb = false) :
    (nextRand x).1 = (xorshift64star x).1 ↔ (mezcla x).msb = false := by
  have hrand : (nextRand x).1.toBitVec =
      ((signedRight 27 (mezcla x) * MULT).sshiftRight 32 &&& 0xFF#64).setWidth 8 := by
    rw [← mezcla_eq h]
    rfl
  have hdoc : (xorshift64star x).1.toBitVec =
      ((right 27 (mezcla x) * MULT).sshiftRight 32 &&& 0xFF#64).setWidth 8 := by
    rw [rand_logical]
    rfl
  rw [← UInt8.toBitVec_inj, hrand, hdoc]
  constructor
  · intro heq
    have hbit := congrArg (BitVec.getLsbD · 5) heq
    simp only [rand_bit] at hbit
    exact Bool.eq_false_iff.mpr fun hmsb => state_bit_ne hmsb hbit
  · intro hmsb
    rw [signedRight_of_msb hmsb]

theorem nextRand_snd_eq {x : Entero} (h : x.msb = false) (hmsb : (mezcla x).msb = false) :
    (nextRand x).2 = (xorshift64star x).2 := by
  rw [nextRand_snd, xorshift64star_snd, mezcla_eq h, signedRight_of_msb hmsb]

/-- The `n` bytes from a state without sign agree exactly when no last shift finds one. -/
theorem flujo_iff (n : ℕ) {x : Entero} (h : x.msb = false) :
    (∀ i < n, (nextRand ((fun x => (nextRand x).2)^[i] x)).1 =
      (xorshift64star ((fun x => (xorshift64star x).2)^[i] x)).1) ↔
      ∀ i < n, (mezcla ((fun x => (xorshift64star x).2)^[i] x)).msb = false := by
  induction n generalizing x with
  | zero => exact iff_of_true nofun nofun
  | succ n ih =>
    rw [Nat.forall_lt_succ_left, Nat.forall_lt_succ_left]
    simp only [Function.iterate_zero, id_eq, Function.iterate_succ, Function.comp_apply]
    rw [nextRand_fst_iff h]
    apply and_congr_right
    intro hmsb
    have hnext : ((nextRand x).2).msb = false := msb_signedRight
    rw [← nextRand_snd_eq h hmsb]
    exact ih hnext

theorem xorBytes_cons (gen : Entero → UInt8 × Entero) (x : Entero) (b : UInt8)
    (data : List UInt8) : xorBytes gen x (b :: data) =
      ((b ^^^ (gen x).1) :: (xorBytes gen (gen x).2 data).1, (xorBytes gen (gen x).2 data).2) :=
  rfl

theorem xorBytes_fst (gen : Entero → UInt8 × Entero) (x : Entero) (data : List UInt8) :
    (xorBytes gen x data).1 =
      data.mapIdx fun i b => b ^^^ (gen ((fun x => (gen x).2)^[i] x)).1 := by
  induction data generalizing x with
  | nil => rfl
  | cons b data ih =>
    rw [xorBytes_cons, List.mapIdx_cons, ih]
    rfl

theorem xorBytes_append (gen : Entero → UInt8 × Entero) (x : Entero) (data data' : List UInt8) :
    (xorBytes gen x (data ++ data')).1 =
      (xorBytes gen x data).1 ++ (xorBytes gen (xorBytes gen x data).2 data').1 := by
  induction data generalizing x with
  | nil => rfl
  | cons b data ih =>
    rw [List.cons_append, xorBytes_cons, xorBytes_cons, ih, List.cons_append]

/-- What the reads give before the first that gives nothing. -/
def leido (chunks : List (List UInt8)) : List UInt8 :=
  (chunks.takeWhile fun chunk => !chunk.isEmpty).flatten

theorem xorChunks_eq (gen : Entero → UInt8 × Entero) (x : Entero)
    (chunks : List (List UInt8)) : xorChunks gen x chunks = (xorBytes gen x (leido chunks)).1 := by
  induction chunks generalizing x with
  | nil => rfl
  | cons chunk chunks ih =>
    rw [xorChunks]
    cases chunk with
    | nil => rfl
    | cons b chunk =>
      rw [if_neg (List.cons_ne_nil b chunk), leido, List.takeWhile_cons_of_pos rfl,
        List.flatten_cons, xorBytes_append]
      exact congrArg ((xorBytes gen x (b :: chunk)).1 ++ ·) (ih _)

/-- The hash is below 2^32 at every step, so nothing is lost before the mask. -/
theorem djb2_eq (s : Cadena) : djb2 s = (hashU32 s).setWidth 64 := by
  have hfold : ∀ h : BitVec 32, s.foldl (fun (hash : Entero) c =>
      ((hash <<< 5) + hash + c.toBitVec.setWidth 64) &&& 0xFFFFFFFF#64) (h.setWidth 64) =
      (s.foldl (fun hash c => hash * 33#32 + c.toBitVec.setWidth 32) h).setWidth 64 := by
    induction s with
    | nil => exact fun _ => rfl
    | cons c s ih =>
      intro h
      rw [List.foldl_cons, List.foldl_cons, ← ih]
      congr 1
      apply BitVec.eq_of_toNat_eq
      have hmask : (0xFFFFFFFF#64).toNat = 2 ^ 32 - 1 := rfl
      rw [BitVec.toNat_and, hmask, Nat.and_two_pow_sub_one_eq_mod]
      simp only [BitVec.toNat_add, BitVec.toNat_mul, BitVec.toNat_shiftLeft, BitVec.toNat_setWidth,
        BitVec.toNat_ofNat, Nat.shiftLeft_eq]
      omega
  exact hfold 5381#32

theorem msb_semilla (key : Cadena) : ((hashU32 key).setWidth 64).msb = false := by
  rw [BitVec.msb_eq_getLsbD_last, BitVec.getLsbD_setWidth, BitVec.getLsbD_of_ge _ _ (by decide),
    Bool.and_false]

theorem xorBytes_djb2_iff (key : Cadena) (data : List UInt8) :
    (xorBytes nextRand (djb2 key) data).1 = cifrado key data ↔
      ∀ i < data.length, (mezcla (estado key i)).msb = false := by
  rw [xorBytes_fst, cifrado, List.mapIdx_eq_mapIdx_iff, djb2_eq]
  refine Iff.trans ?_ (flujo_iff data.length (msb_semilla key))
  apply forall₂_congr
  intro i _
  exact UInt8.xor_right_inj _

/-- On data of any length both paths add the documented keystream exactly when no word of its
steps has its top bit set before the last shift; and two states merge exactly when they are
complements. -/
theorem documentado_iff (key : Cadena) (data : List UInt8) (chunks : List (List UInt8))
    (x y : Entero) :
    (processBytes key data = cifrado key data ↔
      ∀ i < data.length, (mezcla (estado key i)).msb = false) ∧
    (encodeFileLarge key (some chunks) = .ok (cifrado key (leido chunks)) ↔
      ∀ i < (leido chunks).length, (mezcla (estado key i)).msb = false) ∧
    ((nextRand x).2 = (nextRand y).2 ↔ x = y ∨ x = ~~~y) := by
  refine ⟨xorBytes_djb2_iff key data, ?_, nextRand_snd_inj x y⟩
  rw [encodeFileLarge, Except.ok.injEq, xorChunks_eq]
  exact xorBytes_djb2_iff key (leido chunks)

/-- The fourth byte of the key 1234 is not the documented one, and the states 1 and -2 merge. -/
theorem clave1234_difiere : (¬ ∀ key data, processBytes key data = cifrado key data) ∧
    ¬ ∀ x y : Entero, (nextRand x).2 = (nextRand y).2 → x = y := by
  constructor
  · intro h
    exact absurd (h [0x31, 0x32, 0x33, 0x34] [0, 0, 0, 0]) (by decide)
  · intro h
    exact absurd (h 1#64 (-2#64) (by decide)) (by decide)

end Nerea.ToolSec
