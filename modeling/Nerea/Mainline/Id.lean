import Nerea.Shared.Crc
import Nerea.Shared.XorMetric
import Mathlib.Data.Finset.Card
import Mathlib.Data.Finset.Image

/-!
# Node ids

An id is twenty bytes. The distance of two ids is the length of their exclusive or. The first
21 bits of a secure id are a check of the address of its node and of three random bits, so an
address has at most eight of them.
-/

set_option autoImplicit false

namespace Nerea.Mainline

def idSize : ℕ := 20

def maxDistance : ℕ := idSize * 8

/-- `Id`; the invariant is the length of the array. -/
structure Id where
  bytes : List UInt8
  size : bytes.length = idSize
deriving DecidableEq

/-- An address of four octets. -/
structure Ipv4Addr where
  a : UInt8
  b : UInt8
  c : UInt8
  d : UInt8
deriving DecidableEq

namespace Ipv4Addr

variable (ip : Ipv4Addr)

def octets : List UInt8 := [ip.a, ip.b, ip.c, ip.d]

/-- `u32::from_be_bytes` of the octets. -/
def toBits : BitVec 32 := ip.a.toBitVec ++ ip.b.toBitVec ++ ip.c.toBitVec ++ ip.d.toBitVec

def isPrivate : Bool :=
  ip.a = 10 || (ip.a = 172 && ip.b &&& 0xf0 = 16) || (ip.a = 192 && ip.b = 168)

def isLinkLocal : Bool := ip.a = 169 && ip.b = 254

def isLoopback : Bool := ip.a = 127

def isUnspecified : Bool := ip.a = 0 && ip.b = 0 && ip.c = 0 && ip.d = 0

theorem octets_injective {ip ip' : Ipv4Addr} (h : ip.octets = ip'.octets) : ip = ip' := by
  cases ip
  cases ip'
  simp only [octets, List.cons.injEq, and_true] at h
  obtain ⟨rfl, rfl, rfl, rfl⟩ := h
  rfl

end Ipv4Addr

/-- `u32::to_be_bytes`. -/
def toBeBytes (x : BitVec 32) : List UInt8 :=
  [⟨x.extractLsb' 24 8⟩, ⟨x.extractLsb' 16 8⟩, ⟨x.extractLsb' 8 8⟩, ⟨x.extractLsb' 0 8⟩]

theorem append_bytes (x : BitVec 32) :
    x.extractLsb' 24 8 ++ x.extractLsb' 16 8 ++ x.extractLsb' 8 8 ++ x.extractLsb' 0 8 = x := by
  apply BitVec.eq_of_getLsbD_eq
  intro i hi
  simp only [BitVec.getLsbD_append, BitVec.getLsbD_extractLsb']
  by_cases h0 : i < 8
  · simp [h0]
  · by_cases h1 : i - 8 < 8
    · have hsum : 8 + (i - 8) = i := by omega
      simp [h0, h1, hsum]
    · by_cases h2 : i - 8 - 8 < 8
      · have hsum : 16 + (i - 8 - 8) = i := by omega
        simp [h0, h1, h2, hsum]
      · have h3 : i - 8 - 8 - 8 < 8 := by omega
        have hsum : 24 + (i - 8 - 8 - 8) = i := by omega
        simp [h0, h1, h2, h3, hsum]

theorem toBeBytes_injective {x y : BitVec 32} (h : toBeBytes x = toBeBytes y) : x = y := by
  simp only [toBeBytes, List.cons.injEq, and_true] at h
  obtain ⟨h3, h2, h1, h0⟩ := h
  have h3 := congrArg UInt8.toBitVec h3
  have h2 := congrArg UInt8.toBitVec h2
  have h1 := congrArg UInt8.toBitVec h1
  have h0 := congrArg UInt8.toBitVec h0
  simp only at h3 h2 h1 h0
  rw [← append_bytes x, ← append_bytes y, h3, h2, h1, h0]

theorem toBeBytes_xor (x y : BitVec 32) :
    toBeBytes (x ^^^ y) = XorMetric.xor (toBeBytes x) (toBeBytes y) := by
  simp only [toBeBytes, XorMetric.xor, List.zipWith_cons_cons, List.zipWith_nil_left,
    BitVec.extractLsb'_xor]
  rfl

/-- `CRC_32_ISCSI`: the polynomial `0x1edc6f41` reflected, ones before and after. -/
def castagnoli (bytes : List UInt8) : BitVec 32 :=
  Crc.checksum 0x82f63b78#32 (BitVec.allOnes 32) (BitVec.allOnes 32) bytes

def ipv4Mask : BitVec 32 := 0x030f3fff#32

def idPrefixIpv4 (ip : Ipv4Addr) (r : UInt8) : List UInt8 :=
  let r32 := r.toBitVec.setWidth 32
  let maskedIp := (ip.toBits &&& ipv4Mask) ||| (r32 <<< 29)
  (toBeBytes (castagnoli (toBeBytes maskedIp))).take 3

/-- Of a slice of at least three bytes. -/
def first21Bits (bytes : List UInt8) : List UInt8 :=
  match bytes with
  | b0 :: b1 :: b2 :: _ => [b0, b1, b2 &&& 0xf8]
  | _ => []

/-- The shift leaves three bits of `r`. -/
theorem shift_low (r : UInt8) :
    r.toBitVec.setWidth 32 <<< 29 = (r &&& 7).toBitVec.setWidth 32 <<< 29 := by
  apply BitVec.eq_of_getLsbD_eq
  intro i hi
  rw [BitVec.getLsbD_shiftLeft, BitVec.getLsbD_shiftLeft, BitVec.getLsbD_setWidth,
    BitVec.getLsbD_setWidth, UInt8.toBitVec_and, BitVec.getLsbD_and]
  by_cases hlow : i < 29
  · simp [hlow]
  · have hbit : (7 : UInt8).toBitVec.getLsbD (i - 29) = true := by
      have hcases : i = 29 ∨ i = 30 ∨ i = 31 := by omega
      rcases hcases with rfl | rfl | rfl <;> rfl
    rw [hbit, Bool.and_true]

theorem idPrefixIpv4_low (ip : Ipv4Addr) (r : UInt8) :
    idPrefixIpv4 ip r = idPrefixIpv4 ip (r &&& 7) := by
  simp only [idPrefixIpv4]
  rw [shift_low]

/-- The beginnings that secure ids of the address have. -/
def validPrefixes (ip : Ipv4Addr) : Finset (List UInt8) :=
  (Finset.range 8).image (fun r => first21Bits (idPrefixIpv4 ip (UInt8.ofNat r)))

theorem card_validPrefixes_le (ip : Ipv4Addr) : (validPrefixes ip).card ≤ 8 :=
  Nat.le_trans Finset.card_image_le (Nat.le_of_eq (Finset.card_range 8))

theorem first21Bits_idPrefixIpv4_mem (ip : Ipv4Addr) (r : UInt8) :
    first21Bits (idPrefixIpv4 ip r) ∈ validPrefixes ip := by
  have hlt : (r &&& 7).toNat < 8 := by
    rw [UInt8.toNat_and]
    exact Nat.lt_succ_of_le Nat.and_le_right
  rw [idPrefixIpv4_low]
  apply Finset.mem_image.mpr
  refine ⟨(r &&& 7).toNat, Finset.mem_range.mpr hlt, ?_⟩
  rw [UInt8.ofNat_toNat]

namespace Id

variable (id other : Id)

/-- `from_bytes`, or the size that was found. -/
def fromBytes (bytes : List UInt8) : Except ℕ Id :=
  if h : bytes.length = idSize then .ok ⟨bytes, h⟩ else .error bytes.length

def xor : Id :=
  ⟨XorMetric.xor id.bytes other.bytes, by
    rw [XorMetric.length_xor (id.size.trans other.size.symm), id.size]⟩

/-- The loop of `leading_zeros`, from the byte at place `i` on. -/
def leadingZerosFrom (i : ℕ) : List UInt8 → ℕ
  | [] => 160
  | byte :: bytes =>
    if byte ≠ 0 then i * 8 + (8 - byte.toNat.size) else leadingZerosFrom (i + 1) bytes

def leadingZeros : ℕ := leadingZerosFrom 0 id.bytes

def distance : ℕ := maxDistance - (id.xor other).leadingZeros

/-- The id as a number, its first byte the most significant. -/
def value : ℕ := XorMetric.value id.bytes

def isValidForIp (ip : Ipv4Addr) : Bool :=
  if ip.isPrivate || ip.isLinkLocal || ip.isLoopback then true
  else first21Bits id.bytes = first21Bits (idPrefixIpv4 ip (id.bytes.getD (idSize - 1) 0))

/-- `from_ipv4_and_r`: the prefix, the random bytes after it, and `r` last. -/
def fromIpv4AndR (bytes : Id) (ip : Ipv4Addr) (r : UInt8) : Id :=
  let pre := idPrefixIpv4 ip r
  let third := (pre.getD 2 0 &&& 0xf8) ||| (bytes.bytes.getD 2 0 &&& 0x7)
  ⟨(((bytes.bytes.set 0 (pre.getD 0 0)).set 1 (pre.getD 1 0)).set 2 third).set (idSize - 1) r,
    by rw [List.length_set, List.length_set, List.length_set, List.length_set, bytes.size]⟩

theorem ext_bytes {id other : Id} (h : id.bytes = other.bytes) : id = other := by
  cases id
  cases other
  cases h
  rfl

variable {id other}

theorem value_injective (h : id.value = other.value) : id = other :=
  ext_bytes (XorMetric.value_injective (id.size.trans other.size.symm) h)

theorem value_xor (id other : Id) : (id.xor other).value = id.value ^^^ other.value :=
  XorMetric.value_xor (id.size.trans other.size.symm)

theorem leadingZerosFrom_eq {i : ℕ} {bs : List UInt8} (h : i + bs.length = idSize) :
    leadingZerosFrom i bs = i * 8 + XorMetric.leadingZeros bs := by
  induction bs generalizing i with
  | nil =>
    have hi : i = 20 := h
    subst hi
    rfl
  | cons b bs ih =>
    have htail : i + 1 + bs.length = idSize := by
      rw [← h, List.length_cons]
      omega
    rw [leadingZerosFrom, XorMetric.leadingZeros]
    by_cases hb : b = 0
    · rw [if_neg (not_not_intro hb), if_pos hb, ih htail]
      omega
    · rw [if_pos hb, if_neg hb]

/-- The distance is the length of the exclusive or of the numbers. -/
theorem distance_eq (id other : Id) :
    id.distance other = XorMetric.dist id.value other.value := by
  have hxor := (id.xor other).size
  have hsum := XorMetric.leadingZeros_add_size (id.xor other).bytes
  have hzeros := leadingZerosFrom_eq (i := 0) ((Nat.zero_add _).trans hxor)
  have hvalue := value_xor id other
  rw [value] at hvalue
  rw [Nat.zero_mul, Nat.zero_add] at hzeros
  rw [distance, leadingZeros, hzeros, XorMetric.dist, ← hvalue]
  rw [hxor] at hsum
  have hmax : maxDistance = 8 * idSize := rfl
  omega

theorem distance_le (id other : Id) : id.distance other ≤ maxDistance :=
  Nat.sub_le _ _

theorem distance_eq_zero : id.distance other = 0 ↔ id = other := by
  rw [distance_eq, XorMetric.dist_eq_zero]
  constructor
  · exact value_injective
  · rintro rfl
    rfl

/-- Exclusive or with one target tells ids apart and orders them as numbers. -/
theorem compare_xor (id other target : Id) :
    compare (id.xor target).bytes (other.xor target).bytes
      = compare (id.xor target).value (other.xor target).value :=
  XorMetric.compare_eq ((id.xor target).size.trans (other.xor target).size.symm)

theorem xor_value_injective {target : Id} (h : (id.xor target).value = (other.xor target).value) :
    id = other := by
  rw [value_xor, value_xor, Nat.xor_left_inj] at h
  exact value_injective h

theorem distance_metric (x y z : Id) (k : ℕ) :
    x.distance y = (x.value ^^^ y.value).size ∧ x.distance y ≤ maxDistance ∧
    (x.distance y = 0 ↔ x = y) ∧ x.distance y = y.distance x ∧
    x.distance z ≤ max (x.distance y) (y.distance z) ∧
    (x.distance y ≤ k ↔ x.value / 2 ^ k = y.value / 2 ^ k) := by
  refine ⟨distance_eq x y, distance_le x y, distance_eq_zero, ?_, ?_, ?_⟩
  · rw [distance_eq, distance_eq, XorMetric.dist_comm]
  · rw [distance_eq, distance_eq, distance_eq]
    exact XorMetric.dist_le_max x.value y.value z.value
  · rw [distance_eq]
    exact XorMetric.dist_le_iff

/-- The addresses whose nodes may have any id. -/
def Exempt (ip : Ipv4Addr) : Prop :=
  (ip.isPrivate || ip.isLinkLocal || ip.isLoopback) = true

theorem isValidForIp_of_exempt {ip : Ipv4Addr} (h : Exempt ip) : id.isValidForIp ip = true :=
  if_pos h

theorem isValidForIp_iff {ip : Ipv4Addr} (h : ¬ Exempt ip) :
    id.isValidForIp ip = true ↔
      first21Bits id.bytes = first21Bits (idPrefixIpv4 ip (id.bytes.getD (idSize - 1) 0)) := by
  unfold Exempt at h
  rw [isValidForIp, if_neg h, decide_eq_true_iff]

theorem first21Bits_mem {ip : Ipv4Addr} (hip : ¬ Exempt ip) (h : id.isValidForIp ip = true) :
    first21Bits id.bytes ∈ validPrefixes ip := by
  rw [isValidForIp_iff hip] at h
  rw [h]
  exact first21Bits_idPrefixIpv4_mem ip _

/-- Five bits of one byte and three of another. -/
theorem third_byte (p b : UInt8) : ((p &&& 0xf8) ||| (b &&& 0x7)) &&& 0xf8 = p &&& 0xf8 := by
  have hmask : ∀ i < 8, ((0x7 : UInt8).toBitVec.getLsbD i &&
      (0xf8 : UInt8).toBitVec.getLsbD i) = false := by decide
  apply UInt8.toBitVec_inj.mp
  apply BitVec.eq_of_getLsbD_eq
  intro i hi
  rw [UInt8.toBitVec_and, UInt8.toBitVec_or, UInt8.toBitVec_and, UInt8.toBitVec_and,
    BitVec.getLsbD_and, BitVec.getLsbD_or, BitVec.getLsbD_and, BitVec.getLsbD_and,
    Bool.and_or_distrib_right, Bool.and_assoc, Bool.and_self, Bool.and_assoc, hmask i hi,
    Bool.and_false, Bool.or_false]

theorem first21Bits_fromIpv4AndR (bytes : Id) (ip : Ipv4Addr) (r : UInt8) :
    first21Bits (fromIpv4AndR bytes ip r).bytes = first21Bits (idPrefixIpv4 ip r) := by
  obtain ⟨bs, hbs⟩ := bytes
  obtain ⟨p0, p1, p2, hpre⟩ : ∃ p0 p1 p2, idPrefixIpv4 ip r = [p0, p1, p2] := ⟨_, _, _, rfl⟩
  match bs, hbs with
  | b0 :: b1 :: b2 :: bs, _ =>
    simp only [fromIpv4AndR, hpre, first21Bits, idSize, List.set, List.getD_cons_zero,
      List.getD_cons_succ, third_byte]

theorem getD_fromIpv4AndR (bytes : Id) (ip : Ipv4Addr) (r : UInt8) :
    (fromIpv4AndR bytes ip r).bytes.getD (idSize - 1) 0 = r := by
  have hlt : idSize - 1 < bytes.bytes.length := by
    rw [bytes.size]
    exact Nat.lt_succ_self 19
  simp only [fromIpv4AndR]
  rw [List.getD_eq_getElem?_getD, List.getElem?_set_self]
  · rfl
  · simpa using hlt

/-- A generated id is secure. -/
theorem fromIpv4AndR_isValidForIp (bytes : Id) (ip : Ipv4Addr) (r : UInt8) :
    (fromIpv4AndR bytes ip r).isValidForIp ip = true := by
  by_cases hip : Exempt ip
  · exact isValidForIp_of_exempt hip
  · rw [isValidForIp_iff hip, first21Bits_fromIpv4AndR, getD_fromIpv4AndR]

/-- Generated ids are secure, and the secure ids of an address that is not exempt have eight
beginnings at most, those of the generated ones. -/
theorem secure_prefixes (ip : Ipv4Addr) :
    (∀ bytes r, (fromIpv4AndR bytes ip r).isValidForIp ip = true) ∧
    (¬ Exempt ip →
      {p | ∃ id : Id, id.isValidForIp ip = true ∧ first21Bits id.bytes = p}
        = (validPrefixes ip : Set (List UInt8)) ∧
      (validPrefixes ip).card ≤ 8) := by
  refine ⟨fun bytes r => fromIpv4AndR_isValidForIp bytes ip r, fun hip => ⟨?_, ?_⟩⟩
  · apply Set.eq_of_subset_of_subset
    · rintro p ⟨id, hid, rfl⟩
      exact first21Bits_mem hip hid
    · intro p hp
      obtain ⟨r, _, rfl⟩ := Finset.mem_image.mp (Finset.mem_coe.mp hp)
      let zero : Id := ⟨List.replicate idSize 0, List.length_replicate⟩
      exact ⟨fromIpv4AndR zero ip (UInt8.ofNat r), fromIpv4AndR_isValidForIp _ _ _,
        first21Bits_fromIpv4AndR _ _ _⟩
  · exact card_validPrefixes_le ip

end Id

end Nerea.Mainline
