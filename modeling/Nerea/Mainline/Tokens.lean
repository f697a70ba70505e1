import Nerea.Mainline.Node
import Nerea.Shared.Run
import Mathlib.Data.List.Count

/-!
# Tokens

A token is a check of the address and of a secret that is drawn anew when a request finds it
older than five minutes. The token of the secret before is taken too. As the check is linear,
the tokens of two addresses differ by a word that no secret enters.
-/

set_option autoImplicit false

namespace Nerea.Mainline

/-- Twenty bytes. -/
structure Secret where
  bytes : List UInt8
  size : bytes.length = 20
deriving DecidableEq

structure Tokens where
  prevSecret : Secret
  currSecret : Secret
  lastUpdated : ℕ
deriving DecidableEq

namespace Tokens

variable (t : Tokens)

def shouldUpdate (now : ℕ) : Bool := tokenRotateInterval < now - t.lastUpdated

def internalGenerateToken (address : SocketAddrV4) (secret : Secret) : List UInt8 :=
  toBeBytes (castagnoli (address.ip.octets ++ secret.bytes))

def validate (address : SocketAddrV4) (token : List UInt8) : Bool :=
  let prev := internalGenerateToken address t.prevSecret
  let curr := internalGenerateToken address t.currSecret
  token = curr || token = prev

/-- With the secret that is drawn. -/
def rotate (random : Secret) (now : ℕ) : Tokens := ⟨t.currSecret, random, now⟩

def generateToken (address : SocketAddrV4) : List UInt8 :=
  internalGenerateToken address t.currSecret

/-- What `handle_request` does to the tokens before it handles a request. -/
def refresh (random : Secret) (now : ℕ) : Tokens :=
  if t.shouldUpdate now then t.rotate random now else t

variable {t}

theorem validate_generateToken (address : SocketAddrV4) :
    t.validate address (t.generateToken address) = true := by
  rw [validate, generateToken, decide_eq_true rfl, Bool.true_or]

theorem validate_eq_true {address : SocketAddrV4} {token : List UInt8} :
    t.validate address token = true ↔
      token = internalGenerateToken address t.currSecret ∨
        token = internalGenerateToken address t.prevSecret := by
  rw [validate, Bool.or_eq_true, decide_eq_true_iff, decide_eq_true_iff]

/-- What the checks of two addresses differ by, before any secret. -/
def mask (a b : SocketAddrV4) : BitVec 32 :=
  Crc.steps 0x82f63b78#32 160 (Crc.update 0x82f63b78#32 (BitVec.allOnes 32) a.ip.octets ^^^
    Crc.update 0x82f63b78#32 (BitVec.allOnes 32) b.ip.octets)

theorem castagnoli_xor (a b : SocketAddrV4) (secret : Secret) :
    castagnoli (a.ip.octets ++ secret.bytes) ^^^ castagnoli (b.ip.octets ++ secret.bytes)
      = mask a b := by
  rw [castagnoli, castagnoli, Crc.checksum_xor_checksum, secret.size]
  rfl

theorem castagnoli_injective {a b : SocketAddrV4} {secret : Secret}
    (h : castagnoli (a.ip.octets ++ secret.bytes) = castagnoli (b.ip.octets ++ secret.bytes)) :
    a.ip = b.ip :=
  Ipv4Addr.octets_injective (Crc.checksum_injective rfl rfl (Nat.le_refl 32) h)

/-- The token of any other address follows from one's own without the secret, so a server
takes for every address a token that was made from one it gave to another. The token of another
IP is another one, and the port does not enter. -/
theorem token_of_other (a b : SocketAddrV4) :
    (∀ t : Tokens, t.generateToken b
      = XorMetric.xor (t.generateToken a) (toBeBytes (mask a b))) ∧
    (∀ t : Tokens, t.validate b (XorMetric.xor (t.generateToken a) (toBeBytes (mask a b)))
      = true) ∧
    ∀ t : Tokens, t.generateToken a = t.generateToken b ↔ a.ip = b.ip := by
  have hother : ∀ t : Tokens, t.generateToken b
      = XorMetric.xor (t.generateToken a) (toBeBytes (mask a b)) := by
    intro t
    rw [generateToken, generateToken, internalGenerateToken, internalGenerateToken,
      ← toBeBytes_xor, ← castagnoli_xor a b t.currSecret, ← BitVec.xor_assoc, BitVec.xor_self,
      BitVec.zero_xor]
  refine ⟨hother, ?_, ?_⟩
  · intro t
    rw [← hother]
    exact validate_generateToken b
  · intro t
    constructor
    · intro h
      exact castagnoli_injective (toBeBytes_injective h)
    · intro h
      rw [generateToken, generateToken, internalGenerateToken, internalGenerateToken, h]

/-- A request, as far as the tokens are concerned: the secret that would be drawn at it, and
its time. -/
def step (t : Tokens) (e : Secret × ℕ) : Tokens := t.refresh e.1 e.2

/-- How many of the requests draw a secret. -/
def rotations : Tokens → List (Secret × ℕ) → ℕ
  | _, [] => 0
  | t, e :: es => (if t.shouldUpdate e.2 then 1 else 0) + rotations (t.step e) es

theorem step_of_not_shouldUpdate {e : Secret × ℕ} (h : t.shouldUpdate e.2 = false) :
    t.step e = t := by
  rw [step, refresh, h, if_neg Bool.false_ne_true]

theorem step_of_shouldUpdate {e : Secret × ℕ} (h : t.shouldUpdate e.2 = true) :
    t.step e = ⟨t.currSecret, e.1, e.2⟩ := by
  rw [step, refresh, if_pos h, rotate]

theorem run_of_rotations_eq_zero {es : List (Secret × ℕ)} (h : rotations t es = 0) :
    Run.run step t es = t := by
  induction es generalizing t with
  | nil => rfl
  | cons e es ih =>
    rw [rotations] at h
    cases hupdate : t.shouldUpdate e.2 with
    | true =>
      rw [if_pos hupdate] at h
      omega
    | false =>
      have hstep := step_of_not_shouldUpdate hupdate
      rw [hstep] at h
      have hrun : Run.run step t (e :: es) = Run.run step (t.step e) es := rfl
      rw [hrun, hstep]
      exact ih (by omega)

/-- The secret that was current is the one before after one rotation. -/
theorem run_of_rotations_eq_one {es : List (Secret × ℕ)} (h : rotations t es = 1) :
    (Run.run step t es).prevSecret = t.currSecret := by
  induction es generalizing t with
  | nil => cases h
  | cons e es ih =>
    have hrun : Run.run step t (e :: es) = Run.run step (t.step e) es := rfl
    rw [rotations] at h
    cases hupdate : t.shouldUpdate e.2 with
    | true =>
      rw [if_pos hupdate] at h
      rw [hrun, run_of_rotations_eq_zero (by omega), step_of_shouldUpdate hupdate]
    | false =>
      rw [hupdate, if_neg Bool.false_ne_true, Nat.zero_add] at h
      rw [hrun, ih h, step_of_not_shouldUpdate hupdate]

theorem currSecret_of_rotations_pos {es : List (Secret × ℕ)} (h : 0 < rotations t es) :
    (Run.run step t es).currSecret ∈ es.map Prod.fst := by
  induction es generalizing t with
  | nil => cases h
  | cons e es ih =>
    have hrun : Run.run step t (e :: es) = Run.run step (t.step e) es := rfl
    rw [hrun, List.map_cons]
    rcases Nat.eq_zero_or_pos (rotations (t.step e) es) with hzero | hpos
    · rw [run_of_rotations_eq_zero hzero]
      cases hupdate : t.shouldUpdate e.2 with
      | true =>
        rw [step_of_shouldUpdate hupdate]
        exact List.mem_cons_self
      | false =>
        rw [rotations, hzero, hupdate] at h
        cases h
    · exact List.mem_cons_of_mem _ (ih hpos)

theorem prevSecret_of_rotations {es : List (Secret × ℕ)} (h : 2 ≤ rotations t es) :
    (Run.run step t es).prevSecret ∈ es.map Prod.fst := by
  induction es generalizing t with
  | nil => cases h
  | cons e es ih =>
    have hrun : Run.run step t (e :: es) = Run.run step (t.step e) es := rfl
    rw [hrun, List.map_cons]
    rcases Nat.lt_or_ge (rotations (t.step e) es) 2 with hlt | hge
    · -- then this request and one other draw a secret
      cases hupdate : t.shouldUpdate e.2 with
      | true =>
        rw [rotations, if_pos hupdate] at h
        have hone : rotations (t.step e) es = 1 := by omega
        rw [run_of_rotations_eq_one hone, step_of_shouldUpdate hupdate]
        exact List.mem_cons_self
      | false =>
        rw [rotations, hupdate, if_neg Bool.false_ne_true] at h
        omega
    · exact List.mem_cons_of_mem _ (ih hge)

/-- Every rotation is more than five minutes after the one before it. -/
theorem exists_late_of_rotations {es : List (Secret × ℕ)} {k : ℕ} (hk : 0 < k)
    (h : k ≤ rotations t es) : ∃ e ∈ es, t.lastUpdated + k * tokenRotateInterval < e.2 := by
  induction es generalizing t k with
  | nil =>
    rw [rotations] at h
    omega
  | cons e es ih =>
    rw [rotations] at h
    cases hupdate : t.shouldUpdate e.2 with
    | true =>
      have hlate : tokenRotateInterval < e.2 - t.lastUpdated := of_decide_eq_true hupdate
      rw [if_pos hupdate] at h
      by_cases hone : k = 1
      · refine ⟨e, List.mem_cons_self, ?_⟩
        rw [hone, Nat.one_mul]
        omega
      · obtain ⟨j, rfl⟩ : ∃ j, k = j + 1 := ⟨k - 1, by omega⟩
        obtain ⟨e', he', hlt⟩ := ih (t := t.step e) (k := j) (by omega) (by omega)
        refine ⟨e', List.mem_cons_of_mem e he', ?_⟩
        rw [step_of_shouldUpdate hupdate] at hlt
        rw [Nat.succ_mul]
        simp only at hlt
        omega
    | false =>
      rw [hupdate, if_neg Bool.false_ne_true, Nat.zero_add] at h
      obtain ⟨e', he', hlt⟩ := ih hk h
      rw [step_of_not_shouldUpdate hupdate] at hlt
      exact ⟨e', List.mem_cons_of_mem e he', hlt⟩

/-- A token is taken as long as no two later requests draw a secret. So it is taken until ten
minutes after the last drawing before it, whatever comes, and by the next request however
late that is. After two drawings it is taken only if a secret drawn since happens to give it. -/
theorem token_lifetime (t : Tokens) (address : SocketAddrV4) (es : List (Secret × ℕ)) :
    (rotations t es ≤ 1 → (Run.run step t es).validate address (t.generateToken address) = true) ∧
    ((∀ e ∈ es, e.2 ≤ t.lastUpdated + 2 * tokenRotateInterval) → rotations t es ≤ 1) ∧
    (∀ e, rotations t [e] ≤ 1) ∧
    (2 ≤ rotations t es →
      (Run.run step t es).validate address (t.generateToken address) = true →
      ∃ e ∈ es, t.generateToken address = internalGenerateToken address e.1) := by
  refine ⟨?_, ?_, ?_, ?_⟩
  · intro h
    rw [validate_eq_true]
    rcases Nat.eq_zero_or_pos (rotations t es) with hzero | hpos
    · rw [run_of_rotations_eq_zero hzero]
      exact Or.inl rfl
    · rw [run_of_rotations_eq_one (by omega)]
      exact Or.inr rfl
  · intro hes
    by_contra hmany
    have htwo : 2 ≤ rotations t es := by omega
    obtain ⟨e, he, hlate⟩ := exists_late_of_rotations (Nat.zero_lt_succ 1) htwo
    have hle := hes e he
    omega
  · intro e
    rw [rotations, rotations, Nat.add_zero]
    split
    · exact Nat.le_refl 1
    · exact Nat.zero_le 1
  · intro hmany hvalid
    rcases validate_eq_true.mp hvalid with h | h
    · have hpos : 0 < rotations t es := by omega
      obtain ⟨e, he, heq⟩ := List.mem_map.mp (currSecret_of_rotations_pos hpos)
      rw [← heq] at h
      exact ⟨e, he, h⟩
    · obtain ⟨e, he, heq⟩ := List.mem_map.mp (prevSecret_of_rotations hmany)
      rw [← heq] at h
      exact ⟨e, he, h⟩

end Tokens

end Nerea.Mainline
