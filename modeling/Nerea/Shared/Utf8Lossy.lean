import Nerea.Shared.Segments
import Mathlib.Algebra.Group.Nat.Defs

/-!
# Lossy UTF-8 decoding

The decoder that replaces every maximal ill-formed part by U+FFFD, as a machine that
reads one byte at a time. It inverts the encoding of characters, and a byte of ASCII
resets it, so that decoding commutes with splitting at an ASCII delimiter.
-/

set_option autoImplicit false

namespace Utf8Lossy

def replacement : Char := '\uFFFD'

/-- A sequence under way: the continuation bytes still due, the range the next of them
must lie in and the bits read. Only the first continuation byte is restricted beyond
`80..BF`, which keeps every completed sequence out of ASCII. -/
structure Pending where
  need : Nat
  lo : Nat
  hi : Nat
  acc : Nat
  lo_ge : 0x80 ≤ lo
  wide : 0x80 ≤ (acc * 64 + (lo - 0x80)) * 64 ^ (need - 1)

def lead (n : Nat) : Option Pending :=
  if h : 0xC2 ≤ n ∧ n ≤ 0xDF then some ⟨1, 0x80, 0xBF, n - 0xC0, by omega, by omega⟩
  else if n = 0xE0 then some ⟨2, 0xA0, 0xBF, 0, by omega, by omega⟩
  else if n = 0xED then some ⟨2, 0x80, 0x9F, 13, by omega, by omega⟩
  else if h : 0xE1 ≤ n ∧ n ≤ 0xEF then
    some ⟨2, 0x80, 0xBF, n - 0xE0, by omega, by omega⟩
  else if n = 0xF0 then some ⟨3, 0x90, 0xBF, 0, by omega, by omega⟩
  else if n = 0xF4 then some ⟨3, 0x80, 0x8F, 4, by omega, by omega⟩
  else if h : 0xF1 ≤ n ∧ n ≤ 0xF3 then
    some ⟨3, 0x80, 0xBF, n - 0xF0, by omega, by omega⟩
  else none

/-- A byte read between characters: what it yields and what it leaves pending. -/
def start (b : UInt8) : List Char × Option Pending :=
  if b.toNat < 0x80 then ([Char.ofNat b.toNat], none)
  else match lead b.toNat with
    | some p => ([], some p)
    | none => ([replacement], none)

/-- A byte read while `p` is pending. A byte out of range ends the ill-formed part and
is read again as a first byte. -/
def next (p : Pending) (b : UInt8) : List Char × Option Pending :=
  if h : p.lo ≤ b.toNat ∧ b.toNat ≤ p.hi then
    if hn : p.need ≤ 1 then ([Char.ofNat (p.acc * 64 + (b.toNat - 0x80))], none)
    else ([], some ⟨p.need - 1, 0x80, 0xBF, p.acc * 64 + (b.toNat - 0x80), by omega, by
      have hw := p.wide
      have hpow : 64 ^ (p.need - 1) = 64 * 64 ^ (p.need - 1 - 1) := by
        rw [← Nat.pow_succ']
        congr 1
        omega
      rw [hpow, ← Nat.mul_assoc] at hw
      refine Nat.le_trans hw (Nat.mul_le_mul_right _ ?_)
      omega⟩)
  else (replacement :: (start b).1, (start b).2)

def decode : Option Pending → List UInt8 → List Char
  | none, [] => []
  | some _, [] => [replacement]
  | none, b :: bs => (start b).1 ++ decode (start b).2 bs
  | some p, b :: bs => (next p b).1 ++ decode (next p b).2 bs

def fromUtf8Lossy (bs : List UInt8) : List Char := decode none bs

@[simp] theorem fromUtf8Lossy_nil : fromUtf8Lossy [] = [] := rfl

theorem start_ascii {b : UInt8} (h : b.toNat < 0x80) :
    start b = ([Char.ofNat b.toNat], none) := by
  simp [start, h]

theorem next_ascii (p : Pending) {b : UInt8} (h : b.toNat < 0x80) :
    next p b = ([replacement, Char.ofNat b.toNat], none) := by
  have hlo := p.lo_ge
  have hr : ¬(p.lo ≤ b.toNat ∧ b.toNat ≤ p.hi) := by omega
  simp [next, hr, start_ascii h]

/-- A byte of ASCII separates what is decoded before it from what is decoded after it. -/
theorem decode_append_ascii {b : UInt8} (h : b.toNat < 0x80) (s : Option Pending)
    (xs ys : List UInt8) :
    decode s (xs ++ b :: ys) = decode s xs ++ Char.ofNat b.toNat :: decode none ys := by
  induction xs generalizing s with
  | nil =>
    cases s with
    | none => simp [decode, start_ascii h]
    | some p => simp [decode, next_ascii p h]
  | cons x xs ih =>
    cases s with
    | none => simp only [List.cons_append, decode, ih, List.append_assoc]
    | some p => simp only [List.cons_append, decode, ih, List.append_assoc]

theorem start_fst_ne_nil {b : UInt8} (h : (start b).2 = none) : (start b).1 ≠ [] := by
  unfold start at h ⊢
  split
  · simp
  · split <;> simp_all

theorem next_fst_ne_nil {p : Pending} {b : UInt8} (h : (next p b).2 = none) :
    (next p b).1 ≠ [] := by
  unfold next at h ⊢
  split
  · split <;> simp_all
  · simp

theorem decode_ne_nil (s : Option Pending) {bs : List UInt8} (h : s ≠ none ∨ bs ≠ []) :
    decode s bs ≠ [] := by
  induction bs generalizing s with
  | nil =>
    cases s with
    | none => simp at h
    | some p => simp [decode]
  | cons b bs ih =>
    cases s with
    | none =>
      cases hs : (start b).2 with
      | none => simp [decode, start_fst_ne_nil hs]
      | some q => simp [decode, hs, ih (some q) (Or.inl (by simp))]
    | some p =>
      cases hs : (next p b).2 with
      | none => simp [decode, next_fst_ne_nil hs]
      | some q => simp [decode, hs, ih (some q) (Or.inl (by simp))]

theorem toNat_ofNat {n : Nat} (h : n.isValidChar) : (Char.ofNat n).toNat = n := by
  rw [Char.ofNat, dif_pos h]
  rfl

theorem ofNat_ne_newline {n : Nat} (h : n ≠ 0x0A) : Char.ofNat n ≠ '\n' := by
  intro he
  by_cases hv : n.isValidChar
  · have hn := congrArg Char.toNat he
    rw [toNat_ofNat hv] at hn
    exact h hn
  · rw [Char.ofNat, dif_neg hv] at he
    exact absurd he (by decide)

theorem mem_start {b : UInt8} {c : Char} (h : c ∈ (start b).1) :
    (b.toNat < 0x80 ∧ c = Char.ofNat b.toNat) ∨ c = replacement := by
  unfold start at h
  split at h
  · exact Or.inl ⟨by assumption, List.mem_singleton.mp h⟩
  · split at h
    · simp at h
    · exact Or.inr (List.mem_singleton.mp h)

theorem newline_of_start {b : UInt8} (h : '\n' ∈ (start b).1) : b = 0x0A := by
  rcases mem_start h with ⟨_, hc⟩ | hc
  · by_cases hb : b.toNat = 0x0A
    · exact UInt8.toNat_inj.mp hb
    · exact absurd hc.symm (ofNat_ne_newline hb)
  · exact absurd hc (by decide)

theorem newline_of_next {p : Pending} {b : UInt8} (h : '\n' ∈ (next p b).1) : b = 0x0A := by
  have hwide := p.wide
  have hlo := p.lo_ge
  unfold next at h
  split at h
  · rename_i hr
    split at h
    · rename_i hn
      have hneed : p.need - 1 = 0 := by omega
      rw [hneed] at hwide
      exact absurd (List.mem_singleton.mp h).symm (ofNat_ne_newline (by omega))
    · simp at h
  · rcases List.mem_cons.mp h with hc | hc
    · exact absurd hc (by decide)
    · exact newline_of_start hc

theorem newline_not_mem_decode (s : Option Pending) {bs : List UInt8} (h : 0x0A ∉ bs) :
    '\n' ∉ decode s bs := by
  induction bs generalizing s with
  | nil => cases s <;> simp [decode, replacement]
  | cons b bs ih =>
    obtain ⟨hb, hbs⟩ := not_or.mp (List.mem_cons.not.mp h)
    cases s with
    | none =>
      simp only [decode, List.mem_append, not_or]
      exact ⟨fun hm => hb (newline_of_start hm).symm, ih _ hbs⟩
    | some p =>
      simp only [decode, List.mem_append, not_or]
      exact ⟨fun hm => hb (newline_of_next hm).symm, ih _ hbs⟩

theorem segments_fromUtf8Lossy (bs : List UInt8) :
    Segments.segments '\n' (fromUtf8Lossy bs) =
      (Segments.segments 0x0A bs).map fromUtf8Lossy := by
  induction hn : bs.length using Nat.strongRecOn generalizing bs with
  | ind n ih =>
    subst hn
    by_cases hm : (0x0A : UInt8) ∈ bs
    · obtain ⟨xs, ys, rfl⟩ := List.append_of_mem hm
      have hx := ih xs.length (by simp) xs rfl
      have hy := ih ys.length (by simp; omega) ys rfl
      have hdec := decode_append_ascii (b := 0x0A) (by decide) none xs ys
      have hnl : Char.ofNat (0x0A : UInt8).toNat = '\n' := by decide
      rw [hnl] at hdec
      simp only [fromUtf8Lossy] at hx hy ⊢
      rw [hdec, Segments.segments_append_cons, Segments.segments_append_cons, hx, hy,
        List.map_append]
    · cases bs with
      | nil => simp
      | cons b bs =>
        have hnl : '\n' ∉ fromUtf8Lossy (b :: bs) := newline_not_mem_decode none hm
        have hne : fromUtf8Lossy (b :: bs) ≠ [] := decode_ne_nil none (Or.inr (by simp))
        rw [Segments.segments_of_not_mem hm (by simp), Segments.segments_of_not_mem hnl hne]
        rfl

theorem next_last {p : Pending} {b : UInt8} (h : p.lo ≤ b.toNat ∧ b.toNat ≤ p.hi)
    (hn : p.need = 1) : next p b = ([Char.ofNat (p.acc * 64 + (b.toNat - 0x80))], none) := by
  simp [next, h, hn]

theorem next_more {p : Pending} {b : UInt8} (h : p.lo ≤ b.toNat ∧ b.toNat ≤ p.hi)
    (hn : 1 < p.need) : ∃ q, next p b = ([], some q) ∧ q.need = p.need - 1 ∧
      q.lo = 0x80 ∧ q.hi = 0xBF ∧ q.acc = p.acc * 64 + (b.toNat - 0x80) := by
  simp [next, h, Nat.not_le.mpr hn]

theorem start_lead {b : UInt8} {p : Pending} (h : 0x80 ≤ b.toNat)
    (hp : lead b.toNat = some p) : start b = ([], some p) := by
  simp [start, Nat.not_lt.mpr h, hp]

theorem lead_two {n : Nat} (h : 0xC2 ≤ n ∧ n ≤ 0xDF) : ∃ p, lead n = some p ∧
    p.need = 1 ∧ p.lo = 0x80 ∧ p.hi = 0xBF ∧ p.acc = n - 0xC0 := by
  simp [lead, h]

theorem lead_three {n : Nat} (h : 0xE0 ≤ n ∧ n ≤ 0xEF) : ∃ p, lead n = some p ∧
    p.need = 2 ∧ (p.lo = if n = 0xE0 then 0xA0 else 0x80) ∧
      (p.hi = if n = 0xED then 0x9F else 0xBF) ∧ p.acc = n - 0xE0 := by
  unfold lead
  have h2 : ¬(0xC2 ≤ n ∧ n ≤ 0xDF) := by omega
  by_cases h0 : n = 0xE0
  · simp [h0]
  by_cases hd : n = 0xED
  · simp [hd]
  have hr : 0xE1 ≤ n ∧ n ≤ 0xEF := by omega
  simp [h2, h0, hd, hr]

theorem lead_four {n : Nat} (h : 0xF0 ≤ n ∧ n ≤ 0xF4) : ∃ p, lead n = some p ∧
    p.need = 3 ∧ (p.lo = if n = 0xF0 then 0x90 else 0x80) ∧
      (p.hi = if n = 0xF4 then 0x8F else 0xBF) ∧ p.acc = n - 0xF0 := by
  unfold lead
  have h2 : ¬(0xC2 ≤ n ∧ n ≤ 0xDF) := by omega
  have h3 : ¬(0xE1 ≤ n ∧ n ≤ 0xEF) := by omega
  by_cases h0 : n = 0xF0
  · simp [h0]
  by_cases h4 : n = 0xF4
  · simp [h4]
  have hne : n ≠ 0xE0 ∧ n ≠ 0xED := by omega
  have hr : 0xF1 ≤ n ∧ n ≤ 0xF3 := by omega
  simp [h2, h3, h0, h4, hne, hr]

theorem toNat_byte {n : Nat} (h : n < 256) : (UInt8.ofNat n).toNat = n :=
  UInt8.toNat_ofNat_of_lt h

section Encoded
variable {bs : List UInt8} {a b c d : Nat}

theorem decode_one (ha : a < 0x80) :
    decode none (UInt8.ofNat a :: bs) = Char.ofNat a :: decode none bs := by
  have hn : (UInt8.ofNat a).toNat = a := toNat_byte (by omega)
  rw [decode, start_ascii (by omega), hn]
  rfl

theorem decode_two (ha : 0xC2 ≤ a ∧ a ≤ 0xDF) (hb : 0x80 ≤ b ∧ b ≤ 0xBF) :
    decode none (UInt8.ofNat a :: UInt8.ofNat b :: bs) =
      Char.ofNat ((a - 0xC0) * 64 + (b - 0x80)) :: decode none bs := by
  have hna : (UInt8.ofNat a).toNat = a := toNat_byte (by omega)
  have hnb : (UInt8.ofNat b).toNat = b := toNat_byte (by omega)
  obtain ⟨p, hp, hneed, hlo, hhi, hacc⟩ := lead_two ha
  rw [decode, start_lead (by omega) (by rw [hna]; exact hp), decode,
    next_last (by omega) hneed, hnb, hacc]
  rfl

theorem decode_three (ha : 0xE0 ≤ a ∧ a ≤ 0xEF)
    (hb : (if a = 0xE0 then 0xA0 else 0x80) ≤ b ∧ b ≤ if a = 0xED then 0x9F else 0xBF)
    (hc : 0x80 ≤ c ∧ c ≤ 0xBF) :
    decode none (UInt8.ofNat a :: UInt8.ofNat b :: UInt8.ofNat c :: bs) =
      Char.ofNat (((a - 0xE0) * 64 + (b - 0x80)) * 64 + (c - 0x80)) :: decode none bs := by
  have hb' : b ≤ 0xBF := Nat.le_trans hb.2 (by split <;> omega)
  have hna : (UInt8.ofNat a).toNat = a := toNat_byte (by omega)
  have hnb : (UInt8.ofNat b).toNat = b := toNat_byte (by omega)
  have hnc : (UInt8.ofNat c).toNat = c := toNat_byte (by omega)
  obtain ⟨p, hp, hneed, hlo, hhi, hacc⟩ := lead_three ha
  obtain ⟨q, hq, hneed', hlo', hhi', hacc'⟩ :=
    next_more (p := p) (b := UInt8.ofNat b) (by rw [hlo, hhi, hnb]; exact hb) (by omega)
  rw [decode, start_lead (by omega) (by rw [hna]; exact hp), decode, hq, decode,
    next_last (by omega) (by omega), hnc, hacc', hacc, hnb]
  rfl

theorem decode_four (ha : 0xF0 ≤ a ∧ a ≤ 0xF4)
    (hb : (if a = 0xF0 then 0x90 else 0x80) ≤ b ∧ b ≤ if a = 0xF4 then 0x8F else 0xBF)
    (hc : 0x80 ≤ c ∧ c ≤ 0xBF) (hd : 0x80 ≤ d ∧ d ≤ 0xBF) :
    decode none (UInt8.ofNat a :: UInt8.ofNat b :: UInt8.ofNat c :: UInt8.ofNat d :: bs) =
      Char.ofNat ((((a - 0xF0) * 64 + (b - 0x80)) * 64 + (c - 0x80)) * 64 + (d - 0x80)) ::
        decode none bs := by
  have hb' : b ≤ 0xBF := Nat.le_trans hb.2 (by split <;> omega)
  have hna : (UInt8.ofNat a).toNat = a := toNat_byte (by omega)
  have hnb : (UInt8.ofNat b).toNat = b := toNat_byte (by omega)
  have hnc : (UInt8.ofNat c).toNat = c := toNat_byte (by omega)
  have hnd : (UInt8.ofNat d).toNat = d := toNat_byte (by omega)
  obtain ⟨p, hp, hneed, hlo, hhi, hacc⟩ := lead_four ha
  obtain ⟨q, hq, hneed', hlo', hhi', hacc'⟩ :=
    next_more (p := p) (b := UInt8.ofNat b) (by rw [hlo, hhi, hnb]; exact hb) (by omega)
  obtain ⟨r, hr, hneed'', hlo'', hhi'', hacc''⟩ :=
    next_more (p := q) (b := UInt8.ofNat c) (by omega) (by omega)
  rw [decode, start_lead (by omega) (by rw [hna]; exact hp), decode, hq, decode, hr, decode,
    next_last (by omega) (by omega), hnd, hacc'', hacc', hacc, hnb, hnc]
  rfl

end Encoded

theorem decode_utf8EncodeChar (c : Char) (bs : List UInt8) :
    decode none (String.utf8EncodeChar c ++ bs) = c :: decode none bs := by
  have hvalid : c.val.toNat.isValidChar := c.valid
  refine Eq.trans ?_ (congrArg (· :: decode none bs) (Char.ofNat_toNat c))
  change _ = Char.ofNat c.val.toNat :: decode none bs
  unfold String.utf8EncodeChar
  unfold Nat.isValidChar at hvalid
  dsimp only
  generalize c.val.toNat = v at hvalid ⊢
  split
  · exact decode_one (by omega)
  · split
    · refine (decode_two (by omega) (by omega)).trans ?_
      exact congrArg (Char.ofNat · :: decode none bs) (by omega)
    · split
      · refine (decode_three (by omega) ⟨?_, ?_⟩ (by omega)).trans ?_
        · split <;> omega
        · split <;> omega
        · exact congrArg (Char.ofNat · :: decode none bs) (by omega)
      · refine (decode_four (by omega) ⟨?_, ?_⟩ (by omega) (by omega)).trans ?_
        · split <;> omega
        · split <;> omega
        · exact congrArg (Char.ofNat · :: decode none bs) (by omega)

theorem fromUtf8Lossy_flatMap (cs : List Char) :
    fromUtf8Lossy (cs.flatMap String.utf8EncodeChar) = cs := by
  induction cs with
  | nil => rfl
  | cons c cs ih =>
    rw [List.flatMap_cons, fromUtf8Lossy, decode_utf8EncodeChar]
    exact congrArg (c :: ·) ih

/-- A byte of ASCII is found only where its character is. -/
theorem mem_of_ascii {b : UInt8} (hb : b.toNat < 0x80) {cs : List Char}
    (h : b ∈ cs.flatMap String.utf8EncodeChar) : Char.ofNat b.toNat ∈ cs := by
  obtain ⟨xs, ys, hxy⟩ := List.append_of_mem h
  have hdec := decode_append_ascii hb none xs ys
  rw [← hxy] at hdec
  have hcs := fromUtf8Lossy_flatMap cs
  rw [fromUtf8Lossy, hdec] at hcs
  rw [← hcs]
  exact List.mem_append_right _ List.mem_cons_self

end Utf8Lossy
